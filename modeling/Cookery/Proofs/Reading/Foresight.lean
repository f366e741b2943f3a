import Cookery.Proofs.Reading.Appending

/-!
# A fault of a line is found without reading on

The readers look ahead by one line, pass over blank lines and search for headings.  Still, an error
that a line raises is decided by the lines up to that line: in every text that starts with the same
lines the same error is raised.  The other errors are those of the end of the text, and a title that
is taken, which is noticed only behind its preparation.

* `Told last`               a result that only the lines up to the line `last` have to do with;
* `Reader.Local`            a reader that does not look further than its result tells, one lemma for
                            each part and one for two parts (`Reader.Local.andThen`);
* `readAuxiliaries_kept`    the preparations after the main one;
* `parse_error_of_same_start`   whole texts.
-/

namespace Cookery

/-! ## readers that do not look further -/

section
variable {α β : Type}

/-- a result that is told by the lines up to the line `last`: the error is raised by one of them, or
the place behind what was read is before the end of them -/
def Told (last : Nat) : Except ReadError (α × Cursor) → Prop
  | .error e => e.fault.OfLine ∧ e.line ≤ last
  | .ok (_, d) => d.read < last

/-- the same result in a text that goes on -/
def extendResult (more : List String) :
    Except ReadError (α × Cursor) → Except ReadError (α × Cursor)
  | .error e => .error e
  | .ok (a, d) => .ok (a, d.extend more)

/-- what a reader finds in some lines it finds there whatever lines follow -/
structure Reader.Local (f : Reader α) : Prop where
  within : ∀ c, ReadsWithin c (f c)
  kept : ∀ (b : Cursor) (more : List String), Told b.finish.read (f (b.extend more)) →
    ∃ r, ∀ more', f (b.extend more') = extendResult more' r

/-- only lines behind a place can tell what is read from there -/
theorem read_lt_of_told {c : Cursor} {last : Nat} {r : Except ReadError (α × Cursor)}
    (h : ReadsWithin c r) (htold : Told last r) : c.read < last := by
  cases r with
  | error e => exact Nat.lt_of_lt_of_le (Cursor.FailsWith.read_lt h htold.1) htold.2
  | ok v => exact Nat.lt_of_le_of_lt (Cursor.Ahead.read h) htold

theorem finish_cons (read : Nat) (l : String) (ls : List String) :
    (⟨read, l :: ls⟩ : Cursor).finish.read = (⟨read + 1, ls⟩ : Cursor).finish.read :=
  (Cursor.ahead_cons read l ls).finish.symm

/-- a place further on in a text that goes on is one in the lines before -/
theorem ahead_of_ahead_extend {b d : Cursor} {more : List String}
    (h : (b.extend more).Ahead (d.extend more)) : b.Ahead d := by
  have hfinish : d.read + (d.rest ++ more).length = b.read + (b.rest ++ more).length := h.finish
  rw [List.length_append, List.length_append] at hfinish
  refine ⟨h.read, ?_⟩
  show d.read + d.rest.length = b.read + b.rest.length
  omega

/-! ## parts in sequence -/

namespace Reader

variable {f : Reader α} {g : α → Reader β} {b d : Cursor} {more : List String}

theorem Local.error_kept (hf : f.Local) {e : ReadError} (h : f (b.extend more) = .error e)
    (hfault : e.fault.OfLine) (hline : e.line ≤ b.finish.read) (more' : List String) :
    f (b.extend more') = .error e := by
  obtain ⟨r, hr⟩ := hf.kept b more (h.symm ▸ ⟨hfault, hline⟩)
  have hre := (hr more).symm.trans h
  rw [hr more']
  cases r with
  | error e' => exact hre
  | ok v => cases hre

theorem Local.ok_kept (hf : f.Local) {a : α} (h : f (b.extend more) = .ok (a, d))
    (hread : d.read < b.finish.read) :
    ∃ d₀ : Cursor, d = d₀.extend more ∧ b.Ahead d₀ ∧
      ∀ more', f (b.extend more') = .ok (a, d₀.extend more') := by
  have hahead := hf.within (b.extend more)
  obtain ⟨r, hr⟩ := hf.kept b more (h.symm ▸ hread)
  have hre := (hr more).symm.trans h
  cases r with
  | error e => cases hre
  | ok v =>
    obtain ⟨a', d₀⟩ := v
    cases hre
    rw [h] at hahead
    exact ⟨d₀, rfl, ahead_of_ahead_extend hahead, hr⟩

/-- what the second part tells is read behind the first part, so the first part is told before -/
theorem Local.andThen (hf : f.Local) (hg : ∀ a, (g a).Local) :
    Reader.Local (f.andThen g) where
  within c := (hf.within c).andThen fun a => (hg a).within
  kept b more htold := by
    cases hc : f (b.extend more) with
    | error e =>
      rw [andThen_of_error hc] at htold
      obtain ⟨hfault, hline⟩ := htold
      exact ⟨.error e, fun more' => andThen_of_error (hf.error_kept hc hfault hline more') g⟩
    | ok v =>
      obtain ⟨a, d⟩ := v
      rw [andThen_of_ok hc] at htold
      have hread := read_lt_of_told ((hg a).within d) htold
      obtain ⟨d₀, rfl, hahead, hfirst⟩ := hf.ok_kept hc hread
      rw [← hahead.finish] at htold
      obtain ⟨r, hr⟩ := (hg a).kept d₀ more htold
      exact ⟨r, fun more' => (andThen_of_ok (hfirst more') g).trans (hr more')⟩

/-- an error of a part, or of what follows it, with the lines of `b` alone to blame -/
theorem Local.andThen_error_kept (hf : f.Local) {h : α → Cursor → Except ReadError β}
    {e : ReadError} (hfault : e.fault.OfLine) (hline : e.line ≤ b.finish.read)
    (hpast : ∀ a d, h a d = .error e → d.read < e.line) {more' : List String}
    (hnext : ∀ a (d : Cursor), b.Ahead d → h a (d.extend more) = .error e →
      h a (d.extend more') = .error e)
    (herror : f.andThen h (b.extend more) = .error e) :
    f.andThen h (b.extend more') = .error e := by
  cases hc : f (b.extend more) with
  | error e' =>
    rw [andThen_of_error hc] at herror
    cases herror
    exact andThen_of_error (hf.error_kept hc hfault hline more') h
  | ok v =>
    obtain ⟨a, d⟩ := v
    rw [andThen_of_ok hc] at herror
    have hread := Nat.lt_of_lt_of_le (hpast a d herror) hline
    obtain ⟨d₀, rfl, hahead, hfirst⟩ := hf.ok_kept hc hread
    rw [andThen_of_ok (hfirst more')]
    exact hnext a d₀ hahead herror

end Reader

end

/-! ## the parts of a preparation -/

theorem local_done {α : Type} (a : α) : (Reader.done a).Local where
  within := done_within a
  kept b _ _ := ⟨.ok (a, b), fun _ => rfl⟩

/-- blank lines that end before the lines of `b` do, end at one of these lines -/
theorem skipBlank_ne_nil {b : Cursor} {more : List String}
    (h : (b.extend more).skipBlank.read < b.finish.read) : b.skipBlank.rest ≠ [] := by
  intro hnil
  have hskip := Cursor.skipBlank_extend b more
  rw [Cursor.extend_of_rest_eq_nil hnil, b.ahead_skipBlank.finish] at hskip
  have hread : b.finish.read ≤ (b.extend more).skipBlank.read := by
    rw [hskip]
    exact (Cursor.ahead_skipBlank ⟨b.finish.read, more⟩).read
  exact absurd h (Nat.not_lt.mpr hread)

theorem local_blanks {α : Type} (a : α) : (Reader.blanks a).Local where
  within := blanks_within a
  kept b more htold := by
    refine ⟨.ok (a, b.skipBlank), fun more' => ?_⟩
    show Except.ok (a, (b.extend more').skipBlank) = _
    rw [Cursor.skipBlank_extend_of_ne (skipBlank_ne_nil htold)]
    rfl

/-- a part that goes through the lines one by one: nothing is told where no line is left -/
theorem exists_extendResult_nil {α : Type} {read : Nat} {more : List String}
    {f : List String → Except ReadError (α × Cursor)} (h : ReadsWithin ⟨read, more⟩ (f more))
    (htold : Told (⟨read, []⟩ : Cursor).finish.read (f more)) :
    ∃ r, ∀ more', f more' = extendResult more' r :=
  absurd (read_lt_of_told h htold) (Nat.lt_irrefl read)

theorem skipTo_kept {heading : Heading} {oven : Option Nat} (read : Nat) (ls : List String)
    {more : List String}
    (htold : Told (⟨read, ls⟩ : Cursor).finish.read (skipTo heading oven read (ls ++ more))) :
    ∃ r, ∀ more', skipTo heading oven read (ls ++ more') = extendResult more' r := by
  induction ls generalizing oven read with
  | nil => exact exists_extendResult_nil (skipTo_within heading oven read more) htold
  | cons l ls ih =>
    simp only [List.cons_append, skipTo] at htold ⊢
    by_cases hl : l = heading.text
    · simp only [if_pos hl]
      exact ⟨.ok (oven, ⟨read + 1, ls⟩), fun _ => rfl⟩
    · simp only [if_neg hl] at htold ⊢
      rw [finish_cons] at htold
      exact ih (read + 1) htold

theorem local_skipTo (heading : Heading) (oven : Option Nat) :
    Reader.Local fun c => skipTo heading oven c.read c.rest where
  within c := skipTo_within heading oven c.read c.rest
  kept b _ htold := skipTo_kept b.read b.rest htold

theorem readIngredients_kept {pantry : Pantry} (read : Nat) (ls : List String)
    {more : List String}
    (htold : Told (⟨read, ls⟩ : Cursor).finish.read (readIngredients pantry read (ls ++ more))) :
    ∃ r, ∀ more', readIngredients pantry read (ls ++ more') = extendResult more' r := by
  induction ls generalizing pantry read with
  | nil => exact exists_extendResult_nil (readIngredients_within pantry read more) htold
  | cons l ls ih =>
    simp only [List.cons_append, readIngredients] at htold ⊢
    by_cases hl : LineKind.ofText l = .text
    · simp only [if_pos hl] at htold ⊢
      cases hi : Ingredient.ofLine l with
      | error fault => exact ⟨.error ⟨read + 1, fault⟩, fun _ => rfl⟩
      | ok i =>
        simp only [hi] at htold
        by_cases hnew : pantry.contains i.name = true
        · simp only [if_pos hnew]
          exact ⟨.error ⟨read + 1, .duplicateIngredient i.name⟩, fun _ => rfl⟩
        · simp only [if_neg hnew] at htold ⊢
          rw [finish_cons] at htold
          exact ih (read + 1) htold
    · simp only [if_neg hl]
      exact ⟨.ok (pantry, ⟨read, l :: ls⟩), fun _ => rfl⟩

theorem local_readIngredients (pantry : Pantry) :
    Reader.Local fun c => readIngredients pantry c.read c.rest where
  within c := readIngredients_within pantry c.read c.rest
  kept b _ htold := readIngredients_kept b.read b.rest htold

theorem told_prepend {last : Nat} {statements : List Statement}
    {r : Except ReadError (List Statement × Cursor)} (h : Told last (prepend statements r)) :
    Told last r := by
  cases r with
  | error e => exact h
  | ok v => exact h

theorem prepend_extendResult (statements : List Statement) (more : List String)
    (r : Except ReadError (List Statement × Cursor)) :
    prepend statements (extendResult more r) = extendResult more (prepend statements r) := by
  cases r <;> rfl

theorem readMethod_kept (read : Nat) (ls : List String) {more : List String}
    (htold : Told (⟨read, ls⟩ : Cursor).finish.read (readMethod read (ls ++ more))) :
    ∃ r, ∀ more', readMethod read (ls ++ more') = extendResult more' r := by
  induction ls generalizing read with
  | nil => exact exists_extendResult_nil (readMethod_within read more) htold
  | cons l ls ih =>
    by_cases hl : endsMethod l = true
    · simp only [List.cons_append, readMethod, if_pos hl]
      exact ⟨.ok ([], ⟨read, l :: ls⟩), fun _ => rfl⟩
    · simp only [List.cons_append, readMethod_cons hl] at htold ⊢
      cases hline : Statement.ofLine l with
      | error fault => exact ⟨.error ⟨read + 1, fault⟩, fun _ => rfl⟩
      | ok statements =>
        simp only [hline] at htold
        rw [finish_cons] at htold
        obtain ⟨r, hr⟩ := ih (read + 1) (told_prepend htold)
        refine ⟨prepend statements r, fun more' => ?_⟩
        show prepend statements (readMethod (read + 1) (ls ++ more')) = _
        rw [hr more', prepend_extendResult]

theorem local_readMethod : Reader.Local fun c => readMethod c.read c.rest where
  within c := readMethod_within c.read c.rest
  kept b _ htold := readMethod_kept b.read b.rest htold

/-- a serving count before the method is looked for on one line, which is there -/
theorem local_readServingsMaybe (wanted : Bool) :
    Reader.Local fun c => .ok (readServingsMaybe wanted c.skipBlank) where
  within c := c.ahead_skipBlank.trans (ahead_readServingsMaybe wanted c.skipBlank)
  kept b more htold := by
    have hread : (b.extend more).skipBlank.read < b.finish.read :=
      Nat.lt_of_le_of_lt (ahead_readServingsMaybe wanted (b.extend more).skipBlank).read htold
    have hne := skipBlank_ne_nil hread
    refine ⟨.ok (readServingsMaybe wanted b.skipBlank), fun more' => ?_⟩
    rw [Cursor.skipBlank_extend_of_ne hne, readServingsMaybe_extend hne]
    rfl

theorem servingsAfter_extend_of_ne {c : Cursor} (hc : c.rest ≠ []) (servings? : Option Nat)
    (more : List String) :
    servingsAfter servings? (c.extend more) = extendResult more (servingsAfter servings? c) := by
  cases servings? with
  | some n => rfl
  | none =>
    unfold servingsAfter readServings
    dsimp only
    rw [Cursor.peek_extend hc, Cursor.advance_extend hc]
    cases servesLine? c.peek.text <;> rfl

/-- a serving count after the method, or the line that stands in its place -/
theorem local_servingsAfter (servings? : Option Nat) :
    Reader.Local fun c => servingsAfter servings? c.skipBlank where
  within := servingsAfter_within servings?
  kept b more htold := by
    have hwithin := servingsAfter_within servings? (b.extend more).skipBlank
    rw [Cursor.skipBlank_skipBlank] at hwithin
    have hne := skipBlank_ne_nil (read_lt_of_told hwithin htold)
    refine ⟨servingsAfter servings? b.skipBlank, fun more' => ?_⟩
    rw [Cursor.skipBlank_extend_of_ne hne, servingsAfter_extend_of_ne hne]

/-! ## preparations -/

theorem local_readPreparation (title : String) (wanted : Bool) :
    Reader.Local (readPreparation title wanted) := by
  rw [readPreparation_eq]
  refine (local_skipTo _ _).andThen fun _ => ?_
  refine (local_readIngredients _).andThen fun _ => ?_
  refine (local_readServingsMaybe wanted).andThen fun _ => ?_
  refine (local_skipTo _ _).andThen fun _ => ?_
  exact local_readMethod.andThen fun _ => local_done _

/-- an auxiliary preparation and the blank lines after it, and then the others -/
theorem readAuxiliaries_cons_blanks (taken : List String) (read : Nat) (title : String)
    (ls : List String) :
    readAuxiliaries taken ⟨read, title :: ls⟩ =
      Reader.andThen (Reader.andThen (readPreparation title false) Reader.blanks) (fun p d =>
        if taken.contains title then .error ⟨read + 1, .duplicateRecipe title⟩
        else (readAuxiliaries (title :: taken) d).map (p.1 :: ·)) ⟨read + 1, ls⟩ := by
  rw [readAuxiliaries_cons]
  unfold Reader.andThen Reader.blanks
  cases readPreparation title false ⟨read + 1, ls⟩ with
  | error e => rfl
  | ok v =>
    dsimp only
    cases readAuxiliaries (title :: taken) v.2.skipBlank <;> rfl

/-- the error of an auxiliary preparation; by induction on the number of lines, which get fewer with
every preparation -/
theorem readAuxiliaries_kept {taken : List String} {b : Cursor} {more more' : List String}
    {e : ReadError} (hfault : e.fault.OfLine) (hline : e.line ≤ b.finish.read)
    (h : readAuxiliaries taken (b.extend more) = .error e) :
    readAuxiliaries taken (b.extend more') = .error e := by
  generalize hlen : b.rest.length = len
  induction len using Nat.strongRecOn generalizing taken b with
  | ind len ih =>
    have hread : b.read < e.line := (fails_of_readAuxiliaries h).read_lt hfault
    obtain ⟨read, ls⟩ := b
    cases ls with
    | nil => exact absurd hread (Nat.not_lt.mpr hline)
    | cons title ls =>
      have hfirst := (local_readPreparation title false).andThen local_blanks
      rw [finish_cons] at hline
      rw [Cursor.extend_cons, readAuxiliaries_cons_blanks] at h ⊢
      -- a title that is taken is not the fault of a line
      have hothers : ∀ {p : Preparation × Option Nat} {d : Cursor},
          (if taken.contains title then Except.error ⟨read + 1, .duplicateRecipe title⟩
            else (readAuxiliaries (title :: taken) d).map (p.1 :: ·)) = .error e →
          ¬ taken.contains title = true ∧ readAuxiliaries (title :: taken) d = .error e := by
        intro p d hd
        split at hd
        · cases hd
          exact hfault.elim
        · rename_i hnew
          exact ⟨hnew, eq_error_of_map hd⟩
      refine hfirst.andThen_error_kept hfault hline (fun p d hd => ?_) (fun p d hahead hd => ?_) h
      · exact (fails_of_readAuxiliaries (hothers hd).2).read_lt hfault
      · obtain ⟨hnew, haux⟩ := hothers hd
        have hshort : d.rest.length < len := by
          have hle := hahead.read
          have hfinish : d.read + d.rest.length = read + 1 + ls.length := hahead.finish
          have hlen' : ls.length + 1 = len := hlen
          dsimp only at hle
          omega
        rw [← hahead.finish] at hline
        rw [if_neg hnew, ih _ hshort hline haux rfl]
        rfl

/-! ## whole texts -/

theorem local_mainPart (title : String) : Reader.Local (mainPart title) :=
  (local_readPreparation title true).andThen fun main =>
    (local_servingsAfter main.2).andThen fun _ => local_blanks _

/-- the same title and the same lines up to the fault -/
theorem document_error_kept {s t title : String} {shared more more' : List String} {e : ReadError}
    (hs : textLines s = title :: (shared ++ more)) (ht : textLines t = title :: (shared ++ more'))
    (hfault : e.fault.OfLine) (hline : e.line ≤ (⟨1, shared⟩ : Cursor).finish.read)
    (h : Document.parse s = .error e) : Document.parse t = .error e := by
  rw [parse_eq_mainPart hs] at h
  rw [parse_eq_mainPart ht]
  refine (local_mainPart title).andThen_error_kept hfault hline (fun main d hd => ?_)
    (fun main d hahead hd => ?_) h
  · exact (fails_of_readAuxiliaries (eq_error_of_map hd)).read_lt hfault
  · rw [← hahead.finish] at hline
    rw [readAuxiliaries_kept hfault hline (eq_error_of_map hd)]
    rfl

/-- the lines of a text that start like those of another one, cut at that place -/
theorem eq_cons_append_drop {title : String} {ls ks : List String} {n : Nat}
    (h : ks.take (n + 1) = (title :: ls).take (n + 1)) :
    ks = title :: (ls.take n ++ ks.drop (n + 1)) := by
  rw [List.take_succ_cons] at h
  rw [← List.cons_append, ← h, List.take_append_drop]

/-- an error that a line raises is raised in every text with the same lines up to that one.  Any other
error is of a title that is taken, or of the end of the text, and then names its last line. -/
theorem parse_error_of_same_start {s : String} {e : ReadError} (h : Recipe.parse s = .error e) :
    (e.fault.OfLine → (1 ≤ e.line ∧ e.line ≤ (documentLines s).length) ∧
      ∀ t, (documentLines t).take e.line = (documentLines s).take e.line →
        Recipe.parse t = .error e) ∧
    (e.fault.OfLine ∨ (∃ title, e.fault = .duplicateRecipe title) ∨
      e.line = (documentLines s).length) := by
  have hdocument : Document.parse s = .error e := eq_error_of_map h
  simp only [← textLines_eq]
  cases hls : textLines s with
  | nil =>
    unfold Document.parse at hdocument
    rw [hls] at hdocument
    cases hdocument
    exact ⟨False.elim, .inr (.inr rfl)⟩
  | cons title ls =>
    have hfails := fails_of_parse_error hls hdocument
    have hfinish : (⟨1, ls⟩ : Cursor).finish.read = (title :: ls).length := Nat.add_comm 1 ls.length
    refine ⟨fun hfault => ?_, ?_⟩
    · have hfirst : 1 < e.line := hfails.read_lt hfault
      have hlast : e.line ≤ (title :: ls).length := hfinish ▸ hfails.covers.2
      refine ⟨⟨Nat.le_of_lt hfirst, hlast⟩, fun t ht => ?_⟩
      obtain ⟨n, hn⟩ : ∃ n, e.line = n + 1 := ⟨e.line - 1, by omega⟩
      rw [hn] at ht
      have hs : textLines s = title :: (ls.take n ++ ls.drop n) := by
        rw [hls, List.take_append_drop]
      have hshared : e.line ≤ (⟨1, ls.take n⟩ : Cursor).finish.read := by
        show e.line ≤ 1 + (ls.take n).length
        rw [List.length_cons] at hlast
        rw [List.length_take]
        omega
      unfold Recipe.parse
      rw [document_error_kept hs (eq_cons_append_drop ht) hfault hshared hdocument]
      rfl
    · rw [← hfinish]
      exact hfails.cause

/-- the sentence on the fifth line is at fault, whatever is written after it -/
theorem parse_error_of_same_start_stew :
    Recipe.parse "Stew\nIngredients.\n2 g salt\nMethod.\nSimmer gently.\n\nServes 1.\n" =
      .error ⟨5, .unknownStatement "Simmer" "gently"⟩ ∧
    Recipe.parse "Stew\r\nIngredients.\n2 g salt\nMethod.\nSimmer gently.\nServe it\n\nhot" =
      .error ⟨5, .unknownStatement "Simmer" "gently"⟩ := by
  have h : Recipe.parse "Stew\nIngredients.\n2 g salt\nMethod.\nSimmer gently.\n\nServes 1.\n" =
      .error ⟨5, .unknownStatement "Simmer" "gently"⟩ := by
    rfl
  exact ⟨h, ((parse_error_of_same_start h).1 trivial).2 _ (by decide)⟩

end Cookery
