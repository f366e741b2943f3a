import Cookery.Proofs.Reading.Acceptance
import Cookery.Proofs.Statement.Wording

/-!
# The lines that a reading error names

The readers count the lines as they go, and at the end of the text an error has only this count to
name.  Each reader is shown to move on in the text it was given, or to fail on a line that is not
before the last one read and not after the last one there is.  An error is raised by a line that
comes, by a title that is taken, or by the end of the text.

* `Cursor.Ahead`, `Cursor.Covers`   a place further on, and the lines from a place to the end;
* `ReadFault.OfLine`         the faults of a line that is there;
* `Cursor.FailsWith`         how reading fails from a place on;
* `Reader`, `Reader.andThen`   parts of a text read one after the other;
* `ReadsWithin`              what a reader does from a place, with one lemma for each reader;
* `readPreparation_eq`, `parse_eq_mainPart`   preparations and documents are parts in sequence;
* `fails_of_readAuxiliaries`   the same for the preparations after the main one;
* `fails_of_parse_error`, `line_of_parse_error`   the line of an error, for whole texts.
-/

namespace Cookery

/-! ## places in a text -/

/-- `d` is a place in the text of `c`, and not before `c` -/
structure Cursor.Ahead (c d : Cursor) : Prop where
  read : c.read ≤ d.read
  finish : d.finish.read = c.finish.read

/-- the number of the line read last, or of one after it -/
def Cursor.Covers (c : Cursor) (line : Nat) : Prop := c.read ≤ line ∧ line ≤ c.finish.read

namespace Cursor

variable {c d : Cursor}

theorem Ahead.refl (c : Cursor) : c.Ahead c := ⟨Nat.le_refl _, rfl⟩

theorem Ahead.trans {d' : Cursor} (h : c.Ahead d) (h' : d.Ahead d') : c.Ahead d' :=
  ⟨Nat.le_trans h.read h'.read, h'.finish.trans h.finish⟩

theorem Ahead.covers (h : c.Ahead d) {line : Nat} (hline : d.Covers line) : c.Covers line := by
  obtain ⟨hread, hfinish⟩ := hline
  rw [h.finish] at hfinish
  exact ⟨Nat.le_trans h.read hread, hfinish⟩

theorem ahead_cons (read : Nat) (l : String) (ls : List String) :
    (⟨read, l :: ls⟩ : Cursor).Ahead ⟨read + 1, ls⟩ := by
  refine ⟨Nat.le_succ read, ?_⟩
  show read + 1 + ls.length = read + (ls.length + 1)
  omega

theorem covers_cons (read : Nat) (l : String) (ls : List String) :
    (⟨read, l :: ls⟩ : Cursor).Covers (read + 1) := by
  refine ⟨Nat.le_succ read, ?_⟩
  show read + 1 ≤ read + (ls.length + 1)
  omega

theorem covers_read (c : Cursor) : c.Covers c.read := ⟨Nat.le_refl _, Nat.le_add_right _ _⟩

theorem ahead_advance (c : Cursor) : c.Ahead c.advance := by
  obtain ⟨read, ls⟩ := c
  cases ls with
  | nil => exact .refl _
  | cons l ls => exact ahead_cons read l ls

theorem ahead_skipWhile (p : String → Bool) (read : Nat) (ls : List String) :
    (⟨read, ls⟩ : Cursor).Ahead (skipWhile p read ls) := by
  induction ls generalizing read with
  | nil => exact .refl _
  | cons l ls ih =>
    rw [skipWhile]
    split
    · exact (ahead_cons read l ls).trans (ih (read + 1))
    · exact .refl _

theorem ahead_skipBlank (c : Cursor) : c.Ahead c.skipBlank := ahead_skipWhile _ c.read c.rest

end Cursor

/-! ## faults -/

/-- the faults of a line that is there: of an ingredient, of a statement, and of a line in the place
of the serving count.  A line in that place is not blank, so no text stands for the end. -/
def ReadFault.OfLine : ReadFault → Prop
  | .invalidIngredient _ => True
  | .quantityOutOfRange _ => True
  | .unknownMeasure _ => True
  | .duplicateIngredient _ => True
  | .unknownLine line => line ≠ ""
  | .badStatement _ _ _ => True
  | .ordinalZero => True
  | .unknownStatement _ _ => True
  | .emptyRecipe => False
  | .missingHeading _ => False
  | .duplicateRecipe _ => False
  | .worded _ => False

theorem ofLine_of_value {parts : IngredientLine} {fault : ReadFault}
    (h : parts.value = .error fault) : fault.OfLine := by
  unfold IngredientLine.value at h
  split at h
  · cases h
  · split at h
    · cases h
    · cases h
      trivial

theorem ofLine_of_kind {parts : IngredientLine} {fault : ReadFault}
    (h : parts.kind = .error fault) : fault.OfLine := by
  unfold IngredientLine.kind IngredientLine.measuredKind at h
  split at h
  · cases h
  · split at h
    · cases h
    · cases h
      trivial

theorem ofLine_of_ingredient {line : String} {fault : ReadFault}
    (h : Ingredient.ofLine line = .error fault) : fault.OfLine := by
  unfold Ingredient.ofLine at h
  dsimp only at h
  split at h
  · cases h
    trivial
  · cases hvalue : (IngredientLine.ofText line.toList).value with
    | error e =>
      rw [hvalue] at h
      cases h
      exact ofLine_of_value hvalue
    | ok value =>
      rw [hvalue] at h
      cases hkind : (IngredientLine.ofText line.toList).kind with
      | error e =>
        rw [hkind] at h
        cases h
        exact ofLine_of_kind hkind
      | ok kind =>
        rw [hkind] at h
        cases h

/-- a sentence names a 0th container, or is of no form of its verb -/
theorem ofLine_of_sentence {sentence : List Char} {fault : ReadFault}
    (h : Statement.ofSentence sentence = .error fault) : fault.OfLine := by
  unfold Statement.ofSentence at h
  rcases exists_wording _ _ with ⟨w, hw, htext⟩ | hform
  · rw [Wording.decode_text hw htext] at h
    cases hmeant : w.meaning? _ with
    | none =>
      rw [hmeant] at h
      cases h
      trivial
    | some st =>
      rw [hmeant] at h
      cases h
  · rw [hform] at h
    cases h
    unfold formFault
    split <;> trivial

theorem ofLine_of_methodLine {line : String} {fault : ReadFault}
    (h : Statement.ofLine line = .error fault) : fault.OfLine := by
  obtain ⟨sentence, -, hfault⟩ := exists_of_mapM_eq_error h
  exact ofLine_of_sentence hfault

/-- an error behind a place: raised by a line that comes, by a title that is taken, or by the end of
the text -/
structure Cursor.FailsWith (c : Cursor) (e : ReadError) : Prop where
  covers : c.Covers e.line
  read_lt : e.fault.OfLine → c.read < e.line
  cause : e.fault.OfLine ∨ (∃ title, e.fault = .duplicateRecipe title) ∨ e.line = c.finish.read

theorem Cursor.Ahead.failsWith {c d : Cursor} (h : c.Ahead d) {e : ReadError}
    (hfails : d.FailsWith e) : c.FailsWith e where
  covers := h.covers hfails.covers
  read_lt hfault := Nat.lt_of_le_of_lt h.read (hfails.read_lt hfault)
  cause := hfails.cause.imp_right (Or.imp_right (Eq.trans · h.finish))

/-- the next line is at fault -/
theorem failsWith_cons {fault : ReadFault} (h : fault.OfLine) (read : Nat) (l : String)
    (ls : List String) : (⟨read, l :: ls⟩ : Cursor).FailsWith ⟨read + 1, fault⟩ where
  covers := Cursor.covers_cons read l ls
  read_lt _ := Nat.lt_succ_self read
  cause := .inl h

/-- the text has come to its end -/
theorem failsWith_nil {fault : ReadFault} (h : ¬ fault.OfLine) (read : Nat) :
    (⟨read, []⟩ : Cursor).FailsWith ⟨read, fault⟩ where
  covers := Cursor.covers_read _
  read_lt hfault := absurd hfault h
  cause := .inr (.inr rfl)

/-! ## readers -/

/-- from a place in a text, what is read and the place behind it, or an error -/
abbrev Reader (α : Type) : Type := Cursor → Except ReadError (α × Cursor)

section
variable {α β : Type}

/-- one part, and then what follows from where it ends -/
def Reader.andThen (f : Reader α) (g : α → Cursor → Except ReadError β) (c : Cursor) :
    Except ReadError β :=
  match f c with
  | .error e => .error e
  | .ok (a, d) => g a d

/-- nothing more is read -/
def Reader.done (a : α) : Reader α := fun c => .ok (a, c)

/-- blank lines are passed over -/
def Reader.blanks (a : α) : Reader α := fun c => .ok (a, c.skipBlank)

theorem Reader.andThen_of_ok {f : Reader α} {c d : Cursor} {a : α} (h : f c = .ok (a, d))
    (g : α → Cursor → Except ReadError β) : f.andThen g c = g a d := by
  unfold andThen
  rw [h]

theorem Reader.andThen_of_error {f : Reader α} {c : Cursor} {e : ReadError} (h : f c = .error e)
    (g : α → Cursor → Except ReadError β) : f.andThen g c = .error e := by
  unfold andThen
  rw [h]

/-- from `c` the reader came to a place further on, or it failed on a line from `c` on -/
def ReadsWithin (c : Cursor) : Except ReadError (α × Cursor) → Prop
  | .error e => c.FailsWith e
  | .ok (_, d) => c.Ahead d

theorem ReadsWithin.of_ahead {c d : Cursor} {r : Except ReadError (α × Cursor)}
    (h : ReadsWithin d r) (hahead : c.Ahead d) : ReadsWithin c r := by
  cases r with
  | error e => exact hahead.failsWith h
  | ok v => exact hahead.trans h

/-- the second part is read from where the first one ended, so what it covers `c` covers too -/
theorem ReadsWithin.andThen {f : Reader α} {g : α → Reader β} {c : Cursor}
    (hf : ReadsWithin c (f c)) (hg : ∀ a d, ReadsWithin d (g a d)) :
    ReadsWithin c (f.andThen g c) := by
  cases hc : f c with
  | error e =>
    rw [Reader.andThen_of_error hc]
    rw [hc] at hf
    exact hf
  | ok v =>
    rw [Reader.andThen_of_ok hc]
    rw [hc] at hf
    exact (hg v.1 v.2).of_ahead hf

theorem done_within (a : α) (c : Cursor) : ReadsWithin c (Reader.done a c) := Cursor.Ahead.refl c

theorem blanks_within (a : α) (c : Cursor) : ReadsWithin c (Reader.blanks a c) := c.ahead_skipBlank

end

/-! ## the parts of a preparation -/

theorem skipTo_within (heading : Heading) (oven : Option Nat) (read : Nat) (ls : List String) :
    ReadsWithin ⟨read, ls⟩ (skipTo heading oven read ls) := by
  induction ls generalizing oven read with
  | nil => exact failsWith_nil id read
  | cons l ls ih =>
    have hnext := Cursor.ahead_cons read l ls
    rw [skipTo]
    split
    · exact hnext
    · exact (ih _ (read + 1)).of_ahead hnext

theorem readIngredients_within (pantry : Pantry) (read : Nat) (ls : List String) :
    ReadsWithin ⟨read, ls⟩ (readIngredients pantry read ls) := by
  induction ls generalizing pantry read with
  | nil => exact Cursor.Ahead.refl _
  | cons l ls ih =>
    rw [readIngredients]
    split
    · split
      · rename_i fault hfault
        exact failsWith_cons (ofLine_of_ingredient hfault) read l ls
      · rename_i i _
        split
        · have hfault : (ReadFault.duplicateIngredient i.name).OfLine := trivial
          exact failsWith_cons hfault read l ls
        · exact (ih _ (read + 1)).of_ahead (Cursor.ahead_cons read l ls)
    · exact Cursor.Ahead.refl _

/-- statements in front of those that were read -/
def prepend (statements : List Statement) :
    Except ReadError (List Statement × Cursor) → Except ReadError (List Statement × Cursor)
  | .error e => .error e
  | .ok (more, c) => .ok (statements ++ more, c)

theorem readMethod_cons {l : String} (hl : ¬ endsMethod l = true) (read : Nat) (ls : List String) :
    readMethod read (l :: ls) =
      match Statement.ofLine l with
      | .error fault => .error ⟨read + 1, fault⟩
      | .ok statements => prepend statements (readMethod (read + 1) ls) := by
  rw [readMethod, if_neg hl]
  cases Statement.ofLine l with
  | error fault => rfl
  | ok statements =>
    dsimp only
    cases readMethod (read + 1) ls <;> rfl

theorem ReadsWithin.prepend {c : Cursor} {r : Except ReadError (List Statement × Cursor)}
    (h : ReadsWithin c r) (statements : List Statement) :
    ReadsWithin c (prepend statements r) := by
  cases r with
  | error e => exact h
  | ok v => exact h

theorem readMethod_within (read : Nat) (ls : List String) :
    ReadsWithin ⟨read, ls⟩ (readMethod read ls) := by
  induction ls generalizing read with
  | nil => exact Cursor.Ahead.refl _
  | cons l ls ih =>
    by_cases hl : endsMethod l = true
    · rw [readMethod, if_pos hl]
      exact Cursor.Ahead.refl _
    · rw [readMethod_cons hl]
      cases hline : Statement.ofLine l with
      | error fault => exact failsWith_cons (ofLine_of_methodLine hline) read l ls
      | ok statements =>
        have hmore := (ih (read + 1)).of_ahead (Cursor.ahead_cons read l ls)
        exact hmore.prepend statements

/-- blank lines are passed over first, so a line that is no serving count has a text -/
theorem servingsAfter_within (servings? : Option Nat) (c : Cursor) :
    ReadsWithin c (servingsAfter servings? c.skipBlank) := by
  refine ReadsWithin.of_ahead ?_ c.ahead_skipBlank
  obtain ⟨_, _, _, hfirst⟩ := skipBlank_eq_ok c
  generalize c.skipBlank = d at hfirst
  cases servings? with
  | some n => exact Cursor.Ahead.refl d
  | none =>
    unfold servingsAfter readServings
    dsimp only
    split
    · exact d.ahead_advance
    · obtain ⟨read, ls⟩ := d
      cases ls with
      | nil =>
        have hend : ¬ (ReadFault.unknownLine "").OfLine := fun hne => hne rfl
        exact failsWith_nil hend read
      | cons l ls =>
        have hfault : (ReadFault.unknownLine l).OfLine := fun he =>
          hfirst l rfl (he ▸ isBlankLine_empty)
        exact failsWith_cons hfault read l ls

theorem ahead_readServingsMaybe (wanted : Bool) (c : Cursor) :
    c.Ahead (readServingsMaybe wanted c).2 := by
  unfold readServingsMaybe
  split
  · split
    · exact c.ahead_advance
    · exact .refl c
  · exact .refl c

/-! ## preparations -/

/-- a preparation is read in five parts -/
theorem readPreparation_eq (title : String) (wanted : Bool) :
    readPreparation title wanted =
      Reader.andThen (fun c => skipTo .ingredients none c.read c.rest) fun _ =>
      Reader.andThen (fun c => readIngredients .empty c.read c.rest) fun ingredients =>
      Reader.andThen (fun c => .ok (readServingsMaybe wanted c.skipBlank)) fun servings? =>
      Reader.andThen (fun c => skipTo .method none c.read c.rest) fun oven =>
      Reader.andThen (fun c => readMethod c.read c.rest) fun method =>
      Reader.done ({ title, ingredients, method, oven }, servings?) := by
  funext c
  unfold readPreparation Reader.andThen Reader.done
  dsimp only
  cases skipTo .ingredients none c.read c.rest with
  | error e => rfl
  | ok lead =>
    dsimp only
    cases readIngredients .empty lead.2.read lead.2.rest with
    | error e => rfl
    | ok items =>
      dsimp only
      cases skipTo .method none (readServingsMaybe wanted items.2.skipBlank).2.read
          (readServingsMaybe wanted items.2.skipBlank).2.rest with
      | error e => rfl
      | ok between =>
        dsimp only
        cases readMethod between.2.read between.2.rest <;> rfl

theorem readPreparation_within (title : String) (wanted : Bool) (c : Cursor) :
    ReadsWithin c (readPreparation title wanted c) := by
  rw [readPreparation_eq]
  refine (skipTo_within .ingredients none c.read c.rest).andThen fun _ c => ?_
  refine (readIngredients_within .empty c.read c.rest).andThen fun _ c => ?_
  have hcount := c.ahead_skipBlank.trans (ahead_readServingsMaybe wanted c.skipBlank)
  refine ReadsWithin.andThen hcount fun _ c => ?_
  refine (skipTo_within .method none c.read c.rest).andThen fun _ c => ?_
  exact (readMethod_within c.read c.rest).andThen fun _ => done_within _

/-- by induction on the number of lines, which get fewer with every preparation -/
theorem fails_of_readAuxiliaries {taken : List String} {c : Cursor} {e : ReadError}
    (h : readAuxiliaries taken c = .error e) : c.FailsWith e := by
  generalize hlen : c.rest.length = len
  induction len using Nat.strongRecOn generalizing taken c with
  | ind len ih =>
    obtain ⟨read, ls⟩ := c
    cases ls with
    | nil =>
      rw [readAuxiliaries_nil] at h
      cases h
    | cons title ls =>
      have hnext := Cursor.ahead_cons read title ls
      have hfirst := readPreparation_within title false ⟨read + 1, ls⟩
      rw [readAuxiliaries_cons] at h
      cases hread : readPreparation title false ⟨read + 1, ls⟩ with
      | error e' =>
        rw [hread] at h hfirst
        cases h
        exact hnext.failsWith hfirst
      | ok v =>
        obtain ⟨p, d⟩ := v
        rw [hread] at h hfirst
        dsimp only at h
        split at h
        · cases h
          exact ⟨Cursor.covers_cons read title ls, False.elim, .inr (.inl ⟨title, rfl⟩)⟩
        · split at h
          · rename_i e' hothers
            cases h
            have hsuffix := d.skipBlank_rest_suffix.trans (readPreparation_suffix hread)
            have hshort : d.skipBlank.rest.length < len := by
              have hle : d.skipBlank.rest.length ≤ ls.length := hsuffix.length_le
              rw [← hlen]
              exact Nat.lt_succ_of_le hle
            have hfails := ih _ hshort hothers rfl
            exact (hnext.trans (Cursor.Ahead.trans hfirst d.ahead_skipBlank)).failsWith hfails
          · cases h

/-! ## whole texts -/

/-- the main preparation and the serving count, up to the first auxiliary preparation -/
def mainPart (title : String) : Reader (Preparation × Nat) :=
  Reader.andThen (readPreparation title true) fun main =>
  Reader.andThen (fun c => servingsAfter main.2 c.skipBlank) fun servings =>
  Reader.blanks (main.1, servings)

theorem mainPart_within (title : String) (c : Cursor) : ReadsWithin c (mainPart title c) :=
  (readPreparation_within title true c).andThen fun main c =>
    (servingsAfter_within main.2 c).andThen fun _ => blanks_within _

/-- a document is its main part and the auxiliary preparations -/
theorem parse_eq_mainPart {source title : String} {ls : List String}
    (hls : textLines source = title :: ls) :
    Document.parse source =
      (mainPart title).andThen (fun main c => (readAuxiliaries [mainKey] c).map fun auxiliaries =>
        { servings := main.2, main := main.1, auxiliaries }) ⟨1, ls⟩ := by
  unfold Document.parse mainPart Reader.andThen Reader.blanks
  rw [hls]
  dsimp only
  cases readPreparation title true ⟨1, ls⟩ with
  | error e => rfl
  | ok v =>
    obtain ⟨⟨main, servings?⟩, c⟩ := v
    dsimp only
    cases servingsAfter servings? c.skipBlank with
    | error e => rfl
    | ok w =>
      dsimp only
      cases readAuxiliaries [mainKey] w.2.skipBlank <;> rfl

theorem fails_of_parse_error {source title : String} {ls : List String} {e : ReadError}
    (hls : textLines source = title :: ls) (h : Document.parse source = .error e) :
    (⟨1, ls⟩ : Cursor).FailsWith e := by
  have hmain := mainPart_within title ⟨1, ls⟩
  rw [parse_eq_mainPart hls] at h
  cases hpart : mainPart title ⟨1, ls⟩ with
  | error e' =>
    rw [Reader.andThen_of_error hpart] at h
    rw [hpart] at hmain
    cases h
    exact hmain
  | ok v =>
    rw [Reader.andThen_of_ok hpart] at h
    rw [hpart] at hmain
    exact Cursor.Ahead.failsWith hmain (fails_of_readAuxiliaries (eq_error_of_map h))

/-- the line of an error is one of the text, and 0 only where the text has none -/
theorem line_of_parse_error {source : String} {e : ReadError}
    (h : Document.parse source = .error e) :
    e.line ≤ (textLines source).length ∧ (e.line = 0 ↔ source = "") := by
  have hempty := textLines_eq_nil_iff source
  cases hls : textLines source with
  | nil =>
    unfold Document.parse at h
    rw [hls] at h
    cases h
    exact ⟨Nat.le_refl 0, fun _ => hempty.mp hls, fun _ => rfl⟩
  | cons title ls =>
    -- the title has been read as line 1, and no line before it can be named
    obtain ⟨hfirst, hlast⟩ := (fails_of_parse_error hls h).covers
    replace hfirst : 1 ≤ e.line := hfirst
    replace hlast : e.line ≤ 1 + ls.length := hlast
    rw [List.length_cons]
    refine ⟨by omega, fun hzero => by omega, fun hs => ?_⟩
    rw [hempty.mpr hs] at hls
    cases hls

end Cookery
