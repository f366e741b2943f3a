import Cookery.Cooking.Run
import Cookery.Proofs.Reading.ErrorLines

/-!
# Reading on after the end of a recipe

A text that was read is continued: a blank line, and then any text at all.  Every reader that came
to an end in the first text comes to the same end in the longer one, with more lines left.  So the
longer text is read like the first one up to the blank line, and what is read after it, or what is
wrong there, is after the last line of the first text.

* `Cursor.extend`            the same place in a text that goes on;
* `skipTo_extend`, `readIngredients_extend`, `readMethod_extend`, `readPreparation_extend`   each
                             reader reads the same;
* `readAuxiliaries_extend`   and after the auxiliary preparations it reads those that follow;
* `parse_extend`             whole documents;
* `Recipe.KeptIn`, `recipe_parse_append`   recipes, and what cooking them gives.
-/

namespace Cookery

/-! ## cursors in a text that goes on -/

/-- the same place, with more lines after the last one -/
def Cursor.extend (c : Cursor) (more : List String) : Cursor := ⟨c.read, c.rest ++ more⟩

namespace Cursor

variable {c : Cursor} {more : List String}

theorem extend_read (c : Cursor) (more : List String) : (c.extend more).read = c.read := rfl
theorem extend_rest (c : Cursor) (more : List String) :
    (c.extend more).rest = c.rest ++ more := rfl

theorem extend_cons (read : Nat) (l : String) (ls more : List String) :
    (⟨read, l :: ls⟩ : Cursor).extend more = ⟨read, l :: (ls ++ more)⟩ := rfl

theorem peek_extend (h : c.rest ≠ []) : (c.extend more).peek = c.peek := by
  obtain ⟨read, ls⟩ := c
  cases ls with
  | nil => exact absurd rfl h
  | cons l ls => rfl

theorem advance_extend (h : c.rest ≠ []) : (c.extend more).advance = c.advance.extend more := by
  obtain ⟨read, ls⟩ := c
  cases ls with
  | nil => exact absurd rfl h
  | cons l ls => rfl

/-- blank lines that were passed before the text went on are passed again -/
theorem skipBlank_extend (c : Cursor) (more : List String) :
    (c.extend more).skipBlank = (c.skipBlank.extend more).skipBlank := by
  obtain ⟨read, ls⟩ := c
  induction ls generalizing read with
  | nil => rfl
  | cons l ls ih =>
    unfold skipBlank at ih ⊢
    show skipWhile _ read (l :: (ls ++ more)) = _
    rw [skipWhile, skipWhile]
    by_cases hl : decide (LineKind.ofText l = .blank) = true
    · rw [if_pos hl, if_pos hl]
      exact ih (read + 1)
    · rw [if_neg hl, if_neg hl]
      show _ = skipWhile _ read (l :: (ls ++ more))
      rw [skipWhile, if_neg hl]

theorem skipBlank_extend_of_ne (h : c.skipBlank.rest ≠ []) :
    (c.extend more).skipBlank = c.skipBlank.extend more := by
  obtain ⟨_, _, _, hfirst⟩ := skipBlank_eq_ok c
  rw [skipBlank_extend]
  apply skipBlank_of_not_blank
  cases hrest : c.skipBlank.rest with
  | nil => exact absurd hrest h
  | cons l ls =>
    rw [hrest] at hfirst
    exact hfirst

theorem skipBlank_skipBlank (c : Cursor) : c.skipBlank.skipBlank = c.skipBlank := by
  obtain ⟨_, _, _, hfirst⟩ := skipBlank_eq_ok c
  exact skipBlank_of_not_blank hfirst c.skipBlank.read

/-- a place at the end of a text is where the lines after it begin -/
theorem extend_of_rest_eq_nil (h : c.rest = []) : c.extend more = ⟨c.finish.read, more⟩ := by
  obtain ⟨read, ls⟩ := c
  obtain rfl : ls = [] := h
  rfl

end Cursor

/-! ## the parts of a preparation -/

section
variable {more : List String}

theorem skipTo_extend {heading : Heading} {oven o : Option Nat} {read : Nat} {ls : List String}
    {c : Cursor} (h : skipTo heading oven read ls = .ok (o, c)) :
    skipTo heading oven read (ls ++ more) = .ok (o, c.extend more) := by
  induction ls generalizing oven read with
  | nil => cases h
  | cons l ls ih =>
    rw [skipTo] at h
    rw [List.cons_append, skipTo]
    by_cases hl : l = heading.text
    · rw [if_pos hl] at h ⊢
      cases h
      rfl
    · rw [if_neg hl] at h ⊢
      exact ih h

theorem readIngredients_extend (hmore : ∀ l ∈ more.head?, ¬ IsTextLine l) {pantry p : Pantry}
    {read : Nat} {ls : List String} {c : Cursor}
    (h : readIngredients pantry read ls = .ok (p, c)) :
    readIngredients pantry read (ls ++ more) = .ok (p, c.extend more) := by
  induction ls generalizing pantry read with
  | nil =>
    cases h
    exact @readIngredients_append [] more [] (List.forall_mem_nil _) rfl List.nodup_nil hmore p
      (List.forall_mem_nil _) read
  | cons l ls ih =>
    rw [readIngredients] at h
    rw [List.cons_append, readIngredients]
    by_cases hl : LineKind.ofText l = .text
    · rw [if_pos hl] at h ⊢
      cases hi : Ingredient.ofLine l with
      | error fault =>
        rw [hi] at h
        cases h
      | ok i =>
        rw [hi] at h
        dsimp only at h ⊢
        split at h
        · cases h
        · rename_i hnew
          rw [if_neg hnew]
          exact ih h
    · rw [if_neg hl] at h ⊢
      cases h
      rfl

theorem readMethod_extend (hmore : ∀ l ∈ more.head?, EndsMethod l) {read : Nat} {ls : List String}
    {method : List Statement} {c : Cursor} (h : readMethod read ls = .ok (method, c)) :
    readMethod read (ls ++ more) = .ok (method, c.extend more) := by
  induction ls generalizing read method with
  | nil =>
    cases h
    exact @readMethod_append [] more [] ⟨List.forall_mem_nil _, rfl⟩ hmore read
  | cons l ls ih =>
    rw [readMethod] at h
    rw [List.cons_append, readMethod]
    by_cases hl : endsMethod l = true
    · rw [if_pos hl] at h ⊢
      cases h
      rfl
    · rw [if_neg hl] at h ⊢
      cases hline : Statement.ofLine l with
      | error fault =>
        rw [hline] at h
        cases h
      | ok statements =>
        rw [hline] at h
        dsimp only at h ⊢
        cases hrest : readMethod (read + 1) ls with
        | error e =>
          rw [hrest] at h
          cases h
        | ok v =>
          rw [hrest] at h
          cases h
          rw [ih hrest]

theorem readServingsMaybe_extend {c : Cursor} (hc : c.rest ≠ []) (wanted : Bool) :
    readServingsMaybe wanted (c.extend more) =
      ((readServingsMaybe wanted c).1, (readServingsMaybe wanted c).2.extend more) := by
  unfold readServingsMaybe
  rw [Cursor.peek_extend hc, Cursor.advance_extend hc]
  cases wanted with
  | false => rfl
  | true => cases servesLine? c.peek.text <;> rfl

theorem rest_ne_nil_of_readServings {c d : Cursor} {n : Nat} (h : readServings c = .ok (n, d)) :
    c.rest ≠ [] := by
  intro hnil
  obtain ⟨count, hcount, hlate⟩ := @lateCount_of_servingsAfter none c d n h
  cases hlate
  rw [hnil] at hcount
  cases hcount

theorem readServings_extend {c d : Cursor} {n : Nat} (h : readServings c = .ok (n, d)) :
    readServings (c.extend more) = .ok (n, d.extend more) := by
  have hc := rest_ne_nil_of_readServings h
  unfold readServings at h ⊢
  rw [Cursor.peek_extend hc, Cursor.advance_extend hc]
  cases hn : servesLine? c.peek.text with
  | none =>
    rw [hn] at h
    cases h
  | some m =>
    rw [hn] at h
    cases h
    rfl

/-- the serving count after the method; where it came before, the blank lines are passed later -/
theorem servingsAfter_extend (more : List String) {servings? : Option Nat} {c d : Cursor} {n : Nat}
    (h : servingsAfter servings? c.skipBlank = .ok (n, d)) :
    ∃ d', servingsAfter servings? (c.extend more).skipBlank = .ok (n, d') ∧
      d'.skipBlank = (d.extend more).skipBlank := by
  cases servings? with
  | some m =>
    cases h
    refine ⟨_, rfl, ?_⟩
    rw [Cursor.skipBlank_skipBlank, Cursor.skipBlank_extend]
  | none =>
    have hread : readServings c.skipBlank = .ok (n, d) := h
    refine ⟨d.extend more, ?_, rfl⟩
    rw [Cursor.skipBlank_extend_of_ne (rest_ne_nil_of_readServings hread)]
    exact readServings_extend hread

/-! ## preparations -/

/-- the heading of the method was found, so the lines before it did not come to an end -/
theorem rest_ne_nil_of_skipTo {heading : Heading} {wanted : Bool} {c d : Cursor}
    {oven : Option Nat}
    (h : skipTo heading none (readServingsMaybe wanted c).2.read
      (readServingsMaybe wanted c).2.rest = .ok (oven, d)) : c.rest ≠ [] := by
  intro hnil
  have hsuffix := readServingsMaybe_suffix wanted c
  rw [hnil, List.suffix_nil] at hsuffix
  rw [hsuffix] at h
  cases h

/-- a preparation before a blank line is read as before the end of the text -/
theorem readPreparation_extend (hmore : ∀ l ∈ more.head?, IsBlankLine l) {title : String}
    {wanted : Bool} {c d : Cursor} {p : Preparation × Option Nat}
    (h : readPreparation title wanted c = .ok (p, d)) :
    readPreparation title wanted (c.extend more) = .ok (p, d.extend more) := by
  unfold readPreparation at h ⊢
  split at h
  · cases h
  · rename_i _ c₁ hlead
    split at h
    · cases h
    · rename_i ingredients c₂ hitems
      dsimp only at h
      split at h
      · cases h
      · rename_i oven c₄ hbetween
        split at h
        · cases h
        · rename_i method c₅ hsteps
          cases h
          have hne := rest_ne_nil_of_skipTo hbetween
          have htext : ∀ l ∈ more.head?, ¬ IsTextLine l := fun l hl ht => ht.1 (hmore l hl)
          have hends : ∀ l ∈ more.head?, EndsMethod l := fun l hl => .inl (hmore l hl)
          rw [Cursor.extend_read, Cursor.extend_rest, skipTo_extend hlead]
          dsimp only
          rw [Cursor.extend_read, Cursor.extend_rest, readIngredients_extend htext hitems]
          dsimp only
          rw [Cursor.skipBlank_extend_of_ne hne, readServingsMaybe_extend hne]
          dsimp only
          rw [Cursor.extend_read, Cursor.extend_rest, skipTo_extend hbetween]
          dsimp only
          rw [Cursor.extend_read, Cursor.extend_rest, readMethod_extend hends hsteps]

/-! ## auxiliary preparations -/

/-- a preparation ends in the text in which it began -/
theorem finish_of_readPreparation {title : String} {wanted : Bool} {read : Nat} {ls : List String}
    {d : Cursor} {p : Preparation × Option Nat}
    (h : readPreparation title wanted ⟨read + 1, ls⟩ = .ok (p, d)) :
    d.finish.read = (⟨read, title :: ls⟩ : Cursor).finish.read := by
  have hwithin := readPreparation_within title wanted ⟨read + 1, ls⟩
  rw [h] at hwithin
  have hahead := (Cursor.ahead_cons read title ls).trans hwithin
  exact hahead.finish

/-- the preparations that were read, and after them those that follow; by induction on the number of
lines, which get fewer with every preparation -/
theorem readAuxiliaries_extend (hmore : ∀ l ∈ more.head?, IsBlankLine l) {taken : List String}
    {c : Cursor} {ps : List Preparation} (h : readAuxiliaries taken c.skipBlank = .ok ps) :
    readAuxiliaries taken (c.extend more).skipBlank =
      (readAuxiliaries ((ps.map Preparation.title).reverse ++ taken)
        (Cursor.skipBlank ⟨c.finish.read, more⟩)).map (ps ++ ·) := by
  generalize hlen : c.skipBlank.rest.length = len
  induction len using Nat.strongRecOn generalizing taken c ps with
  | ind len ih =>
    have hfinish := c.ahead_skipBlank.finish
    generalize hskip : c.skipBlank = s at h hlen hfinish
    obtain ⟨read, ls⟩ := s
    cases ls with
    | nil =>
      rw [readAuxiliaries_nil] at h
      cases h
      rw [Cursor.skipBlank_extend, hskip, Cursor.extend_of_rest_eq_nil rfl, hfinish]
      show _ = (readAuxiliaries taken _).map ([] ++ ·)
      cases readAuxiliaries taken _ <;> rfl
    | cons title ls =>
      obtain ⟨p, servings?, d, others, hp, hnew, hps, rfl⟩ := exists_of_readAuxiliaries_cons h
      have hne : c.skipBlank.rest ≠ [] := by
        rw [hskip]
        exact List.cons_ne_nil title ls
      have hread : readPreparation title false ⟨read + 1, ls ++ more⟩ =
          .ok ((p, servings?), d.extend more) := readPreparation_extend hmore hp
      have hshort : d.skipBlank.rest.length < len := hlen ▸ length_lt_of_readPreparation hp
      rw [Cursor.skipBlank_extend_of_ne hne, hskip, Cursor.extend_cons,
        readAuxiliaries_cons_of_ok hread hnew, ih _ hshort hps rfl,
        finish_of_readPreparation hp, hfinish, List.map_cons, List.reverse_cons,
        title_of_readPreparation hp, List.append_assoc, List.singleton_append]
      cases readAuxiliaries _ _ <;> rfl

end

/-! ## documents -/

/-- all that a reader goes through in a text that is read to its end -/
structure ReadThrough (title : String) (ls : List String) (d : Document) (servings? : Option Nat)
    (c c' : Cursor) : Prop where
  main : readPreparation title true ⟨1, ls⟩ = .ok ((d.main, servings?), c)
  servings : servingsAfter servings? c.skipBlank = .ok (d.servings, c')
  auxiliaries : readAuxiliaries [mainKey] c'.skipBlank = .ok d.auxiliaries

theorem exists_readThrough {source : String} {d : Document} (h : Document.parse source = .ok d) :
    ∃ title ls servings? c c', textLines source = title :: ls ∧
      ReadThrough title ls d servings? c c' := by
  unfold Document.parse at h
  split at h
  · cases h
  · rename_i title ls hls
    split at h
    · cases h
    · rename_i main servings? c hmain
      split at h
      · cases h
      · rename_i servings c' hservings
        split at h
        · cases h
        · rename_i auxiliaries hauxiliaries
          cases h
          exact ⟨title, ls, servings?, c, c', hls, hmain, hservings, hauxiliaries⟩

/-- the preparations are read in the text that began with the title -/
theorem ReadThrough.finish_eq {title : String} {ls : List String} {d : Document}
    {servings? : Option Nat} {c c' : Cursor} (h : ReadThrough title ls d servings? c c') :
    c'.finish.read = (title :: ls).length := by
  have hmain := readPreparation_within title true ⟨1, ls⟩
  rw [h.main] at hmain
  have hservings := servingsAfter_within servings? c
  rw [h.servings] at hservings
  have hahead : Cursor.Ahead ⟨1, ls⟩ c' := Cursor.Ahead.trans hmain hservings
  rw [hahead.finish, List.length_cons]
  show 1 + ls.length = ls.length + 1
  omega

/-- a document that was read, with more lines after it: more auxiliary preparations, or something
that is wrong with them -/
theorem parse_extend {source longer : String} {more : List String} {d : Document}
    (hmore : ∀ l ∈ more.head?, IsBlankLine l) (hlines : textLines longer = textLines source ++ more)
    (h : Document.parse source = .ok d) :
    Document.parse longer =
      (readAuxiliaries ((d.auxiliaries.map Preparation.title).reverse ++ [mainKey])
        (Cursor.skipBlank ⟨(textLines source).length, more⟩)).map
          fun ps => { d with auxiliaries := d.auxiliaries ++ ps } := by
  obtain ⟨title, ls, servings?, c, c', hls, hread⟩ := exists_readThrough h
  have hmain : readPreparation title true ⟨1, ls ++ more⟩ =
      .ok ((d.main, servings?), c.extend more) := readPreparation_extend hmore hread.main
  obtain ⟨c'', hservings, hskip⟩ := servingsAfter_extend more hread.servings
  have hauxiliaries := readAuxiliaries_extend hmore hread.auxiliaries
  rw [← hskip, hread.finish_eq, ← hls] at hauxiliaries
  unfold Document.parse
  rw [hlines, hls, List.cons_append]
  dsimp only
  rw [hmain]
  dsimp only
  rw [hservings]
  dsimp only
  rw [hauxiliaries, hls]
  cases readAuxiliaries _ _ <;> rfl

/-! ## recipes -/

/-- a recipe whose preparations are all in another one, which is cooked and served like it -/
structure Recipe.KeptIn (r longer : Recipe) : Prop where
  title : longer.title = r.title
  servings : longer.servings = r.servings
  preparations : ∀ key p, r.preparation? key = some p → longer.preparation? key = some p
  run : ∀ limit, longer.run limit = r.run limit

/-- a run sees the title, the serving count and the main preparation -/
theorem Recipe.run_congr {r longer : Recipe} (htitle : longer.title = r.title)
    (hservings : longer.servings = r.servings) (hmain : longer.main? = r.main?) (limit : Nat) :
    longer.run limit = r.run limit := by
  have hprep : longer.runPreparation limit mainKey .empty =
      r.runPreparation limit mainKey .empty := by
    have hkey : longer.preparation? mainKey = r.preparation? mainKey := hmain
    unfold Recipe.runPreparation
    rw [hkey]
  unfold Recipe.run Recipe.serveAfter
  rw [hprep, htitle, hservings]

theorem Document.keptIn_append {d : Document} {ps : List Preparation} (hd : d.Titled)
    (hlonger : Document.Titled { d with auxiliaries := d.auxiliaries ++ ps }) :
    d.recipe.KeptIn (Document.recipe { d with auxiliaries := d.auxiliaries ++ ps }) where
  title := rfl
  servings := rfl
  preparations key p hp := by
    rw [Document.preparation?_recipe hlonger]
    rcases (Document.preparation?_recipe hd key p).mp hp with ⟨hmem, hkey⟩ | hmain
    · exact .inl ⟨List.mem_append_left ps hmem, hkey⟩
    · exact .inr hmain
  run limit := by
    apply Recipe.run_congr
    · rfl
    · rfl
    · rw [Document.main?_recipe hlonger, Document.main?_recipe hd]

/-- after a recipe that ends its last line, a blank line and any text: the recipe stays as it is, or
the error is behind it -/
theorem recipe_parse_append {s : String} {r : Recipe} (hs : s.toList.getLast? = some '\n')
    (h : Recipe.parse s = .ok r) (t : String) :
    (∃ longer, Recipe.parse (s ++ "\n" ++ t) = .ok longer ∧ r.KeptIn longer) ∨
      ∃ e, Recipe.parse (s ++ "\n" ++ t) = .error e ∧ (documentLines s).length < e.line := by
  have hlines : textLines (s ++ "\n" ++ t) = textLines s ++ "" :: textLines t := by
    rw [String.append_assoc, textLines_append hs, textLines_append (by decide)]
    rfl
  have hmore : ∀ l ∈ ("" :: textLines t).head?, IsBlankLine l :=
    forall_mem_head_cons IsBlankLine isBlankLine_empty _
  obtain ⟨d, hform, rfl⟩ := (recipe_parse_iff s r).mp h
  have hparse := parse_extend hmore hlines (parse_of_form hform)
  cases haux : readAuxiliaries ((d.auxiliaries.map Preparation.title).reverse ++ [mainKey])
      (Cursor.skipBlank ⟨(textLines s).length, "" :: textLines t⟩) with
  | ok ps =>
    rw [haux] at hparse
    refine .inl ⟨Document.recipe { d with auxiliaries := d.auxiliaries ++ ps }, ?_, ?_⟩
    · unfold Recipe.parse
      rw [hparse]
      rfl
    · exact Document.keptIn_append hform.titled (form_of_parse hparse).titled
  | error e =>
    rw [haux] at hparse
    refine .inr ⟨e, ?_, ?_⟩
    · unfold Recipe.parse
      rw [hparse]
      rfl
    · -- the blank line after the recipe has been passed, and no line before it can be named
      have hskip : Cursor.skipBlank ⟨(textLines s).length, "" :: textLines t⟩ =
          Cursor.skipBlank ⟨(textLines s).length + 1, textLines t⟩ := rfl
      rw [hskip] at haux
      have hahead := Cursor.ahead_skipBlank ⟨(textLines s).length + 1, textLines t⟩
      have hline : (textLines s).length + 1 ≤ e.line :=
        (hahead.covers (fails_of_readAuxiliaries haux).covers).1
      rw [← textLines_eq]
      omega

/-- a glaze after the dough: its method is missing, which is said of the eleventh line -/
theorem recipe_parse_append_dough :
    ∃ r, Recipe.parse doughText = .ok r ∧
      ((∃ longer, Recipe.parse (doughText ++ "\n" ++ "Glaze\n\nIngredients.\n") = .ok longer ∧
        r.KeptIn longer) ∨
      ∃ e, Recipe.parse (doughText ++ "\n" ++ "Glaze\n\nIngredients.\n") = .error e ∧
        (documentLines doughText).length < e.line) := by
  have hlast : doughText.toList.getLast? = some '\n' := by decide +kernel
  exact ⟨_, parse_doughText, recipe_parse_append hlast parse_doughText _⟩

end Cookery
