import Cookery.Proofs.Reading.Acceptance
import Cookery.Proofs.Reading.Readable

/-!
# Recipes written down and read again

The written form of a readable document is a document of the grammar, and the same one.  Whatever
was read is readable, so it is read back from its written form, with the auxiliary preparations in
any order.

* `ingredientRun_lines`, `methodRun_sentences`   the two lists of a preparation;
* `preparationForm_body`, `auxiliariesForm_lines`, `documentForm_lines`   the written forms;
* `parse_print_of_parse`     every recipe that was read is read back.
-/

namespace Cookery

/-! ## the two lists -/

theorem allBlank_cons_empty {gap : List String} (h : AllBlank gap) : AllBlank ("" :: gap) := by
  intro l hl
  rcases List.mem_cons.mp hl with rfl | hl
  · exact isBlankLine_empty
  · exact h l hl

/-- a heading has no space in it -/
theorem isTextLine_of_space {l : String} (hspace : ' ' ∈ l.toList) {c : Char} (hc : c ∈ l.toList)
    (hsolid : isBlank c = false) : IsTextLine l := by
  constructor
  · intro hblank
    rw [hblank c hc] at hsolid
    cases hsolid
  · intro heading he
    rw [he] at hspace
    cases heading <;> exact absurd hspace (by decide)

theorem isTextLine_line {i : Ingredient} (h : i.Readable) : IsTextLine i.line := by
  have hspace : ' ' ∈ i.line.toList :=
    mem_line_of_mem_measured h (List.mem_append_right _ List.mem_cons_self)
  cases hname : i.name.toList with
  | nil => exact absurd hname h.name_ne
  | cons c cs =>
    have hmem : c ∈ i.line.toList := by
      refine mem_line_of_mem_measured h (List.mem_append_right _ (List.mem_cons_of_mem _ ?_))
      rw [hname]
      exact List.mem_cons_self
    exact isTextLine_of_space hspace hmem (h.name_first c (by rw [hname]; rfl))

theorem ingredientRun_lines {pantry : Pantry}
    (h : ∀ name i, pantry.find? name = some i → i.name = name ∧ i.Readable) :
    IngredientRun (pantry.values.map Ingredient.line) pantry := by
  have hreadable : ∀ i ∈ pantry.values, i.Readable := by
    intro i hi
    obtain ⟨name, hfind⟩ := (pantry.mem_values_iff i).mp hi
    exact (h name i hfind).2
  have hkeys : ∀ name i, pantry.find? name = some i → i.name = name := fun name i hfind =>
    (h name i hfind).1
  refine ⟨fun l hl => ?_, pantry.values, ?_, Table.nodup_map_values hkeys, ?_⟩
  · obtain ⟨i, hi, rfl⟩ := List.mem_map.mp hl
    exact isTextLine_line (hreadable i hi)
  · rw [List.map_map]
    refine List.map_congr_left fun i hi => ?_
    rw [Function.comp_apply, ofLine_line (hreadable i hi)]
  · rw [ofList_eq_storeBy, Table.storeBy_values hkeys]

/-- a sentence has a letter that is not on the line of a serving count -/
theorem t_mem_argument (st : Statement) : 't' ∈ st.argument := by
  have hbowl : ∀ n, 't' ∈ (nthBowl n).toList := by
    intro n
    unfold nthBowl
    rw [toList_nthContainer]
    exact List.mem_append_left _ (by decide)
  match st with
  | .act (.put _ n) =>
    exact List.mem_append_right _ (List.mem_append_right _ (hbowl n))
  | .act (.combine _ n) =>
    exact List.mem_append_right _ (List.mem_append_right _ (hbowl n))
  | .act (.liquefy n) =>
    exact List.mem_append_right _ (hbowl n)
  | .act (.pour n _) =>
    exact List.mem_append_right _ (List.mem_append_left _ (hbowl n))
  | .act (.stir n _) => exact List.mem_append_left _ (hbowl n)
  | .loopStart _ _ => exact List.mem_append_left _ (by decide)
  | .loopEnd _ none => exact List.mem_append_left _ (by decide)
  | .loopEnd _ (some _) => exact List.mem_append_left _ (List.mem_append_left _ (by decide))

theorem mem_sentence_of_mem_argument {st : Statement} {c : Char} (h : c ∈ st.argument) :
    c ∈ st.sentence.toList := by
  rw [st.toList_sentence]
  exact List.mem_append_right _ (List.mem_cons_of_mem _ (List.mem_append_left _ h))

theorem not_endsMethod_sentence (st : Statement) : ¬ EndsMethod st.sentence :=
  not_endsMethod_of_t (mem_sentence_of_mem_argument (t_mem_argument st))

/-- lines of one sentence each -/
theorem methodRun_map {α : Type} {f : α → String} {g : α → Statement} {xs : List α}
    (hends : ∀ x ∈ xs, ¬ EndsMethod (f x))
    (hread : ∀ x ∈ xs, (sentences (f x).toList).map Statement.ofSentence = [.ok (g x)]) :
    MethodRun (xs.map f) (xs.map g) := by
  constructor
  · intro l hl
    obtain ⟨x, hx, rfl⟩ := List.mem_map.mp hl
    exact hends x hx
  · clear hends
    induction xs with
    | nil => rfl
    | cons x xs ih =>
      have hx := hread x List.mem_cons_self
      have hrest := ih fun y hy => hread y (List.mem_cons_of_mem _ hy)
      rw [List.map_cons, List.flatMap_cons, List.map_append, hx, hrest]
      rfl

theorem methodRun_sentences {method : List Statement} (h : ∀ st ∈ method, st.Readable) :
    MethodRun (method.map Statement.sentence) method := by
  have hrun := methodRun_map (f := Statement.sentence) (g := id)
    (fun st _ => not_endsMethod_sentence st) (fun st hst => ofSentence_clause (h st hst))
  rw [List.map_id] at hrun
  exact hrun

/-! ## ovens and serving counts -/

theorem toList_ovenLine (t : Nat) :
    ("Pre-heat oven to " ++ toString t ++ " degrees Celsius.").toList =
      "Pre-heat oven to ".toList ++ (numeral t ++ (" degrees".toList ++ " Celsius.".toList)) := by
  simp only [String.toList_append, List.append_assoc]
  rfl

theorem ovenLine?_line {t : Nat} (h : t < ovenBound) :
    ovenLine? ("Pre-heat oven to " ++ toString t ++ " degrees Celsius.") = some (some t) := by
  have hr : NoDigitFirst (" degrees".toList ++ " Celsius.".toList) :=
    noDigitFirst_cons (by decide : isDigit ' ' = false) _
  unfold ovenLine?
  rw [toList_ovenLine, after?_append]
  simp only [Option.bind_eq_bind, Option.bind_some]
  rw [digitRun?_numeral_append t hr]
  simp only [Option.bind_some]
  rw [after?_append, numberOf_numeral, if_pos h]
  rfl

/-- the lines between the two lists: a blank one, and the oven -/
def ovenPart (oven : Option Nat) : List String := "" :: ovenLines oven

theorem lastOven_ovenPart {oven : Option Nat} (h : ∀ t ∈ oven, t < ovenBound) :
    lastOven (ovenPart oven) = oven := by
  have hempty : ovenLine? "" = none := ovenLine?_of_blank isBlankLine_empty
  unfold lastOven ovenPart
  rw [List.filterMap_cons_none hempty]
  cases oven with
  | none => rfl
  | some t =>
    unfold ovenLines
    rw [List.filterMap_cons_some (ovenLine?_line (h t rfl))]
    rfl

/-- lines that start as an oven line are neither blank nor a heading nor a serving count -/
theorem ovenLine_facts {oven : Option Nat} {l : String} (h : l ∈ ovenLines oven) :
    ¬ IsBlankLine l ∧ l ≠ Heading.method.text ∧ (∀ n, ¬ ServesLine l n) ∧ '\n' ∉ l.toList := by
  cases oven with
  | none => cases h
  | some t =>
    obtain rfl := List.mem_singleton.mp h
    have hfirst : ("Pre-heat oven to " ++ toString t ++ " degrees Celsius.").toList.head? =
        some 'P' := by
      rw [toList_ovenLine]
      rfl
    refine ⟨fun hb => ?_, fun he => ?_, fun n hn => ?_, fun hmem => ?_⟩
    · exact absurd (hb 'P' (List.mem_of_mem_head? hfirst)) (by decide)
    · rw [he] at hfirst
      exact absurd hfirst (by decide)
    · obtain ⟨ds, _, _, hline, _⟩ := hn
      rw [hline] at hfirst
      exact absurd (Option.some.inj hfirst) (by decide)
    · rw [toList_ovenLine, List.mem_append, List.mem_append] at hmem
      rcases hmem with hmem | hmem | hmem
      · exact absurd hmem (by decide)
      · exact newline_not_mem_numeral t hmem
      · exact absurd hmem (by decide)

theorem earlyCount_ovenPart (oven : Option Nat) : EarlyCount (ovenPart oven) none := by
  have hblank : AllBlank [""] := allBlank_cons_empty (List.forall_mem_nil _)
  show EarlyCount ([""] ++ ovenLines oven) none
  refine .absent hblank fun l hl => ?_
  obtain ⟨hb, _, hs, _⟩ := ovenLine_facts (List.mem_of_mem_head? hl)
  exact ⟨hb, hs⟩

theorem toList_servesLine (n : Nat) :
    ("Serves " ++ toString n ++ ".").toList = "Serves ".toList ++ numeral n ++ ['.'] := by
  simp only [String.toList_append]
  rfl

theorem servesLine_line {n : Nat} (h : n ≤ countMax) :
    ServesLine ("Serves " ++ toString n ++ ".") n :=
  ⟨numeral n, numeral_ne_nil n, fun _ hd => isDigit_of_mem_numeral hd, toList_servesLine n,
    (countOf_numeral h).symm⟩

/-! ## preparations -/

/-- the lines of a preparation after its title, before the lines `rest` -/
def Preparation.body (p : Preparation) (rest : List String) : List String :=
  [""] ++ Heading.ingredients.text :: (p.ingredients.values.map Ingredient.line ++
    (ovenPart p.oven ++ Heading.method.text :: (p.method.map Statement.sentence ++ "" :: rest)))

theorem Preparation.lines_append (p : Preparation) (rest : List String) :
    p.lines ++ rest = p.title :: p.body rest := by
  have hvalues : p.ingredients.entries.map (fun e => e.2.line) =
      p.ingredients.values.map Ingredient.line := by
    unfold Table.values
    rw [List.map_map]
    rfl
  unfold Preparation.lines Preparation.body ovenPart
  rw [hvalues]
  simp only [List.append_assoc, List.cons_append, List.nil_append]
  rfl

theorem preparationForm_body {p : Preparation} (h : p.Readable) (rest : List String) :
    PreparationForm p.title (p.body rest) p (ovenPart p.oven) ("" :: rest) := by
  have hlead : ∀ l ∈ [""], l ≠ Heading.ingredients.text := by decide
  have hlongest : ∀ l ∈ (ovenPart p.oven).head?, ¬ IsTextLine l :=
    forall_mem_head_cons (¬ IsTextLine ·) (fun ht => ht.1 isBlankLine_empty) _
  have hskips : ∀ l ∈ ovenPart p.oven, l ≠ Heading.method.text := by
    intro l hl
    rcases List.mem_cons.mp hl with rfl | hl
    · decide
    · exact (ovenLine_facts hl).2.1
  have hends : ∀ l ∈ ("" :: rest).head?, EndsMethod l :=
    forall_mem_head_cons EndsMethod (.inl isBlankLine_empty) rest
  have hform : PreparationForm p.title (p.body rest) { p with oven := lastOven (ovenPart p.oven) }
      (ovenPart p.oven) ("" :: rest) :=
    .mk hlead (ingredientRun_lines h.stored) hlongest hskips (methodRun_sentences h.method) hends
  rw [lastOven_ovenPart h.oven] at hform
  exact hform

theorem Preparation.unbroken_body {p : Preparation} (h : p.Readable) {rest : List String}
    (hrest : Unbroken rest) : Unbroken (p.body rest) := by
  intro l hl
  unfold Preparation.body ovenPart at hl
  simp only [List.mem_append, List.mem_cons, List.mem_map, List.not_mem_nil, or_false] at hl
  rcases hl with rfl | rfl | ⟨i, hi, rfl⟩ | (rfl | hl) | rfl | ⟨st, hst, rfl⟩ | rfl | hl
  · decide
  · decide
  · obtain ⟨name, hfind⟩ := (p.ingredients.mem_values_iff i).mp hi
    exact newline_not_mem_line (h.stored name i hfind).2
  · decide
  · exact (ovenLine_facts hl).2.2.2
  · decide
  · have hclause := Statement.isClause (h.method st hst)
    rw [st.toList_sentence, ← List.cons_append, ← List.append_assoc, List.mem_append, not_or]
    exact ⟨hclause.legible.newline, by decide⟩
  · decide
  · exact hrest l hl

/-! ## documents -/

/-- the lines of the auxiliary preparations -/
def auxiliaryLines (ps : List Preparation) : List String := ps.flatMap fun p => "" :: p.lines

theorem auxiliaryLines_cons (p : Preparation) (ps : List Preparation) :
    auxiliaryLines (p :: ps) = "" :: p.title :: p.body (auxiliaryLines ps) := by
  unfold auxiliaryLines
  rw [List.flatMap_cons, List.cons_append, p.lines_append]

theorem auxiliariesForm_lines {ps : List Preparation}
    (h : ∀ p ∈ ps, p.Readable ∧ ¬ IsBlankLine p.title) :
    ∃ gap rest, auxiliaryLines ps = gap ++ rest ∧ AllBlank gap ∧ AuxiliariesForm rest ps := by
  induction ps with
  | nil => exact ⟨[], [], rfl, List.forall_mem_nil _, .none⟩
  | cons p ps ih =>
    obtain ⟨hp, htitle⟩ := h p List.mem_cons_self
    obtain ⟨gap, rest, hlines, hgap, hrest⟩ := ih fun q hq => h q (List.mem_cons_of_mem _ hq)
    have hfirst := preparationForm_body hp (gap ++ rest)
    have hblank : AllBlank [""] := allBlank_cons_empty (List.forall_mem_nil _)
    refine ⟨[""], p.title :: p.body (gap ++ rest), ?_, hblank, ?_⟩
    · rw [auxiliaryLines_cons, hlines]
      rfl
    · rw [← List.cons_append] at hfirst
      exact .more htitle hfirst (allBlank_cons_empty hgap) hrest

theorem Document.lines_eq (d : Document) :
    d.lines = d.main.title ::
      d.main.body (("Serves " ++ toString d.servings ++ ".") :: auxiliaryLines d.auxiliaries) := by
  unfold Document.lines
  rw [List.append_assoc, d.main.lines_append]
  rfl

theorem documentForm_lines {d : Document} (h : d.Readable) : DocumentForm AllBlank d.lines d := by
  obtain ⟨gap, rest, hlines, hgap, hrest⟩ := auxiliariesForm_lines h.auxiliaries
  have hmain := preparationForm_body h.main
    (("Serves " ++ toString d.servings ++ ".") :: (gap ++ rest))
  have hblank : AllBlank [""] := allBlank_cons_empty (List.forall_mem_nil _)
  rw [d.lines_eq, hlines]
  exact .mk hmain (earlyCount_ovenPart _) hblank (.here (servesLine_line h.servings)) hgap hrest
    h.titled

theorem unbroken_auxiliaryLines {ps : List Preparation} (h : ∀ p ∈ ps, p.Readable) :
    Unbroken (auxiliaryLines ps) := by
  induction ps with
  | nil => exact List.forall_mem_nil _
  | cons p ps ih =>
    have hp := h p List.mem_cons_self
    have hrest := ih fun q hq => h q (List.mem_cons_of_mem _ hq)
    rw [auxiliaryLines_cons]
    exact .cons (by decide) (.cons hp.title_line (Preparation.unbroken_body hp hrest))

theorem Document.unbroken_lines {d : Document} (h : d.Readable) : Unbroken d.lines := by
  have hserves : '\n' ∉ ("Serves " ++ toString d.servings ++ ".").toList := by
    rw [toList_servesLine, List.mem_append, List.mem_append, not_or, not_or]
    exact ⟨⟨by decide, newline_not_mem_numeral _⟩, by decide⟩
  have hothers : Unbroken (auxiliaryLines d.auxiliaries) :=
    unbroken_auxiliaryLines fun p hp => (h.auxiliaries p hp).1
  rw [d.lines_eq]
  exact .cons h.main.title_line (Preparation.unbroken_body h.main (hothers.cons hserves))

/-! ## recipes -/

/-- what a readable document writes down is read as its recipe -/
theorem parse_print {d : Document} (h : d.Readable) : Recipe.parse d.print = .ok d.recipe := by
  refine (recipe_parse_iff _ _).mpr ⟨d, ?_, rfl⟩
  unfold Document.print
  rw [textLines_unlines (Document.unbroken_lines h)]
  exact documentForm_lines h

theorem Document.Readable.perm {d : Document} (h : d.Readable) {auxiliaries : List Preparation}
    (hperm : auxiliaries.Perm d.auxiliaries) : Document.Readable { d with auxiliaries } where
  main := h.main
  auxiliaries p hp := h.auxiliaries p (hperm.mem_iff.mp hp)
  titled := ((hperm.map Preparation.title).cons mainKey).nodup_iff.mpr h.titled
  servings := h.servings

/-- a recipe that was read, written down with its auxiliary preparations in any order, is read
again as the same recipe -/
theorem parse_print_of_parse {source : String} {r : Recipe} (h : Recipe.parse source = .ok r) :
    ∃ main, r.main? = some main ∧ r.title = main.title ∧
      ∀ auxiliaries : List Preparation, auxiliaries.Perm r.auxiliaries →
        Recipe.parse (Document.print { servings := r.servings, main, auxiliaries }) = .ok r := by
  obtain ⟨d, hform, rfl⟩ := (recipe_parse_iff source r).mp h
  have hread := hform.readable (unbroken_textLines source)
  refine ⟨d.main, Document.main?_recipe hread.titled, rfl, fun auxiliaries hperm => ?_⟩
  have hperm' := hperm.trans (Document.auxiliaries_recipe hread.titled)
  have hparse := parse_print (hread.perm hperm')
  rw [Document.recipe_congr hread.titled hperm'] at hparse
  exact hparse

theorem parse_print_doughText :
    ∃ r main, Recipe.parse doughText = .ok r ∧ r.main? = some main ∧
      Recipe.parse (Document.print { servings := r.servings, main, auxiliaries := r.auxiliaries }) =
        .ok r := by
  obtain ⟨main, hmain, _, hprint⟩ := parse_print_of_parse parse_doughText
  exact ⟨_, main, parse_doughText, hmain, hprint _ (List.Perm.refl _)⟩

end Cookery
