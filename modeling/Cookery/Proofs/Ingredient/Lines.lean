import Cookery.Ingredient.Line
import Cookery.Proofs.Text.Numerals
import Cookery.Proofs.Text.Trimming
import Cookery.Recipe.Printer

/-!
# Ingredient lines written and read

* `Ingredient.Readable`     what a line can say of an ingredient;
* `Ingredient.ofLine_eq_ok_iff`   what it takes for a line to be read;
* `readable_of_ofLine`      every line that is read is about a readable ingredient;
* `takeWord_append`         a word and the blank after it come off the front of a line;
* `ofLine_line`             the line of a readable ingredient is read back;
* `ofLine_unmeasured`       so is an amount and a single word.
-/

namespace Cookery

/-- an ingredient with a trimmed name on one line, and no negative amount -/
structure Ingredient.Readable (i : Ingredient) : Prop where
  name_ne : i.name.toList ≠ []
  name_first : NoBlankFirst i.name.toList
  name_last : NoBlankLast i.name.toList
  name_line : '\n' ∉ i.name.toList
  value_nonneg : ∀ q ∈ i.value, 0 ≤ q.val

/-! ## what is read is readable -/

theorem takeWord_suffix (wanted : List Char → Bool) (cs : List Char) :
    (takeWord wanted cs).2 <:+ cs := by
  have hdrop : cs.dropWhile (!isBlank ·) <:+ cs := List.dropWhile_suffix _
  unfold takeWord
  split
  · exact List.suffix_refl _
  · rename_i c rest hc
    split
    · exact (List.suffix_cons c rest).trans (hc ▸ hdrop)
    · exact List.suffix_refl _

theorem IngredientLine.rest_suffix (line : List Char) :
    (IngredientLine.ofText line).rest <:+ line := by
  show (takeWord isMeasure (takeWord isHeap (takeWord isNumeral line).2).2).2 <:+ line
  have h₁ := takeWord_suffix isNumeral line
  have h₂ := takeWord_suffix isHeap (takeWord isNumeral line).2
  exact (takeWord_suffix _ _).trans (h₂.trans h₁)

theorem IngredientLine.value_nonneg {l : IngredientLine} {value : Option Quantity}
    (h : l.value = .ok value) : ∀ q ∈ value, 0 ≤ q.val := by
  intro q hq
  unfold IngredientLine.value at h
  split at h
  · cases h
    cases hq
  · rename_i digits _
    split at h
    · rename_i q' hq'
      cases h
      cases hq
      rw [Quantity.ofInt?_eq_some_iff.mp hq']
      exact Int.natCast_nonneg _
    · cases h

/-- a line is read iff it has a name, its amount fits and its measure is known -/
theorem Ingredient.ofLine_eq_ok_iff {line : String} {i : Ingredient} :
    Ingredient.ofLine line = .ok i ↔
      isBlankText (IngredientLine.ofText line.toList).rest = false ∧
      (IngredientLine.ofText line.toList).value = .ok i.value ∧
      (IngredientLine.ofText line.toList).kind = .ok i.kind ∧
      i.name = String.ofList (trim (IngredientLine.ofText line.toList).rest) := by
  unfold Ingredient.ofLine
  dsimp only
  constructor
  · intro h
    split at h
    · cases h
    · rename_i hblank
      obtain ⟨value, hvalue, h⟩ := bind_eq_ok h
      obtain ⟨kind, hkind, h⟩ := bind_eq_ok h
      obtain rfl := Except.ok.inj h
      exact ⟨Bool.eq_false_iff.mpr hblank, hvalue, hkind, rfl⟩
  · rintro ⟨hblank, hvalue, hkind, hname⟩
    rw [hblank, if_neg Bool.false_ne_true, hvalue, hkind, ← hname]
    rfl

theorem readable_of_ofLine {line : String} {i : Ingredient} (h : Ingredient.ofLine line = .ok i)
    (hline : '\n' ∉ line.toList) : i.Readable := by
  obtain ⟨hblank, hvalue, -, hname⟩ := Ingredient.ofLine_eq_ok_iff.mp h
  have htext : i.name.toList = trim (IngredientLine.ofText line.toList).rest := by
    rw [hname, String.toList_ofList]
  constructor
  · rw [htext]
    intro hnil
    rw [(trim_eq_nil_iff _).mp hnil] at hblank
    cases hblank
  · rw [htext]
    exact noBlankFirst_trim _
  · rw [htext]
    exact noBlankLast_trim _
  · rw [htext]
    intro hmem
    exact hline ((IngredientLine.rest_suffix _).subset (mem_of_mem_trim hmem))
  · exact IngredientLine.value_nonneg hvalue

/-! ## what is written is read -/

theorem takeWord_append {word : List Char} (hword : Solid word) {blank : Char}
    (hblank : isBlank blank = true) (wanted : List Char → Bool) (rest : List Char) :
    takeWord wanted (word ++ blank :: rest) =
      if wanted word then (some word, rest) else (none, word ++ blank :: rest) := by
  have hrest : ∀ c ∈ (blank :: rest).head?, isBlank c = true :=
    forall_mem_head_cons (isBlank · = true) hblank rest
  unfold takeWord
  rw [hword.dropWhile_append hrest, hword.takeWhile_append hrest]

theorem isBlank_space : isBlank ' ' = true := by decide

theorem not_blank_of_isDigit {c : Char} (h : isDigit c = true) : isBlank c = false := by
  unfold isDigit at h
  rw [Bool.and_eq_true, decide_eq_true_eq, decide_eq_true_eq] at h
  have hlow : 48 ≤ c.toNat := h.1
  have hhigh : c.toNat ≤ 57 := h.2
  unfold isBlank inRanges blankRanges
  simp only [List.any_cons, List.any_nil, Bool.or_false, Bool.or_eq_false_iff,
    Bool.and_eq_false_iff, decide_eq_false_iff_not]
  omega

theorem solid_numeral (n : Nat) : Solid (numeral n) := fun _ hc =>
  not_blank_of_isDigit (isDigit_of_mem_numeral hc)

theorem Kind.measure_facts (kind : Kind) :
    Solid kind.measure.toList ∧ isNumeral kind.measure.toList = false ∧
      isHeap kind.measure.toList = false ∧ isMeasure kind.measure.toList = true ∧
      measureKind? kind.measure.toList = some kind ∧ '\n' ∉ kind.measure.toList := by
  cases kind <;> decide

/-- measure and name -/
def Ingredient.measured (i : Ingredient) : List Char :=
  i.kind.measure.toList ++ ' ' :: i.name.toList

theorem takeWord_measured (i : Ingredient) :
    takeWord isNumeral i.measured = (none, i.measured) ∧
      takeWord isHeap i.measured = (none, i.measured) ∧
        takeWord isMeasure i.measured = (some i.kind.measure.toList, i.name.toList) := by
  obtain ⟨hword, hnumeral, hheap, hmeasure, _⟩ := i.kind.measure_facts
  unfold Ingredient.measured
  refine ⟨?_, ?_, ?_⟩
  · rw [takeWord_append hword isBlank_space, hnumeral]
    rfl
  · rw [takeWord_append hword isBlank_space, hheap]
    rfl
  · rw [takeWord_append hword isBlank_space, hmeasure]
    rfl

theorem isNumeral_numeral (n : Nat) : isNumeral (numeral n) = true := by
  unfold isNumeral
  rw [Bool.and_eq_true, List.all_eq_true]
  refine ⟨?_, fun c hc => isDigit_of_mem_numeral hc⟩
  cases h : numeral n with
  | nil => exact absurd h (numeral_ne_nil n)
  | cons c cs => rfl

theorem toString_val {q : Quantity} (h : 0 ≤ q.val) :
    (toString q.val).toList = numeral q.val.toNat := by
  obtain ⟨n, hn⟩ := Int.eq_ofNat_of_zero_le h
  rw [hn]
  rfl

/-- the amount that a line starts with, and the blank after it -/
def amountText : Option Quantity → List Char
  | some q => numeral q.val.toNat ++ [' ']
  | none => []

theorem Ingredient.toList_line {i : Ingredient} (h : ∀ q ∈ i.value, 0 ≤ q.val) :
    i.line.toList = amountText i.value ++ i.measured := by
  unfold Ingredient.line Ingredient.measured amountText
  cases hv : i.value with
  | none => simp
  | some q =>
    simp only [String.toList_append, toString_val (h q hv), List.append_assoc]
    rfl

theorem ofText_line {i : Ingredient} (h : ∀ q ∈ i.value, 0 ≤ q.val) :
    IngredientLine.ofText i.line.toList =
      { quantity? := i.value.map fun q => numeral q.val.toNat, heap? := none,
        measure? := some i.kind.measure.toList, rest := i.name.toList } := by
  obtain ⟨hnumeral, hheap, hmeasure⟩ := takeWord_measured i
  have hamount : takeWord isNumeral i.line.toList =
      (i.value.map fun q => numeral q.val.toNat, i.measured) := by
    rw [Ingredient.toList_line h]
    cases i.value with
    | none => exact hnumeral
    | some q =>
      unfold amountText
      rw [List.append_assoc, List.singleton_append, takeWord_append (solid_numeral _) isBlank_space,
        isNumeral_numeral]
      rfl
  unfold IngredientLine.ofText
  rw [hamount]
  dsimp only
  rw [hheap]
  dsimp only
  rw [hmeasure]

theorem quantityOf?_numeral {q : Quantity} (h : 0 ≤ q.val) :
    quantityOf? (numeral q.val.toNat) = some q := by
  unfold quantityOf?
  rw [numberOf_numeral, Int.toNat_of_nonneg h, Quantity.ofInt?_val]

theorem ofLine_line {i : Ingredient} (h : i.Readable) : Ingredient.ofLine i.line = .ok i := by
  rw [Ingredient.ofLine_eq_ok_iff, ofText_line h.value_nonneg]
  refine ⟨isBlankText_eq_false h.name_ne h.name_first h.name_last, ?_, ?_, ?_⟩
  · unfold IngredientLine.value
    cases hv : i.value with
    | none => rfl
    | some q =>
      dsimp only [Option.map_some]
      rw [quantityOf?_numeral (h.value_nonneg q hv)]
  · obtain ⟨-, -, -, -, hkind, -⟩ := i.kind.measure_facts
    unfold IngredientLine.kind IngredientLine.measuredKind
    dsimp only
    rw [hkind]
    rfl
  · dsimp only
    rw [trim_eq_self h.name_first h.name_last, String.ofList_toList]

/-- a last word is not taken off the front -/
theorem takeWord_solid {word : List Char} (h : Solid word) (wanted : List Char → Bool) :
    takeWord wanted word = (none, word) := by
  have hdrop : word.dropWhile (!isBlank ·) = [] := by
    have hword : (word ++ []).dropWhile (!isBlank ·) = [] := h.dropWhile_append nofun
    rw [List.append_nil] at hword
    exact hword
  unfold takeWord
  rw [hdrop]

theorem ofLine_unmeasured {name : String} {q : Quantity} (hne : name.toList ≠ [])
    (hsolid : Solid name.toList) (hq : 0 ≤ q.val) :
    Ingredient.ofLine (toString q.val ++ " " ++ name) = .ok ⟨name, some q, .either⟩ := by
  have hline : (toString q.val ++ " " ++ name).toList =
      numeral q.val.toNat ++ ' ' :: name.toList := by
    rw [String.toList_append, String.toList_append, toString_val hq, List.append_assoc]
    rfl
  have hparts : IngredientLine.ofText (toString q.val ++ " " ++ name).toList =
      { quantity? := some (numeral q.val.toNat), heap? := none, measure? := none,
        rest := name.toList } := by
    unfold IngredientLine.ofText
    rw [hline, takeWord_append (solid_numeral _) isBlank_space, isNumeral_numeral, if_pos rfl]
    dsimp only
    rw [takeWord_solid hsolid]
    dsimp only
    rw [takeWord_solid hsolid]
  rw [Ingredient.ofLine_eq_ok_iff, hparts]
  refine ⟨isBlankText_eq_false hne hsolid.noBlankFirst hsolid.noBlankLast, ?_, rfl, ?_⟩
  · unfold IngredientLine.value
    dsimp only
    rw [quantityOf?_numeral hq]
  · dsimp only
    rw [trim_eq_self hsolid.noBlankFirst hsolid.noBlankLast, String.ofList_toList]

/-! ## the line among other lines -/

theorem mem_line_of_mem_measured {i : Ingredient} (h : i.Readable) {c : Char}
    (hc : c ∈ i.measured) : c ∈ i.line.toList := by
  rw [Ingredient.toList_line h.value_nonneg]
  exact List.mem_append_right _ hc

theorem newline_not_mem_line {i : Ingredient} (h : i.Readable) : '\n' ∉ i.line.toList := by
  have hamount : '\n' ∉ amountText i.value := by
    unfold amountText
    split
    · rw [List.mem_append, not_or]
      exact ⟨newline_not_mem_numeral _, by decide⟩
    · exact List.not_mem_nil
  obtain ⟨-, -, -, -, -, hmeasure⟩ := i.kind.measure_facts
  rw [Ingredient.toList_line h.value_nonneg]
  unfold Ingredient.measured
  rw [List.mem_append, List.mem_append, List.mem_cons, not_or, not_or, not_or]
  exact ⟨hamount, hmeasure, by decide, h.name_line⟩

end Cookery
