import Cookery.Proofs.Ingredient.Lines

/-!
# The layout of an ingredient line

A line of an ingredient list is up to three words, each of a class of its own and with one blank
after it, and a rest.  A word is taken whenever it is there.  So every line is laid out in one way,
and what is read from a line can be said of its layout.

* `measures`                     the measures and the kinds that go with them;
* `Lead`, `Layout`               a word of a class with the blank after it, and a line in its parts;
* `StartsWith`, `Layout.Greedy`  no word is left out where it could have been taken;
* `Recognises`                   a test of words and the class that it tests for, with
                                 `Recognises.takeWord_leadText`, `Recognises.leadText_inj`;
* `isMeasure_eq_isSome`          the words taken for measures are the ones of a known kind;
* `Layout.ofText_text`, `exists_layout`, `Layout.text_inj`   the line is cut into the parts of its
                                 layout, every line has one, and only one;
* `Layout.Means`, `Layout.ReadAs`   the ingredient that a layout describes, and the outcome of
                                 reading, with `Layout.readAs_ofLine`;
* `Layout.Plain`, `Layout.Plain.greedy`   a name that cannot be taken for one of the words;
* `ofLine_by_layout`             lines are read by their layout.
-/

namespace Cookery

/-! ## words -/

/-- the measures, and the kind of ingredient that each one goes with -/
def measures : List (String × Kind) :=
  [("g", .dry), ("kg", .dry), ("pinch", .dry), ("pinches", .dry),
    ("ml", .liquid), ("l", .liquid), ("dash", .liquid), ("dashes", .liquid),
    ("cup", .either), ("cups", .either), ("teaspoon", .either), ("teaspoons", .either),
    ("tablespoon", .either), ("tablespoons", .either)]

def IsQuantityWord (w : List Char) : Prop := w ≠ [] ∧ ∀ c ∈ w, isDigit c = true

def IsHeapWord (w : List Char) : Prop := w = "heaped".toList ∨ w = "level".toList

def IsMeasureWord (w : List Char) : Prop := String.ofList w ∈ measures.map Prod.fst

/-- a word of a class, and the blank after it -/
@[ext] structure Lead (P : List Char → Prop) where
  word : List Char
  blank : Char
  fits : P word
  is_blank : isBlank blank = true

/-- a word and its blank, if they are there -/
def leadText {P : List Char → Prop} : Option (Lead P) → List Char
  | none => []
  | some p => p.word ++ [p.blank]

/-- a text starts with a word of a class and a blank -/
def StartsWith (P : List Char → Prop) (cs : List Char) : Prop :=
  ∃ (p : Lead P) (r : List Char), cs = leadText (some p) ++ r

/-! ## layouts -/

@[ext] structure Layout where
  quantity? : Option (Lead IsQuantityWord)
  heap? : Option (Lead IsHeapWord)
  measure? : Option (Lead IsMeasureWord)
  rest : List Char
  one_line : '\n' ∉ rest

namespace Layout

/-- the line from the measure on -/
def fromMeasure (l : Layout) : List Char := leadText l.measure? ++ l.rest

/-- the line from `heaped` or `level` on -/
def fromHeap (l : Layout) : List Char := leadText l.heap? ++ l.fromMeasure

def text (l : Layout) : List Char := leadText l.quantity? ++ l.fromHeap

/-- a word is left out only where there is none -/
structure Greedy (l : Layout) : Prop where
  quantity : l.quantity? = none → ¬ StartsWith IsQuantityWord l.fromHeap
  heap : l.heap? = none → ¬ StartsWith IsHeapWord l.fromMeasure
  measure : l.measure? = none → ¬ StartsWith IsMeasureWord l.rest

/-- the number that stands at the start -/
def number? (l : Layout) : Option Nat := l.quantity?.map fun p => numberOf p.word

/-- dry if heaped or level, else by the measure, else open -/
def kind (l : Layout) : Kind :=
  if l.heap?.isSome then .dry
  else (l.measure?.bind fun p => measures.lookup (String.ofList p.word)).getD .either

/-- the largest quantity is `2^63 - 1` -/
def TooMuch (l : Layout) : Prop := ∃ n, l.number? = some n ∧ 0x7FFFFFFFFFFFFFFF < n

/-- the ingredient that is described -/
structure Means (l : Layout) (i : Ingredient) : Prop where
  name : i.name = String.ofList (trim l.rest)
  value : i.value.map Quantity.val = l.number?.map Int.ofNat
  kind : i.kind = l.kind

/-- the outcome of reading the line: it has no name, or too much of something, or it is read -/
structure ReadAs (l : Layout) (line : String) (r : Except ReadFault Ingredient) : Prop where
  invalid : r = .error (.invalidIngredient line) ↔ trim l.rest = []
  outOfRange : trim l.rest ≠ [] →
    ((∃ digits, r = .error (.quantityOutOfRange digits)) ↔ l.TooMuch)
  read : trim l.rest ≠ [] → ¬ l.TooMuch → ∃ i, r = .ok i ∧ l.Means i
  /-- there is no other way to fail -/
  faults : ∀ fault, r = .error fault → fault = .invalidIngredient line ∨
    ∃ p, l.quantity? = some p ∧ fault = .quantityOutOfRange (String.ofList p.word)

end Layout

/-! ## words that are taken -/

/-- a test for the words of a class, which hold no blanks -/
structure Recognises (wanted : List Char → Bool) (P : List Char → Prop) : Prop where
  iff : ∀ w, wanted w = true ↔ P w
  solid : ∀ w, P w → Solid w

namespace Recognises

variable {wanted : List Char → Bool} {P : List Char → Prop}

theorem takeWord_some (h : Recognises wanted P) (p : Lead P) (r : List Char) :
    takeWord wanted (leadText (some p) ++ r) = (some p.word, r) := by
  unfold leadText
  rw [List.append_assoc, List.singleton_append, takeWord_append (h.solid _ p.fits) p.is_blank,
    if_pos ((h.iff _).mpr p.fits)]

theorem takeWord_none (h : Recognises wanted P) {r : List Char} (hr : ¬ StartsWith P r) :
    takeWord wanted r = (none, r) := by
  unfold takeWord
  split
  · rfl
  · rename_i c rest hdrop
    have hcut : r = r.takeWhile (!isBlank ·) ++ c :: rest := by
      rw [← hdrop, List.takeWhile_append_dropWhile]
    have hc : isBlank c = true := by
      have hhead : c ∈ (r.dropWhile (!isBlank ·)).head? := by
        rw [hdrop]
        rfl
      have hnot := not_of_mem_head_dropWhile hhead
      simpa using hnot
    split
    · rename_i hwanted
      refine absurd ⟨⟨_, c, (h.iff _).mp hwanted, hc⟩, rest, ?_⟩ hr
      unfold leadText
      rw [List.append_assoc, List.singleton_append]
      exact hcut
    · rfl

/-- a word that is there is taken, with its blank -/
theorem takeWord_leadText (h : Recognises wanted P) (p? : Option (Lead P)) {r : List Char}
    (hr : p? = none → ¬ StartsWith P r) :
    takeWord wanted (leadText p? ++ r) = (p?.map Lead.word, r) := by
  cases p? with
  | none => exact h.takeWord_none (hr rfl)
  | some p => exact h.takeWord_some p r

theorem leadText_inj (h : Recognises wanted P) {p? q? : Option (Lead P)} {r s : List Char}
    (hr : p? = none → ¬ StartsWith P r) (hs : q? = none → ¬ StartsWith P s)
    (he : leadText p? ++ r = leadText q? ++ s) : p? = q? ∧ r = s := by
  have htaken := h.takeWord_leadText p? hr
  rw [he, h.takeWord_leadText q? hs] at htaken
  obtain ⟨hword, rfl⟩ := Prod.mk.inj htaken
  refine ⟨?_, rfl⟩
  cases p? with
  | none =>
    cases q? with
    | none => rfl
    | some q => cases hword
  | some p =>
    cases q? with
    | none => cases hword
    | some q =>
      have htext : p.word ++ [p.blank] = q.word ++ [q.blank] := List.append_cancel_right he
      obtain ⟨hwords, hblanks⟩ := List.append_inj' htext rfl
      exact congrArg some (Lead.ext hwords (List.cons.inj hblanks).1)

/-- a text that starts with a word and a blank starts with no other word -/
theorem fits_of_startsWith (h : Recognises wanted P) {Q : List Char → Prop} {q : Lead Q}
    {r : List Char} (hq : Solid q.word) (hstart : StartsWith P (leadText (some q) ++ r)) :
    P q.word := by
  obtain ⟨p, s, hp⟩ := hstart
  have htaken := h.takeWord_some p s
  rw [← hp, leadText, List.append_assoc, List.singleton_append, takeWord_append hq q.is_blank]
    at htaken
  split at htaken
  · rename_i hwanted
    exact (h.iff _).mp hwanted
  · cases htaken

end Recognises

theorem exists_leadText (P : List Char → Prop) (cs : List Char) :
    ∃ (p? : Option (Lead P)) (r : List Char), cs = leadText p? ++ r ∧
      (p? = none → ¬ StartsWith P r) := by
  by_cases h : StartsWith P cs
  · obtain ⟨p, r, rfl⟩ := h
    exact ⟨some p, r, rfl, nofun⟩
  · exact ⟨none, cs, rfl, fun _ => h⟩

/-! ## the three classes -/

theorem recognises_numeral : Recognises isNumeral IsQuantityWord where
  iff w := by
    unfold isNumeral IsQuantityWord
    rw [Bool.and_eq_true, List.all_eq_true, Bool.not_eq_true', List.isEmpty_eq_false_iff]
  solid w hw c hc := not_blank_of_isDigit (hw.2 c hc)

theorem recognises_heap : Recognises isHeap IsHeapWord where
  iff w := by
    unfold isHeap IsHeapWord
    rw [Bool.or_eq_true, beq_iff_eq, beq_iff_eq]
  solid w hw := by
    rcases hw with rfl | rfl <;> decide

/-- what is listed of each measure -/
theorem measure_facts : ∀ s ∈ measures.map Prod.fst, Solid s.toList ∧
    isNumeral s.toList = false ∧ isHeap s.toList = false ∧ isMeasure s.toList = true ∧
    (measures.lookup s).isSome = true ∧ measureKind? s.toList = measures.lookup s := by
  decide

theorem IsMeasureWord.facts {w : List Char} (h : IsMeasureWord w) : Solid w ∧
    isNumeral w = false ∧ isHeap w = false ∧ isMeasure w = true ∧
    (measures.lookup (String.ofList w)).isSome = true ∧
    measureKind? w = measures.lookup (String.ofList w) := by
  have hfacts := measure_facts _ h
  rw [String.toList_ofList] at hfacts
  exact hfacts

theorem recognises_measure : Recognises isMeasure IsMeasureWord where
  iff w := by
    constructor
    · intro h
      have hall : ∀ v ∈ measureWords, v ∈ measures.map Prod.fst := by decide
      obtain ⟨v, hv, rfl⟩ := List.mem_map.mp (List.contains_iff_mem.mp h)
      unfold IsMeasureWord
      rw [String.ofList_toList]
      exact hall v hv
    · intro h
      obtain ⟨-, -, -, htaken, -⟩ := h.facts
      exact htaken
  solid w hw := hw.facts.1

/-! ## the measures that are taken and the kinds that are known -/

theorem isMeasureWord_of_measureKind? {w : List Char} (h : (measureKind? w).isSome) :
    IsMeasureWord w := by
  unfold measureKind? at h
  split at h
  · rename_i hw
    have hall : ∀ v ∈ ["g".toList, "kg".toList, "pinch".toList, "pinches".toList],
        String.ofList v ∈ measures.map Prod.fst := by decide
    exact hall w (List.contains_iff_mem.mp hw)
  split at h
  · rename_i hw
    have hall : ∀ v ∈ ["ml".toList, "l".toList, "dash".toList, "dashes".toList],
        String.ofList v ∈ measures.map Prod.fst := by decide
    exact hall w (List.contains_iff_mem.mp hw)
  split at h
  · rename_i hw
    have hall : ∀ v ∈ ["cup".toList, "cups".toList, "teaspoon".toList, "teaspoons".toList,
        "tablespoon".toList, "tablespoons".toList],
        String.ofList v ∈ measures.map Prod.fst := by decide
    exact hall w (List.contains_iff_mem.mp hw)
  · cases h

/-- the words that are taken for measures are the ones of which the kind is known -/
theorem isMeasure_eq_isSome (w : List Char) : isMeasure w = (measureKind? w).isSome := by
  rw [Bool.eq_iff_iff, recognises_measure.iff]
  refine ⟨fun h => ?_, isMeasureWord_of_measureKind?⟩
  obtain ⟨-, -, -, -, hlisted, hkind⟩ := h.facts
  rw [hkind]
  exact hlisted

/-! ## the layout of a line -/

namespace Layout

/-- the words without the blanks after them -/
def cut (l : Layout) : IngredientLine where
  quantity? := l.quantity?.map Lead.word
  heap? := l.heap?.map Lead.word
  measure? := l.measure?.map Lead.word
  rest := l.rest

/-- a line is cut into the parts of its layout -/
theorem ofText_text {l : Layout} (h : l.Greedy) : IngredientLine.ofText l.text = l.cut := by
  unfold IngredientLine.ofText text
  rw [recognises_numeral.takeWord_leadText l.quantity? h.quantity]
  dsimp only
  unfold fromHeap
  rw [recognises_heap.takeWord_leadText l.heap? h.heap]
  dsimp only
  unfold fromMeasure
  rw [recognises_measure.takeWord_leadText l.measure? h.measure]
  rfl

/-- no line has two layouts -/
theorem text_inj {l l' : Layout} (h : l.Greedy) (h' : l'.Greedy) (he : l.text = l'.text) :
    l = l' := by
  obtain ⟨hquantity, he⟩ := recognises_numeral.leadText_inj h.quantity h'.quantity he
  obtain ⟨hheap, he⟩ := recognises_heap.leadText_inj h.heap h'.heap he
  obtain ⟨hmeasure, he⟩ := recognises_measure.leadText_inj h.measure h'.measure he
  exact Layout.ext hquantity hheap hmeasure he

end Layout

theorem exists_layout {cs : List Char} (h : '\n' ∉ cs) : ∃ l : Layout, l.text = cs ∧ l.Greedy := by
  obtain ⟨quantity?, r₁, rfl, hquantity⟩ := exists_leadText IsQuantityWord cs
  obtain ⟨heap?, r₂, rfl, hheap⟩ := exists_leadText IsHeapWord r₁
  obtain ⟨measure?, rest, rfl, hmeasure⟩ := exists_leadText IsMeasureWord r₂
  have hrest : '\n' ∉ rest := fun hmem =>
    h (List.mem_append_right _ (List.mem_append_right _ (List.mem_append_right _ hmem)))
  exact ⟨⟨quantity?, heap?, measure?, rest, hrest⟩, rfl, hquantity, hheap, hmeasure⟩

/-! ## what is read -/

namespace Layout

/-- a word that was taken for a measure is a known one, so there is no fault in it -/
theorem measuredKind_cut (l : Layout) : l.cut.measuredKind =
    .ok ((l.measure?.bind fun p => measures.lookup (String.ofList p.word)).getD .either) := by
  have hcut : l.cut.measure? = l.measure?.map Lead.word := rfl
  unfold IngredientLine.measuredKind
  rw [hcut]
  cases l.measure? with
  | none => rfl
  | some p =>
    have htaken : isMeasure p.word = true := (recognises_measure.iff _).mpr p.fits
    rw [isMeasure_eq_isSome] at htaken
    obtain ⟨kind, hkind⟩ := Option.isSome_iff_exists.mp htaken
    obtain ⟨-, -, -, -, -, hlisted⟩ := p.fits.facts
    dsimp only [Option.map_some, Option.bind_some]
    rw [← hlisted, hkind]
    rfl

theorem kind_cut (l : Layout) : l.cut.kind = .ok l.kind := by
  have hheap : l.cut.heap?.isSome = l.heap?.isSome := Option.isSome_map
  unfold IngredientLine.kind kind
  rw [l.measuredKind_cut, hheap]
  rfl

theorem quantityOf?_eq_none_iff (digits : List Char) :
    quantityOf? digits = none ↔ 0x7FFFFFFFFFFFFFFF < numberOf digits := by
  unfold quantityOf? Quantity.ofInt?
  rw [dite_eq_right_iff]
  constructor
  · intro h
    apply Nat.lt_of_not_le
    intro hle
    cases h (by omega)
  · intro hlt h
    omega

/-- the amount of a line: too much, or as much as is written -/
theorem value_cut (l : Layout) :
    (∃ p, l.quantity? = some p ∧ l.TooMuch ∧
      l.cut.value = .error (.quantityOutOfRange (String.ofList p.word))) ∨
    (¬ l.TooMuch ∧ ∃ value : Option Quantity, value.map Quantity.val = l.number?.map Int.ofNat ∧
      l.cut.value = .ok value) := by
  have hcut : l.cut.quantity? = l.quantity?.map Lead.word := rfl
  unfold IngredientLine.value TooMuch number?
  rw [hcut]
  cases l.quantity? with
  | none => exact .inr ⟨nofun, none, rfl, rfl⟩
  | some p =>
    dsimp only [Option.map_some]
    cases hq : quantityOf? p.word with
    | none =>
      have hmuch := (quantityOf?_eq_none_iff p.word).mp hq
      exact .inl ⟨p, rfl, ⟨_, rfl, hmuch⟩, rfl⟩
    | some q =>
      refine .inr ⟨?_, some q, ?_, rfl⟩
      · rintro ⟨n, hn, hmuch⟩
        obtain rfl := Option.some.inj hn
        rw [(quantityOf?_eq_none_iff p.word).mpr hmuch] at hq
        cases hq
      · exact congrArg some (Quantity.ofInt?_eq_some_iff.mp hq)

/-- the outcome of reading a line, by its layout -/
theorem readAs_ofLine {l : Layout} (h : l.Greedy) {line : String} (hline : l.text = line.toList) :
    l.ReadAs line (Ingredient.ofLine line) := by
  have hparts : IngredientLine.ofText line.toList = l.cut := hline ▸ ofText_text h
  unfold Ingredient.ofLine
  rw [hparts]
  dsimp only
  rw [l.kind_cut]
  show l.ReadAs line (if isBlankText l.rest = true then _ else _)
  by_cases hblank : isBlankText l.rest = true
  · have hname := (trim_eq_nil_iff _).mpr hblank
    rw [if_pos hblank]
    refine ⟨⟨fun _ => hname, fun _ => rfl⟩, fun hne => absurd hname hne,
      fun hne => absurd hname hne, ?_⟩
    intro fault hfault
    exact .inl (Except.error.inj hfault).symm
  · have hname : trim l.rest ≠ [] := fun hnil => hblank ((trim_eq_nil_iff _).mp hnil)
    rw [if_neg hblank]
    rcases l.value_cut with ⟨p, hp, hmuch, hvalue⟩ | ⟨hfits, value, hnumber, hvalue⟩
    · rw [hvalue]
      show l.ReadAs line (.error (.quantityOutOfRange (String.ofList p.word)))
      refine ⟨⟨nofun, fun hnil => absurd hnil hname⟩, fun _ => ⟨fun _ => hmuch, fun _ => ⟨_, rfl⟩⟩,
        fun _ hfits => absurd hmuch hfits, fun fault hfault => .inr ⟨p, hp, ?_⟩⟩
      exact (Except.error.inj hfault).symm
    · rw [hvalue]
      show l.ReadAs line (.ok ⟨String.ofList (trim l.rest), value, l.kind⟩)
      refine ⟨⟨nofun, fun hnil => absurd hnil hname⟩, fun _ => ⟨nofun, fun hmuch => ?_⟩,
        fun _ _ => ⟨_, rfl, rfl, hnumber, rfl⟩, nofun⟩
      exact absurd hmuch hfits

/-- a layout describes one ingredient -/
theorem Means.unique {l : Layout} {i j : Ingredient} (hi : l.Means i) (hj : l.Means j) : i = j := by
  have hinj : Function.Injective Quantity.val := by
    intro a b h
    cases a
    cases b
    cases h
    rfl
  obtain ⟨name, value, kind⟩ := i
  obtain ⟨name', value', kind'⟩ := j
  obtain rfl : name = name' := hi.name.trans hj.name.symm
  obtain rfl : kind = kind' := hi.kind.trans hj.kind.symm
  obtain rfl : value = value' := Option.map_injective hinj (hi.value.trans hj.value.symm)
  rfl

/-- no fault is about a measure -/
theorem ReadAs.not_unknown_measure {l : Layout} {line : String} {r : Except ReadFault Ingredient}
    (h : l.ReadAs line r) {fault : ReadFault} (hfault : r = .error fault) :
    ¬ "Unknown measure".toList <+: fault.message.toList := by
  rintro ⟨rest, hrest⟩
  rcases h.faults fault hfault with rfl | ⟨p, -, rfl⟩
  · unfold ReadFault.message at hrest
    simp [toString] at hrest
  · unfold ReadFault.message at hrest
    simp [toString] at hrest

theorem TooMuch.not_of_value {l : Layout} {value : Option Quantity}
    (hvalue : value.map Quantity.val = l.number?.map Int.ofNat) : ¬ l.TooMuch := by
  rintro ⟨n, hn, hmuch⟩
  rw [hn, Option.map_some, Option.map_eq_some_iff] at hvalue
  obtain ⟨q, -, hq⟩ := hvalue
  have hmost := q.most
  rw [hq, Int.ofNat_eq_natCast] at hmost
  omega

/-! ## lines that are written -/

/-- the name cannot be taken for a word that is left out -/
structure Plain (l : Layout) : Prop where
  quantity : l.quantity? = none → l.heap? = none → l.measure? = none →
    ¬ StartsWith IsQuantityWord l.rest
  heap : l.heap? = none → l.measure? = none → ¬ StartsWith IsHeapWord l.rest
  measure : l.measure? = none → ¬ StartsWith IsMeasureWord l.rest

/-- the words of one class are no words of another, so only the name could be taken for one -/
theorem Plain.greedy {l : Layout} (h : l.Plain) : l.Greedy where
  quantity hquantity hstart := by
    unfold fromHeap fromMeasure at hstart
    cases hheap : l.heap? with
    | some p =>
      rw [hheap] at hstart
      have hword := recognises_numeral.fits_of_startsWith (recognises_heap.solid _ p.fits) hstart
      rcases p.fits with hp | hp <;>
        exact absurd ((recognises_numeral.iff _).mpr hword) (by rw [hp]; decide)
    | none =>
      rw [hheap] at hstart
      cases hmeasure : l.measure? with
      | some p =>
        rw [hmeasure] at hstart
        obtain ⟨hsolid, hnot, -⟩ := p.fits.facts
        have hword := recognises_numeral.fits_of_startsWith hsolid hstart
        rw [(recognises_numeral.iff _).mpr hword] at hnot
        cases hnot
      | none =>
        rw [hmeasure] at hstart
        exact h.quantity hquantity hheap hmeasure hstart
  heap hheap hstart := by
    unfold fromMeasure at hstart
    cases hmeasure : l.measure? with
    | some p =>
      rw [hmeasure] at hstart
      obtain ⟨hsolid, -, hnot, -⟩ := p.fits.facts
      have hword := recognises_heap.fits_of_startsWith hsolid hstart
      rw [(recognises_heap.iff _).mpr hword] at hnot
      cases hnot
    | none =>
      rw [hmeasure] at hstart
      exact h.heap hheap hmeasure hstart
  measure := h.measure

end Layout

/-- the words that are taken for measures are the ones of which the kind is known.  Every line is
laid out in one way, with each word taken where it is there, and is read by this layout; so no fault
is about a measure.  And a line that is written with a trimmed name that cannot be taken for a word
left out is read as what was written. -/
theorem ofLine_by_layout :
    (∀ word, isMeasure word = (measureKind? word).isSome) ∧
    (∀ line : String, '\n' ∉ line.toList →
      ∃ l : Layout, (l.text = line.toList ∧ l.Greedy) ∧
        (∀ l' : Layout, l'.text = line.toList → l'.Greedy → l' = l) ∧
        l.ReadAs line (Ingredient.ofLine line) ∧
        ∀ fault, Ingredient.ofLine line = .error fault →
          ¬ "Unknown measure".toList <+: fault.message.toList) ∧
    ∀ (l : Layout) (value : Option Quantity), l.Plain → l.rest ≠ [] → trim l.rest = l.rest →
      value.map Quantity.val = l.number?.map Int.ofNat →
      Ingredient.ofLine (String.ofList l.text) = .ok ⟨String.ofList l.rest, value, l.kind⟩ := by
  refine ⟨isMeasure_eq_isSome, fun line hline => ?_, fun l value hplain hne htrim hvalue => ?_⟩
  · obtain ⟨l, htext, hgreedy⟩ := exists_layout hline
    have hread := Layout.readAs_ofLine hgreedy htext
    refine ⟨l, ⟨htext, hgreedy⟩, fun l' htext' hgreedy' => ?_, hread, fun fault hfault => ?_⟩
    · exact Layout.text_inj hgreedy' hgreedy (htext'.trans htext.symm)
    · exact hread.not_unknown_measure hfault
  · have hread := Layout.readAs_ofLine hplain.greedy
      (String.toList_ofList.symm : l.text = (String.ofList l.text).toList)
    have hname : trim l.rest ≠ [] := by
      rw [htrim]
      exact hne
    obtain ⟨i, hi, hmeans⟩ := hread.read hname (Layout.TooMuch.not_of_value hvalue)
    rw [hi]
    exact congrArg Except.ok (hmeans.unique ⟨congrArg String.ofList htrim.symm, hvalue, rfl⟩)

/-- after the measure `g` the word `level` is part of the name -/
theorem ofLine_by_layout_grams :
    (∃ l : Layout, l.text = "12 g level ground".toList ∧ l.Greedy) ∧
    Ingredient.ofLine "12 g level ground" =
      .ok ⟨"level ground", some ⟨12, by decide, by decide⟩, .dry⟩ := by
  constructor
  · obtain ⟨l, hl, -⟩ := ofLine_by_layout.2.1 "12 g level ground" (by decide)
    exact ⟨l, hl⟩
  · have hquantity : IsQuantityWord "12".toList := (recognises_numeral.iff _).mp (by decide)
    have hmeasure : IsMeasureWord "g".toList := (recognises_measure.iff _).mp (by decide)
    have hname : "level ground".toList ≠ [] := by decide
    have htrim : trim "level ground".toList = "level ground".toList := by decide
    have hnumber : some 12 = some (Int.ofNat (numberOf "12".toList)) := by decide
    exact ofLine_by_layout.2.2
      ⟨some ⟨_, ' ', hquantity, by decide⟩, none, some ⟨_, ' ', hmeasure, by decide⟩,
        "level ground".toList, by decide⟩ (some ⟨12, by decide, by decide⟩)
      ⟨nofun, nofun, nofun⟩ hname htrim hnumber

end Cookery
