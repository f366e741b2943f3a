import Cookery.Proofs.Reading.Grammar
import Cookery.Proofs.Tables
import Cookery.Proofs.Text.Numerals

/-!
# The parts of a preparation are read by their grammar

For each part two statements: the reader reads every piece of the grammar, up to where it ends
(`skipTo_append`, `readIngredients_append`, `readMethod_append`), and what the reader has read is
such a piece (`skipTo_eq_ok`, `readIngredients_eq_ok`, `readMethod_eq_ok`).
-/

namespace Cookery

/-! ## kinds of lines -/

theorem isBlankText_iff (line : String) : isBlankText line.toList = true ↔ IsBlankLine line :=
  List.all_eq_true

theorem heading_not_blank (h : Heading) : ¬ IsBlankLine h.text := by
  rw [← isBlankText_iff]
  cases h <;> decide

theorem isBlankLine_empty : IsBlankLine "" := by
  intro c hc
  cases hc

theorem ofText_eq_blank_iff (line : String) : LineKind.ofText line = .blank ↔ IsBlankLine line := by
  unfold LineKind.ofText
  split
  · rename_i h
    exact ⟨nofun, fun hb => absurd (h ▸ hb) (heading_not_blank _)⟩
  · split
    · rename_i h
      exact ⟨nofun, fun hb => absurd (h ▸ hb) (heading_not_blank _)⟩
    · rw [← isBlankText_iff]
      split
      · rename_i hb
        exact ⟨fun _ => hb, fun _ => rfl⟩
      · rename_i hb
        exact ⟨nofun, fun h => absurd h hb⟩

theorem ofText_eq_text_iff (line : String) : LineKind.ofText line = .text ↔ IsTextLine line := by
  unfold LineKind.ofText IsTextLine
  split
  · rename_i h
    exact ⟨nofun, fun ht => absurd h (ht.2 _)⟩
  · rename_i h₁
    split
    · rename_i h
      exact ⟨nofun, fun ht => absurd h (ht.2 _)⟩
    · rename_i h₂
      rw [← isBlankText_iff]
      split
      · rename_i hb
        exact ⟨nofun, fun ht => absurd hb ht.1⟩
      · rename_i hb
        refine ⟨fun _ => ⟨hb, fun h => ?_⟩, fun _ => rfl⟩
        cases h with
        | ingredients => exact h₁
        | method => exact h₂

theorem servesLine?_eq_some_iff (line : String) (n : Nat) :
    servesLine? line = some n ↔ ServesLine line n := by
  unfold servesLine? ServesLine
  constructor
  · intro h
    obtain ⟨r, hr, h⟩ := Option.bind_eq_some_iff.mp h
    obtain ⟨⟨ds, r'⟩, hd, h⟩ := Option.bind_eq_some_iff.mp h
    obtain ⟨_, _, hne⟩ := digitRun?_eq_some hd
    dsimp only at h
    split at h
    · rename_i hdot
      obtain rfl := Option.some.inj h
      refine ⟨ds, hne, isDigit_of_digitRun? hd, ?_, rfl⟩
      rw [after?_eq_some_iff.mp hr, append_of_digitRun? hd, hdot, List.append_assoc]
    · cases h
  · rintro ⟨ds, hne, hds, hl, rfl⟩
    have hr : after? "Serves ".toList line.toList = some (ds ++ ['.']) := by
      rw [hl, List.append_assoc, after?_append]
    have hd := digitRun?_append hne hds (noDigitFirst_cons (by decide : isDigit '.' = false) [])
    rw [hr]
    show ((digitRun? (ds ++ ['.'])).bind _) = _
    rw [hd]
    rfl

theorem endsMethod_iff (line : String) : endsMethod line = true ↔ EndsMethod line := by
  unfold endsMethod EndsMethod
  rw [Bool.or_eq_true, decide_eq_true_eq, ofText_eq_blank_iff, Option.isSome_iff_exists]
  simp only [servesLine?_eq_some_iff]

/-- a letter that neither a blank line nor the line of a serving count has -/
theorem not_endsMethod_of_t {l : String} (ht : 't' ∈ l.toList) : ¬ EndsMethod l := by
  rintro (hblank | ⟨n, ds, _, hdigits, hline, _⟩)
  · exact absurd (hblank 't' ht) (by decide)
  · rw [hline] at ht
    rcases List.mem_append.mp ht with ht | ht
    · rcases List.mem_append.mp ht with ht | ht
      · exact absurd ht (by decide)
      · exact absurd (hdigits 't' ht) (by decide)
    · exact absurd ht (by decide)

theorem servesLine_ne_heading {line : String} {n : Nat} (h : ServesLine line n) (g : Heading) :
    line ≠ g.text := by
  rintro rfl
  obtain ⟨ds, _, _, hl, _⟩ := h
  have hfirst : g.text.toList.head? = some 'S' := by rw [hl]; rfl
  cases g <;> exact absurd hfirst (by decide)

/-! ## lines up to a heading -/

theorem skipTo_append {heading : Heading} {lead : List String}
    (hlead : ∀ l ∈ lead, l ≠ heading.text) (oven : Option Nat) (read : Nat) (rest : List String) :
    skipTo heading oven read (lead ++ heading.text :: rest) =
      .ok ((lead.filterMap ovenLine?).getLast?.getD oven, ⟨read + lead.length + 1, rest⟩) := by
  induction lead generalizing oven read with
  | nil =>
    rw [List.nil_append, skipTo, if_pos rfl]
    rfl
  | cons l lead ih =>
    have hl := hlead l List.mem_cons_self
    rw [List.cons_append, skipTo, if_neg hl, ih fun k hk => hlead k (List.mem_cons_of_mem _ hk)]
    have hn : read + 1 + lead.length + 1 = read + (l :: lead).length + 1 := by
      rw [List.length_cons]
      omega
    rw [hn]
    cases ho : ovenLine? l with
    | none => rw [List.filterMap_cons_none ho, Option.getD_none]
    | some t =>
      rw [List.filterMap_cons_some ho, Option.getD_some, List.getLast?_cons, Option.getD_some]

theorem skipTo_eq_ok {heading : Heading} {oven o : Option Nat} {read : Nat} {ls : List String}
    {c : Cursor} (h : skipTo heading oven read ls = .ok (o, c)) :
    ∃ lead, ls = lead ++ heading.text :: c.rest ∧ ∀ l ∈ lead, l ≠ heading.text := by
  induction ls generalizing oven read with
  | nil => cases h
  | cons l ls ih =>
    rw [skipTo] at h
    split at h
    · rename_i hl
      cases h
      exact ⟨[], by rw [hl]; rfl, List.forall_mem_nil _⟩
    · rename_i hl
      obtain ⟨lead, rfl, hlead⟩ := ih h
      refine ⟨l :: lead, rfl, fun k hk => ?_⟩
      rcases List.mem_cons.mp hk with rfl | hk
      · exact hl
      · exact hlead k hk

/-! ## lists of ingredients -/

theorem ofList_eq_storeBy (is : List Ingredient) :
    Table.ofList (is.map fun i => (i.name, i)) = Table.storeBy Ingredient.name .empty is := by
  unfold Table.ofList Table.storeBy
  rw [List.foldl_map]

theorem readIngredients_append {items rest : List String} {is : List Ingredient}
    (htext : ∀ l ∈ items, IsTextLine l) (hread : items.map Ingredient.ofLine = is.map .ok)
    (hnames : (is.map Ingredient.name).Nodup) (hrest : ∀ l ∈ rest.head?, ¬ IsTextLine l)
    (pantry : Pantry) (hnew : ∀ i ∈ is, pantry.contains i.name = false) (read : Nat) :
    readIngredients pantry read (items ++ rest) =
      .ok (Table.storeBy Ingredient.name pantry is, ⟨read + items.length, rest⟩) := by
  induction items generalizing is pantry read with
  | nil =>
    obtain rfl : is = [] := List.map_eq_nil_iff.mp hread.symm
    cases rest with
    | nil => rfl
    | cons l rest =>
      have hl : LineKind.ofText l ≠ .text := fun h =>
        hrest l rfl ((ofText_eq_text_iff l).mp h)
      rw [List.nil_append, readIngredients, if_neg hl]
      rfl
  | cons l items ih =>
    cases is with
    | nil => cases hread
    | cons i is =>
      rw [List.map_cons, List.map_cons, List.cons.injEq] at hread
      obtain ⟨hi, his⟩ := hread
      rw [List.map_cons, List.nodup_cons] at hnames
      have hl := (ofText_eq_text_iff l).mpr (htext l List.mem_cons_self)
      have hn := hnew i List.mem_cons_self
      have hnew' : ∀ j ∈ is, (pantry.insert i.name i).contains j.name = false := by
        intro j hj
        have hne : j.name ≠ i.name := fun h =>
          hnames.1 (h ▸ List.mem_map_of_mem hj)
        rw [Table.contains_insert, hnew j (List.mem_cons_of_mem _ hj), decide_eq_false hne]
        rfl
      rw [List.cons_append, readIngredients, if_pos hl, hi]
      show (if pantry.contains i.name = true then _ else _) = _
      rw [hn, if_neg Bool.false_ne_true,
        ih (fun k hk => htext k (List.mem_cons_of_mem _ hk)) his hnames.2 _ hnew']
      have he : read + 1 + items.length = read + (l :: items).length := by
        rw [List.length_cons]
        omega
      rw [he]
      rfl

theorem readIngredients_eq_ok {pantry p : Pantry} {read : Nat} {ls : List String} {c : Cursor}
    (h : readIngredients pantry read ls = .ok (p, c)) :
    ∃ items is, ls = items ++ c.rest ∧ (∀ l ∈ items, IsTextLine l) ∧
      (∀ l ∈ c.rest.head?, ¬ IsTextLine l) ∧ items.map Ingredient.ofLine = is.map .ok ∧
      (is.map Ingredient.name).Nodup ∧ (∀ i ∈ is, pantry.contains i.name = false) ∧
      p = Table.storeBy Ingredient.name pantry is := by
  induction ls generalizing pantry read with
  | nil =>
    cases h
    exact ⟨[], [], rfl, nofun, nofun, rfl, List.nodup_nil,
      fun _ hi => absurd hi List.not_mem_nil, rfl⟩
  | cons l ls ih =>
    rw [readIngredients] at h
    split at h
    · rename_i hl
      split at h
      · cases h
      · rename_i i hi
        split at h
        · cases h
        · rename_i hn
          obtain ⟨items, is, rfl, htext, hrest, hread, hnames, hnew, rfl⟩ := ih h
          have hother : ∀ j ∈ is, j.name ≠ i.name ∧ pantry.contains j.name = false := by
            intro j hj
            have hj' := hnew j hj
            rw [Table.contains_insert, Bool.or_eq_false_iff, decide_eq_false_iff_not] at hj'
            exact hj'
          refine ⟨l :: items, i :: is, rfl, ?_, hrest, ?_, ?_, ?_, rfl⟩
          · intro k hk
            rcases List.mem_cons.mp hk with rfl | hk
            · exact (ofText_eq_text_iff k).mp hl
            · exact htext k hk
          · rw [List.map_cons, List.map_cons, hi, hread]
          · rw [List.map_cons, List.nodup_cons]
            refine ⟨fun hmem => ?_, hnames⟩
            obtain ⟨j, hj, he⟩ := List.mem_map.mp hmem
            exact (hother j hj).1 he
          · intro j hj
            rcases List.mem_cons.mp hj with rfl | hj
            · exact Bool.eq_false_iff.mpr hn
            · exact (hother j hj).2
    · rename_i hl
      cases h
      refine ⟨[], [], rfl, nofun, fun k hk => ?_, rfl, List.nodup_nil,
        fun _ hi => absurd hi List.not_mem_nil, rfl⟩
      obtain rfl : l = k := Option.some.inj hk
      exact fun ht => hl ((ofText_eq_text_iff l).mpr ht)

/-! ## methods -/

theorem ofLine_eq_ok_iff (line : String) (ss : List Statement) :
    Statement.ofLine line = .ok ss ↔
      (sentences line.toList).map Statement.ofSentence = ss.map .ok := by
  unfold Statement.ofLine
  exact mapM_eq_ok_iff

theorem readMethod_append {steps rest : List String} {method : List Statement}
    (hrun : MethodRun steps method) (hrest : ∀ l ∈ rest.head?, EndsMethod l) (read : Nat) :
    readMethod read (steps ++ rest) = .ok (method, ⟨read + steps.length, rest⟩) := by
  obtain ⟨hsteps, hread⟩ := hrun
  induction steps generalizing method read with
  | nil =>
    obtain rfl : method = [] := List.map_eq_nil_iff.mp hread.symm
    cases rest with
    | nil => rfl
    | cons l rest =>
      have hl := (endsMethod_iff l).mpr (hrest l rfl)
      rw [List.nil_append, readMethod, if_pos hl]
      rfl
  | cons l steps ih =>
    have hl : ¬ endsMethod l = true := fun h =>
      hsteps l List.mem_cons_self ((endsMethod_iff l).mp h)
    rw [List.flatMap_cons, List.map_append] at hread
    -- the statements of the first line are the start of the method
    obtain ⟨ss, more, rfl, hss, hmore⟩ := List.append_eq_map_iff.mp hread
    have hline := (ofLine_eq_ok_iff l ss).mpr hss.symm
    rw [List.cons_append, readMethod, if_neg hl, hline]
    dsimp only
    rw [ih (read + 1) (fun k hk => hsteps k (List.mem_cons_of_mem _ hk)) hmore.symm]
    have he : read + 1 + steps.length = read + (l :: steps).length := by
      rw [List.length_cons]
      omega
    rw [he]

theorem readMethod_eq_ok {read : Nat} {ls : List String} {method : List Statement} {c : Cursor}
    (h : readMethod read ls = .ok (method, c)) :
    ∃ steps, ls = steps ++ c.rest ∧ MethodRun steps method ∧ ∀ l ∈ c.rest.head?, EndsMethod l := by
  induction ls generalizing read method with
  | nil =>
    cases h
    exact ⟨[], rfl, ⟨nofun, rfl⟩, nofun⟩
  | cons l ls ih =>
    rw [readMethod] at h
    split at h
    · rename_i hl
      cases h
      refine ⟨[], rfl, ⟨nofun, rfl⟩, fun k hk => ?_⟩
      obtain rfl : l = k := Option.some.inj hk
      exact (endsMethod_iff l).mp hl
    · rename_i hl
      split at h
      · cases h
      · rename_i ss hline
        split at h
        · cases h
        · rename_i more c' hmore
          cases h
          obtain ⟨steps, rfl, ⟨hsteps, hread⟩, hrest⟩ := ih hmore
          refine ⟨l :: steps, rfl, ⟨fun k hk => ?_, ?_⟩, hrest⟩
          · rcases List.mem_cons.mp hk with rfl | hk
            · exact fun he => hl ((endsMethod_iff k).mpr he)
            · exact hsteps k hk
          · rw [List.flatMap_cons, List.map_append, hread, (ofLine_eq_ok_iff l ss).mp hline,
              List.map_append]

/-! ## blank lines -/

theorem skipBlank_rest (c : Cursor) :
    c.skipBlank.rest = c.rest.dropWhile (LineKind.ofText · = .blank) := by
  unfold Cursor.skipBlank
  exact Cursor.skipWhile_rest _ _ _

theorem skipBlank_eq_ok (c : Cursor) :
    ∃ blanks, c.rest = blanks ++ c.skipBlank.rest ∧ AllBlank blanks ∧
      ∀ l ∈ c.skipBlank.rest.head?, ¬ IsBlankLine l := by
  rw [skipBlank_rest]
  refine ⟨c.rest.takeWhile (LineKind.ofText · = .blank), List.takeWhile_append_dropWhile.symm,
    fun l hl => ?_, fun l hl hb => ?_⟩
  · have h := of_mem_takeWhile hl
    exact (ofText_eq_blank_iff l).mp (of_decide_eq_true h)
  · have h := not_of_mem_head_dropWhile hl
    exact of_decide_eq_false h ((ofText_eq_blank_iff l).mpr hb)

theorem skipWhile_run {p : String → Bool} {a r : List String} (ha : ∀ l ∈ a, p l = true)
    (hr : ∀ l ∈ r.head?, p l = false) (read : Nat) :
    Cursor.skipWhile p read (a ++ r) = ⟨read + a.length, r⟩ := by
  induction a generalizing read with
  | nil =>
    cases r with
    | nil => rfl
    | cons l r =>
      have hl : p l = false := hr l rfl
      rw [List.nil_append, Cursor.skipWhile, hl]
      rfl
  | cons l a ih =>
    have hl := ha l List.mem_cons_self
    rw [List.cons_append, Cursor.skipWhile, if_pos hl,
      ih (fun k hk => ha k (List.mem_cons_of_mem _ hk)), List.length_cons]
    congr 1
    omega

theorem skipBlank_append {blanks rest : List String} (hb : AllBlank blanks)
    (hr : ∀ l ∈ rest.head?, ¬ IsBlankLine l) (read : Nat) :
    Cursor.skipBlank ⟨read, blanks ++ rest⟩ = ⟨read + blanks.length, rest⟩ := by
  unfold Cursor.skipBlank
  refine skipWhile_run (fun l hl => ?_) (fun l hl => ?_) read
  · exact decide_eq_true ((ofText_eq_blank_iff l).mpr (hb l hl))
  · exact decide_eq_false fun h => hr l hl ((ofText_eq_blank_iff l).mp h)

theorem skipBlank_of_not_blank {rest : List String} (hr : ∀ l ∈ rest.head?, ¬ IsBlankLine l)
    (read : Nat) : Cursor.skipBlank ⟨read, rest⟩ = ⟨read, rest⟩ :=
  skipBlank_append (List.forall_mem_nil _) hr read

/-! ## titles -/

theorem PreparationForm.title_eq {title : String} {ls between rest : List String}
    {p : Preparation} (h : PreparationForm title ls p between rest) : p.title = title := by
  cases h
  rfl

end Cookery
