import Cookery.Proofs.Ingredient.Lines
import Cookery.Proofs.Reading.Sections
import Cookery.Proofs.Recipe.Documents
import Cookery.Proofs.Statement.Sentences
import Cookery.Proofs.Text.Lines

/-!
# What a document can say

Every document of the grammar, on lines that hold no line feed, is readable: its names, numbers and
statements are such as a text can spell out.

* `Preparation.Readable`, `Document.Readable`   the parts, each of them readable;
* `PreparationForm.readable`, `DocumentForm.readable`   so are the documents of the grammar.
-/

namespace Cookery

structure Preparation.Readable (p : Preparation) : Prop where
  title_line : '\n' ∉ p.title.toList
  stored : ∀ name i, p.ingredients.find? name = some i → i.name = name ∧ i.Readable
  method : ∀ st ∈ p.method, st.Readable
  oven : ∀ t ∈ p.oven, t < ovenBound

structure Document.Readable (d : Document) : Prop where
  main : d.main.Readable
  auxiliaries : ∀ p ∈ d.auxiliaries, p.Readable ∧ ¬ IsBlankLine p.title
  titled : d.Titled
  servings : d.servings ≤ countMax

/-! ## the parts of a preparation -/

/-- the values that are read are those of the lines, one by one -/
theorem exists_of_map_eq_ok {α β ε : Type} {f : α → Except ε β} {l : List α} {ys : List β}
    (h : l.map f = ys.map .ok) {y : β} (hy : y ∈ ys) : ∃ x ∈ l, f x = .ok y := by
  have hmem : Except.ok y ∈ l.map f := by
    rw [h]
    exact List.mem_map_of_mem hy
  exact List.mem_map.mp hmem

theorem IngredientRun.readable {items : List String} {pantry : Pantry}
    (h : IngredientRun items pantry) (hunbroken : Unbroken items) {name : String} {i : Ingredient}
    (hfind : pantry.find? name = some i) : i.name = name ∧ i.Readable := by
  obtain ⟨_, is, hread, hnames, rfl⟩ := h
  rw [ofList_eq_storeBy] at hfind
  rcases (Table.find?_storeBy_eq_some_iff hnames _ _ _).mp hfind with ⟨hi, hname⟩ | ⟨_, hnone⟩
  · obtain ⟨l, hl, hline⟩ := exists_of_map_eq_ok hread hi
    exact ⟨hname, readable_of_ofLine hline (hunbroken l hl)⟩
  · cases hnone

theorem MethodRun.readable {steps : List String} {method : List Statement}
    (h : MethodRun steps method) (hunbroken : Unbroken steps) {st : Statement} (hst : st ∈ method) :
    st.Readable := by
  obtain ⟨cs, hcs, hread⟩ := exists_of_map_eq_ok h.2 hst
  obtain ⟨l, hl, hsentence⟩ := List.mem_flatMap.mp hcs
  exact readable_of_ofSentence (hunbroken l hl) hsentence hread

theorem ovenLine?_lt {line : String} {t : Nat} (h : ovenLine? line = some (some t)) :
    t < ovenBound := by
  unfold ovenLine? at h
  obtain ⟨r, _, h⟩ := Option.bind_eq_some_iff.mp h
  obtain ⟨⟨ds, r'⟩, _, h⟩ := Option.bind_eq_some_iff.mp h
  obtain ⟨_, _, h⟩ := Option.bind_eq_some_iff.mp h
  have ht := Option.some.inj h
  split at ht
  · rename_i hlt
    cases ht
    exact hlt
  · cases ht

theorem lastOven_lt {ls : List String} {t : Nat} (h : lastOven ls = some t) : t < ovenBound := by
  unfold lastOven at h
  cases hlast : (ls.filterMap ovenLine?).getLast? with
  | none =>
    rw [hlast] at h
    cases h
  | some t? =>
    rw [hlast] at h
    obtain rfl : t? = some t := h
    obtain ⟨l, _, hl⟩ := List.mem_filterMap.mp (List.mem_of_mem_getLast? hlast)
    exact ovenLine?_lt hl

/-! ## preparations and documents -/

section
variable {title : String} {ls between rest : List String} {p : Preparation}

theorem PreparationForm.rest_subset (h : PreparationForm title ls p between rest) : rest ⊆ ls := by
  cases h
  intro l hl
  simp [hl]

theorem PreparationForm.readable (h : PreparationForm title ls p between rest)
    (htitle : '\n' ∉ title.toList) (hunbroken : Unbroken ls) : p.Readable := by
  obtain ⟨_, items_run, _, _, steps_run, _⟩ := h
  rename_i lead items steps pantry method
  refine ⟨htitle, fun name i hfind => ?_, fun st hst => ?_, fun t ht => lastOven_lt ht⟩
  · refine items_run.readable (hunbroken.of_subset fun l hl => ?_) hfind
    simp [hl]
  · refine steps_run.readable (hunbroken.of_subset fun l hl => ?_) hst
    simp [hl]

end

theorem AuxiliariesForm.readable {ls : List String} {ps : List Preparation}
    (h : AuxiliariesForm ls ps) (hunbroken : Unbroken ls) :
    ∀ p ∈ ps, p.Readable ∧ ¬ IsBlankLine p.title := by
  induction h with
  | none => exact List.forall_mem_nil _
  | @more title lines between blanks rest p ps title_text first blanks_blank others ih =>
    have hlines : Unbroken lines := hunbroken.of_subset (List.subset_cons_self _ _)
    have hrest : Unbroken rest := (hlines.of_subset first.rest_subset).of_subset
      (List.subset_append_right _ _)
    intro q hq
    rcases List.mem_cons.mp hq with rfl | hq
    · have htitle := first.title_eq
      have hread := first.readable (hunbroken title List.mem_cons_self) hlines
      exact ⟨hread, htitle ▸ title_text⟩
    · exact ih hrest q hq

theorem EarlyCount.servings_le {between : List String} {early? : Option Nat}
    (h : EarlyCount between early?) : ∀ n ∈ early?, n ≤ countMax := by
  cases h with
  | found _ count =>
    intro n hn
    obtain rfl := Option.some.inj hn
    obtain ⟨ds, _, _, _, rfl⟩ := count
    exact countOf_le ds
  | absent _ _ => nofun

theorem LateCount.servings_le {early? : Option Nat} {count : List String} {servings : Nat}
    (h : LateCount early? count servings) (hearly : ∀ n ∈ early?, n ≤ countMax) :
    servings ≤ countMax := by
  cases h with
  | before servings => exact hearly servings rfl
  | here count =>
    obtain ⟨ds, _, _, _, rfl⟩ := count
    exact countOf_le ds

theorem DocumentForm.readable {After : List String → Prop} {ls : List String} {d : Document}
    (h : DocumentForm After ls d) (hunbroken : Unbroken ls) : d.Readable := by
  cases h with
  | @mk title lines _ _ _ _ rest _ _ _ _ main_form early _ late _ others titles =>
    have hlines : Unbroken lines := hunbroken.of_subset (List.subset_cons_self _ _)
    have hrest : Unbroken rest := by
      refine hlines.of_subset fun l hl => main_form.rest_subset ?_
      simp [hl]
    have hmain := main_form.readable (hunbroken title List.mem_cons_self) hlines
    exact ⟨hmain, others.readable hrest, titles, late.servings_le early.servings_le⟩

end Cookery
