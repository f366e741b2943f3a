import Cookery.Proofs.Cooking.Stages
import Cookery.Proofs.Cooking.Structured
import Cookery.Proofs.Kitchen.Contents
import Cookery.Proofs.Reading.Acceptance

/-!
# Furnished recipes go wrong in few ways

A method is furnished when every ingredient that it names is in the table with a value.  While it
is cooked the named ingredients keep a value, and so has all that lies in the kitchen.  What can
still go wrong: nothing to combine with, an overflow, the limit of a loop, and at the end an
ingredient that is not a character.

* `Statement.names`        the ingredients that a statement names;
* `Furnished`              the invariant, `Statement.keeps_furnished` that every statement keeps it;
* `Error.IsTolerated`      what can still go wrong;
* `Recipe.run_eq_error`    the two places where a recipe fails;
* `run_error_of_furnished` the two together, for recipes that were read.
-/

namespace Cookery

/-! ## names and values -/

def Statement.names : Statement → List String
  | .act action => action.ingredient?.toList
  | .loopStart _ ingredient => [ingredient]
  | .loopEnd _ ingredient? => ingredient?.toList

def Ingredient.HasValue (i : Ingredient) : Prop := i.value ≠ none

def Pantry.Supplies (p : Pantry) (name : String) : Prop := ∃ i, p.find? name = some i ∧ i.HasValue

/-- the names are in the table with a value, and all that lies in the kitchen has one -/
structure Furnished (names : List String) (s : Scene) : Prop where
  kitchen : s.1.All Ingredient.HasValue
  pantry : ∀ name ∈ names, Pantry.Supplies s.2 name

/-- what can go wrong in a furnished scene -/
def Error.IsTolerated : Error → Prop
  | .runtime (.combineIntoEmpty _ _) => True
  | .runtime (.combineOverflow _) => True
  | .runtime (.decrementOverflow _) => True
  | .loopLimit _ _ => True
  | .unrenderable _ (.notLiquid _) => True
  | .unrenderable _ (.notCharacter _) => True
  | _ => False

theorem Error.IsTolerated.cause_eq {e : Error} (h : e.IsTolerated) : e.cause = e := by
  cases e with
  | inContext inner context => exact h.elim
  | _ => rfl

/-! ## steps in a furnished scene -/

section
variable {names : List String}

theorem loopCheck_ne_error {ingredient : String} {p : Pantry} {e : Error}
    (h : Pantry.Supplies p ingredient) : loopCheck ingredient p ≠ .error e := by
  intro he
  obtain ⟨i, hi, hv⟩ := h
  rcases loopCheck_eq_error he with ⟨hn, _⟩ | ⟨j, hj, hn, _⟩
  · rw [hi] at hn
    cases hn
  · rw [hi] at hj
    cases hj
    exact hv hn

theorem countDown_tolerated {counter : String} {p : Pantry} {e : Error}
    (h : Pantry.Supplies p counter) (he : countDown counter p = .error e) : e.IsTolerated := by
  obtain ⟨i, hi, hv⟩ := h
  rcases countDown_eq_error he with ⟨hn, _⟩ | ⟨j, hj, hn, _⟩ | rfl
  · rw [hi] at hn
    cases hn
  · rw [hi] at hj
    cases hj
    exact absurd hn hv
  · trivial

/-- counting down leaves every name where it is, with a value -/
theorem supplies_countDown {counter name : String} {p p' : Pantry}
    (h : Pantry.Supplies p name) (hc : countDown counter p = .ok p') : Pantry.Supplies p' name := by
  obtain ⟨i, hi, hv⟩ := h
  obtain ⟨j, q, less, _, _, _, rfl⟩ := countDown_eq_ok hc
  unfold Pantry.Supplies
  rw [Table.find?_modify]
  by_cases hn : name = counter
  · rw [if_pos hn, hi]
    exact ⟨_, rfl, nofun⟩
  · rw [if_neg hn]
    exact ⟨i, hi, hv⟩

theorem countsDown_keeps_furnished {counter : String} (h : counter ∈ names) :
    (CountsDown counter).Keeps (Furnished names) Error.IsTolerated := by
  refine countsDown_keeps (fun s e hs he => ?_) (fun s p hs hc => ?_)
  · exact countDown_tolerated (hs.pantry counter h) he
  · exact ⟨hs.kitchen, fun name hname => supplies_countDown (hs.pantry name hname) hc⟩

theorem effect_tolerated {a : Action} {k k' : Kitchen} {p : Pantry} {e : Error}
    (hk : k.All Ingredient.HasValue) (hp : ∀ name ∈ a.ingredient?, Pantry.Supplies p name)
    (heff : a.effect k p = (.error e, k')) : e.IsTolerated := by
  obtain ⟨name, hname, hcases⟩ := Action.effect_error heff
  obtain ⟨i, hi, hv⟩ := hp name hname
  rcases hcases with ⟨hn, _, _⟩ | ⟨n, j, _, hj, ⟨hn, _, _⟩ | ⟨factor, fault, _, hc, _, rfl⟩⟩
  · rw [hi] at hn
    cases hn
  · rw [hi] at hj
    cases hj
    exact absurd hn hv
  · rcases combined_eq_error hc with rfl | ⟨top, htop, hn, _⟩ | rfl
    · trivial
    · have hmem := List.mem_of_mem_head? htop
      exact absurd hn (hk.bowls n top hmem)
    · trivial

theorem Statement.keeps_furnished (limit : Nat) (st : Statement) (h : ∀ n ∈ st.names, n ∈ names) :
    st.Keeps limit (Furnished names) Error.IsTolerated := by
  match st with
  | .act action =>
    refine Action.does_keeps fun k p r k' hs heff => ?_
    have hp : ∀ name ∈ action.ingredient?, Pantry.Supplies p name := by
      intro name hname
      exact hs.pantry name (h name (Option.mem_toList.mpr hname))
    have hk' : k'.All Ingredient.HasValue := by
      refine hs.kitchen.effect (fun _ hi => hi) (fun name hname i hi => ?_) heff
      obtain ⟨j, hj, hv⟩ := hp name hname
      rw [show p.find? name = some i from hi] at hj
      cases hj
      exact ⟨hv, fun _ _ => nofun⟩
    refine ⟨⟨hk', hs.pantry⟩, fun e he => ?_⟩
    subst he
    exact effect_tolerated hs.kitchen hp heff
  | .loopStart verb ingredient =>
    have hmem : ingredient ∈ names := h ingredient List.mem_cons_self
    refine ⟨fun s hs e he => ?_, trivial, countsDown_keeps_furnished hmem⟩
    exact absurd he (loopCheck_ne_error (hs.pantry ingredient hmem))
  | .loopEnd _ none => trivial
  | .loopEnd _ (some counter) =>
    exact countsDown_keeps_furnished (h counter List.mem_cons_self)

end

/-! ## runs -/

/-- a closed block that is furnished keeps the scene so and fails in the tolerated ways -/
theorem runMethod_furnished {b : Block} (hclosed : b.Closed) {kitchen : Kitchen} {pantry : Pantry}
    (h : Furnished (b.flatten.flatMap Statement.names) (kitchen, pantry)) (limit : Nat) :
    (runMethod limit b.flatten kitchen pantry).2.kitchen.All Ingredient.HasValue ∧
      ∀ e, (runMethod limit b.flatten kitchen pantry).1 = .error e → e.IsTolerated := by
  have hkeeps : (b.Does limit).Keeps (Furnished (b.flatten.flatMap Statement.names))
      Error.IsTolerated := by
    refine b.does_keeps fun st hst => st.keeps_furnished limit fun n hn => ?_
    exact List.mem_flatMap.mpr ⟨st, hst, hn⟩
  unfold runMethod
  rw [follow_flatten limit b hclosed]
  have hdoes := (execute_realizes limit b ⟨kitchen, pantry, []⟩ _ _).mpr ⟨rfl, rfl⟩
  obtain ⟨hscene, herror⟩ := hkeeps _ _ _ h hdoes
  exact ⟨hscene.kitchen, herror⟩

theorem serve_tolerated {k : Kitchen} (hk : k.All Ingredient.HasValue) {servings : Nat} {e : Error}
    (h : (k.serve servings).1 = .error e) : e.IsTolerated := by
  obtain ⟨d, hd, i, hi, he⟩ := Kitchen.exists_of_serve_eq_error h
  have hv : i.HasValue := hk.of_mem_dishesBelow hd i hi
  unfold Ingredient.toChar Ingredient.render at he
  split at he
  · cases he
    trivial
  · split at he
    · rename_i hn
      exact absurd hn hv
    · split at he
      · cases he
      · cases he
        trivial

/-- a recipe fails because its main method does, or else because of what it serves -/
theorem Recipe.run_eq_error {r : Recipe} {main : Preparation} (hmain : r.main? = some main)
    {limit : Nat} {e : Error} (h : (r.run limit).result = .error e) :
    (∃ cause b, runMethod limit main.method .empty main.ingredients = (.error cause, b) ∧
      e = .inContext cause ("in recipe '" ++ main.title ++ "'")) ∨
    ∃ b, runMethod limit main.method .empty main.ingredients = (.ok (), b) ∧
      ((b.kitchen.useBowl 0).serve r.servings).1 = .error e := by
  rw [Recipe.run_result hmain] at h
  cases hrun : runMethod limit main.method .empty main.ingredients with
  | mk result bench =>
    rw [hrun] at h
    cases result with
    | error cause =>
      cases h
      exact .inl ⟨cause, bench, rfl, rfl⟩
    | ok u => exact .inr ⟨bench, rfl, h⟩

/-- cooking a furnished main preparation and serving it -/
theorem run_tolerated {r : Recipe} {main : Preparation} (hmain : r.main? = some main) {b : Block}
    (hclosed : b.Closed) (hb : main.method = b.flatten)
    (hnames : ∀ st ∈ main.method, ∀ name ∈ st.names, Pantry.Supplies main.ingredients name)
    {limit : Nat} {e : Error} (h : (r.run limit).result = .error e) : e.cause.IsTolerated := by
  have hfurnished : Furnished (b.flatten.flatMap Statement.names) (.empty, main.ingredients) := by
    refine ⟨Kitchen.All.empty _, fun name hname => ?_⟩
    obtain ⟨st, hst, hmem⟩ := List.mem_flatMap.mp hname
    exact hnames st (hb ▸ hst) name hmem
  obtain ⟨hkitchen, herror⟩ := runMethod_furnished hclosed hfurnished limit
  rw [← hb] at hkitchen herror
  rcases Recipe.run_eq_error hmain h with ⟨cause, bench, hrun, rfl⟩ | ⟨bench, hrun, hserve⟩
  · rw [hrun] at herror
    have ht := herror cause rfl
    show cause.cause.IsTolerated
    rw [ht.cause_eq]
    exact ht
  · rw [hrun] at hkitchen
    have ht := serve_tolerated (hkitchen.useBowl 0) hserve
    rw [ht.cause_eq]
    exact ht

/-- a recipe that was read has a main preparation; if that is a closed block and its ingredients
are there with values, cooking goes wrong in the tolerated ways only -/
theorem run_error_of_furnished {source : String} {r : Recipe} (h : Recipe.parse source = .ok r) :
    ∃ main, r.main? = some main ∧ ∀ b : Block, b.Closed → main.method = b.flatten →
      (∀ st ∈ main.method, ∀ name ∈ st.names, Pantry.Supplies main.ingredients name) →
        ∀ limit e, (r.run limit).result = .error e → e.cause.IsTolerated := by
  obtain ⟨d, hform, rfl⟩ := (recipe_parse_iff source r).mp h
  have hmain := Document.main?_recipe hform.titled
  refine ⟨d.main, hmain, fun b hclosed hb hnames limit e he => ?_⟩
  exact run_tolerated hmain hclosed hb hnames he

/-- the method of the dough: one loop around one statement -/
def doughBlock : Block :=
  .loop "Knead" "rows" "kneaded" none (.act (.put "rows" 0) .done) .done

theorem doughBlock_closed : doughBlock.Closed := by
  refine ⟨by decide +kernel, fun s hs => ?_, trivial, trivial⟩
  obtain rfl := List.mem_singleton.mp hs
  rfl

theorem run_doughText :
    ∃ r, Recipe.parse doughText = .ok r ∧
      ∀ limit e, (r.run limit).result = .error e → e.cause.IsTolerated := by
  obtain ⟨main, hmain, hrun⟩ := run_error_of_furnished parse_doughText
  have hdough : (Document.recipe ⟨1, doughMain, []⟩).main? = some doughMain := rfl
  obtain rfl : doughMain = main := Option.some.inj (hdough.symm.trans hmain)
  refine ⟨_, parse_doughText, hrun doughBlock doughBlock_closed rfl fun st hst name hname => ?_⟩
  have hrows : Pantry.Supplies doughMain.ingredients "rows" :=
    ⟨⟨"rows", Quantity.ofInt? 3, .dry⟩, rfl, nofun⟩
  have hall : ∀ n ∈ doughMain.method.flatMap Statement.names, n = "rows" := by decide
  rw [hall name (List.mem_flatMap.mpr ⟨st, hst, hname⟩)]
  exact hrows

end Cookery
