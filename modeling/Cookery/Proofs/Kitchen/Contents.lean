import Cookery.Kitchen.Serving
import Cookery.Proofs.Cooking.Effect
import Cookery.Proofs.Kitchen.Stirring
import Cookery.Proofs.Lists
import Cookery.Proofs.Tables

/-!
# Properties of all that lies in a kitchen

`Kitchen.All P k` says that every ingredient in every bowl and dish of `k` has `P`.  Containers are
only ever filled with what lies in other ones and with what is taken from the working table, so a
property that is carried over by liquefying and holds of what the table gives stays true.

* `Container.All`, `Kitchen.All`   the property, with what each operation does to it;
* `Kitchen.All.effect`             actions keep it;
* `exists_of_serve_eq_error`       an error of serving comes from an ingredient in a dish.
-/

namespace Cookery

/-! ## containers -/

def Container.All (P : Ingredient → Prop) (c : Container) : Prop := ∀ i ∈ c.topDown, P i

namespace Container.All

variable {P : Ingredient → Prop} {c d : Container}

theorem empty (P : Ingredient → Prop) : Container.empty.All P :=
  fun _ h => absurd h List.not_mem_nil

theorem push (h : c.All P) {i : Ingredient} (hi : P i) : (c.push i).All P := by
  intro j hj
  rcases List.mem_cons.mp hj with rfl | hj
  · exact hi
  · exact h j hj

theorem liquefy (h : c.All P) (hliquid : ∀ i, P i → P i.liquefied) : c.liquefy.All P := by
  intro j hj
  obtain ⟨i, hi, rfl⟩ := List.mem_map.mp hj
  exact hliquid i (h i hi)

theorem pourOnto (h : c.All P) (hd : d.All P) : (c.pourOnto d).All P := by
  intro j hj
  rcases List.mem_append.mp hj with hj | hj
  · exact h j hj
  · exact hd j hj

theorem stir (h : c.All P) (minutes : Nat) : (c.stir minutes).All P :=
  fun j hj => h j ((c.perm_stir minutes).mem_iff.mp hj)

end Container.All

/-! ## kitchens -/

structure Kitchen.All (P : Ingredient → Prop) (k : Kitchen) : Prop where
  bowls : ∀ n, (k.bowl n).All P
  dishes : ∀ n, (k.dish n).All P

namespace Kitchen.All

variable {P : Ingredient → Prop} {k : Kitchen}

theorem empty (P : Ingredient → Prop) : Kitchen.empty.All P :=
  ⟨fun _ => Container.All.empty P, fun _ => Container.All.empty P⟩

theorem changeBowl (h : k.All P) (n : Nat) {f : Container → Container}
    (hf : (k.bowl n).All P → (f (k.bowl n)).All P) : (k.changeBowl n f).All P := by
  refine ⟨fun m => ?_, h.dishes⟩
  rw [Kitchen.bowl_changeBowl]
  split
  · exact hf (h.bowls n)
  · exact h.bowls m

theorem changeDish (h : k.All P) (n : Nat) {f : Container → Container}
    (hf : (k.dish n).All P → (f (k.dish n)).All P) : (k.changeDish n f).All P := by
  refine ⟨h.bowls, fun m => ?_⟩
  rw [Kitchen.dish_changeDish]
  split
  · exact hf (h.dishes n)
  · exact h.dishes m

theorem useBowl (h : k.All P) (n : Nat) : (k.useBowl n).All P := h.changeBowl n id

theorem pour (h : k.All P) (bowl dish : Nat) : (k.pour bowl dish).All P :=
  (h.useBowl bowl).changeDish dish fun hdish => (h.bowls bowl).pourOnto hdish

/-- an action keeps what liquefying keeps, if the ingredient that it names has it, also with a
product for its value -/
theorem effect {a : Action} {p : Pantry} {r : Except Error Unit} {k' : Kitchen} (h : k.All P)
    (hliquid : ∀ i, P i → P i.liquefied)
    (hnamed : ∀ name ∈ a.ingredient?, ∀ i, p.find? name = some i →
      P i ∧ ∀ q, i.value ≠ none → P { i with value := some q })
    (heff : a.effect k p = (r, k')) : k'.All P := by
  cases r with
  | error e =>
    obtain ⟨_, _, ⟨_, rfl, _⟩ | ⟨n, _, _, _, ⟨_, rfl, _⟩ | ⟨_, _, _, _, rfl, _⟩⟩⟩ :=
      Action.effect_error heff
    · exact h
    · exact h
    · exact h.useBowl n
  | ok u =>
    rcases Action.effect_ok heff with ⟨name, n, i, rfl, hi, rfl⟩ |
      ⟨name, n, i, j, factor, rfl, hi, hv, hj, rfl⟩ | ⟨n, rfl, rfl⟩ | ⟨bowl, dish, rfl, rfl⟩ |
      ⟨n, minutes, rfl, rfl⟩
    · have hi' := (hnamed name rfl i hi).1
      exact h.changeBowl n fun hb => hb.push hi'
    · obtain ⟨product, rfl⟩ := combined_eq_ok hj
      have hvalue : i.value ≠ none := by
        rw [hv]
        nofun
      have hi' := (hnamed name rfl i hi).2 product hvalue
      exact (h.useBowl n).changeBowl n fun hb => hb.push hi'
    · exact h.changeBowl n fun hb => hb.liquefy hliquid
    · exact h.pour bowl dish
    · exact h.changeBowl n fun hb => hb.stir minutes

/-- the dishes in use lie in the kitchen -/
theorem of_mem_dishesBelow (h : k.All P) {servings : Nat} {e : Nat × Container}
    (he : e ∈ k.dishesBelow servings) : e.2.All P := by
  have hmem := (k.dishes.mem_entries_iff e.1 e.2).mp (List.mem_filter.mp he).1
  have hdish : k.dish e.1 = e.2 := by
    unfold Kitchen.dish
    rw [hmem]
    rfl
  exact hdish ▸ h.dishes e.1

end Kitchen.All

/-! ## serving -/

theorem Container.exists_of_serve_eq_error {c : Container} {e : Error} (h : c.serve.1 = .error e) :
    ∃ i ∈ c.topDown, i.toChar = .error e := by
  unfold Container.serve at h
  split at h
  · cases h
  · rename_i e' hm
    cases h
    exact exists_of_mapM_eq_error hm

theorem Kitchen.exists_of_serveDishes_eq_error {k : Kitchen} {dishes : List (Nat × Container)}
    {e : Error} (h : (k.serveDishes dishes).1 = .error e) :
    ∃ d ∈ dishes, ∃ i ∈ d.2.topDown, i.toChar = .error e := by
  induction dishes generalizing k with
  | nil => cases h
  | cons d dishes ih =>
    obtain ⟨n, dish⟩ := d
    rw [Kitchen.serveDishes] at h
    split at h
    · rename_i e' left hs
      cases h
      have hi := Container.exists_of_serve_eq_error (congrArg Prod.fst hs)
      exact ⟨(n, dish), List.mem_cons_self, hi⟩
    · rename_i chars left hs
      split at h
      · rename_i e' k' hmore
        cases h
        obtain ⟨d, hd, hi⟩ := ih (congrArg Prod.fst hmore)
        exact ⟨d, List.mem_cons_of_mem _ hd, hi⟩
      · cases h

theorem Kitchen.exists_of_serve_eq_error {k : Kitchen} {servings : Nat} {e : Error}
    (h : (k.serve servings).1 = .error e) :
    ∃ d ∈ k.dishesBelow servings, ∃ i ∈ d.2.topDown, i.toChar = .error e := by
  unfold Kitchen.serve at h
  split at h
  · cases h
  · rename_i e' k' hs
    cases h
    exact Kitchen.exists_of_serveDishes_eq_error (congrArg Prod.fst hs)

end Cookery
