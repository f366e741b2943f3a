import Cookery.Proofs.Cooking.Stages
import Cookery.Proofs.Kitchen.Stirring
import Cookery.Proofs.Lists
import Cookery.Proofs.Tables
import Mathlib.Data.Multiset.Defs

/-!
# What a preparation does to the kitchen

Containers stay, dishes are only filled up, and a bowl gains one ingredient for each `put` and
`combine` that was completed on it.  What no statement names is left alone.

* `Container.labels`     names and values in a container, in no order;
* `Kitchen.Grown filled` what can come of a kitchen when the bowls `filled` were each given an
                         ingredient, as often as they are listed;
* `Kitchen.SameElsewhere`   the containers that a method does not name are the same;
* `Action.grown_of_effect_ok`, `Kitchen.SameElsewhere.effect`   one action;
* `run_grown`            a whole preparation.
-/

namespace Cookery

/-! ## containers -/

/-- what an ingredient is and how much of it there is, whether liquid or not -/
def Ingredient.label (i : Ingredient) : String × Option Quantity := (i.name, i.value)

def Container.labels (c : Container) : Multiset (String × Option Quantity) :=
  c.topDown.map Ingredient.label

namespace Container

theorem labels_push (c : Container) (i : Ingredient) : c.labels ≤ (c.push i).labels := by
  have hsub : (c.topDown.map Ingredient.label).Sublist ((c.push i).topDown.map Ingredient.label) :=
    List.sublist_cons_self _ _
  exact Multiset.coe_le.mpr hsub.subperm

theorem labels_liquefy (c : Container) : c.liquefy.labels = c.labels := by
  unfold labels liquefy
  rw [List.map_map]
  rfl

theorem size_liquefy (c : Container) : c.liquefy.size = c.size := List.length_map _

theorem labels_stir (c : Container) (minutes : Nat) : (c.stir minutes).labels = c.labels :=
  Multiset.coe_eq_coe.mpr ((c.perm_stir minutes).map Ingredient.label)

end Container

/-! ## kitchens -/

structure Kitchen.Grown (filled : List Nat) (k k' : Kitchen) : Prop where
  bowls_stay : ∀ n, k.bowls.contains n = true → k'.bowls.contains n = true
  dishes_stay : ∀ n, k.dishes.contains n = true → k'.dishes.contains n = true
  /-- what was in a dish is still at its bottom, as it was -/
  dishes : ∀ n, (k.dish n).contents <+: (k'.dish n).contents
  sizes : ∀ n, (k'.bowl n).size = (k.bowl n).size + filled.count n
  labels : ∀ n, (k.bowl n).labels ≤ (k'.bowl n).labels

namespace Kitchen

variable {k k' k'' : Kitchen}

theorem Grown.refl (k : Kitchen) : k.Grown [] k :=
  ⟨fun _ h => h, fun _ h => h, fun _ => List.prefix_refl _, fun _ => rfl, fun _ => le_refl _⟩

theorem Grown.trans {filled filled' : List Nat} (h : k.Grown filled k')
    (h' : k'.Grown filled' k'') : k.Grown (filled ++ filled') k'' where
  bowls_stay n hn := h'.bowls_stay n (h.bowls_stay n hn)
  dishes_stay n hn := h'.dishes_stay n (h.dishes_stay n hn)
  dishes n := (h.dishes n).trans (h'.dishes n)
  sizes n := by
    rw [h'.sizes, h.sizes, List.count_append, Nat.add_assoc]
  labels n := le_trans (h.labels n) (h'.labels n)

theorem grown_changeBowl {n : Nat} {f : Container → Container} {filled : List Nat}
    (hsize : (f (k.bowl n)).size = (k.bowl n).size + filled.count n)
    (hother : ∀ m, m ≠ n → filled.count m = 0)
    (hlabels : (k.bowl n).labels ≤ (f (k.bowl n)).labels) : k.Grown filled (k.changeBowl n f) where
  bowls_stay m hm := by
    unfold changeBowl
    rw [Table.contains_insert, hm, Bool.or_true]
  dishes_stay _ hm := hm
  dishes _ := List.prefix_refl _
  sizes m := by
    rw [bowl_changeBowl]
    by_cases hm : m = n
    · rw [if_pos hm, hm, hsize]
    · rw [if_neg hm, hother m hm, Nat.add_zero]
  labels m := by
    rw [bowl_changeBowl]
    by_cases hm : m = n
    · rw [if_pos hm, hm]
      exact hlabels
    · rw [if_neg hm]

theorem grown_changeDish {n : Nat} {f : Container → Container}
    (h : (k.dish n).contents <+: (f (k.dish n)).contents) : k.Grown [] (k.changeDish n f) where
  bowls_stay _ hm := hm
  dishes_stay m hm := by
    unfold changeDish
    rw [Table.contains_insert, hm, Bool.or_true]
  dishes m := by
    rw [dish_changeDish]
    split
    · rename_i hm
      rw [hm]
      exact h
    · exact List.prefix_refl _
  sizes _ := rfl
  labels _ := le_refl _

theorem grown_useBowl (k : Kitchen) (n : Nat) : k.Grown [] (k.useBowl n) :=
  grown_changeBowl rfl (fun _ _ => rfl) (le_refl _)

/-- a bowl that is named is as it was, or comes into being empty -/
theorem find?_bowls_useBowl (k : Kitchen) (m n : Nat) :
    (k.useBowl m).bowls.find? n = k.bowls.find? n ∨
      (n = m ∧ k.bowls.find? n = none ∧ (k.useBowl m).bowls.find? n = some .empty) := by
  unfold useBowl
  rw [find?_bowls_changeBowl]
  by_cases hn : n = m
  · rw [if_pos hn, ← hn]
    unfold bowl
    cases k.bowls.find? n with
    | none => exact .inr ⟨rfl, rfl, rfl⟩
    | some c => exact .inl rfl
  · rw [if_neg hn]
    exact .inl rfl

theorem grown_push (k : Kitchen) (n : Nat) (i : Ingredient) :
    k.Grown [n] (k.changeBowl n (·.push i)) := by
  refine grown_changeBowl ?_ (fun m hm => ?_) (Container.labels_push _ i)
  · rw [List.count_singleton_self]
    rfl
  · exact List.count_eq_zero.mpr fun hmem => hm (List.mem_singleton.mp hmem)

theorem grown_pour (k : Kitchen) (bowl dish : Nat) : k.Grown [] (k.pour bowl dish) := by
  refine (k.grown_useBowl bowl).trans (grown_changeDish ?_)
  rw [Container.contents_pourOnto]
  exact List.prefix_append _ _

end Kitchen

/-! ## actions -/

/-- the bowl that an action names -/
def Action.bowl : Action → Nat
  | .put _ bowl => bowl
  | .combine _ bowl => bowl
  | .liquefy bowl => bowl
  | .pour bowl _ => bowl
  | .stir bowl _ => bowl

/-- the dish that an action names -/
def Action.dish? : Action → Option Nat
  | .pour _ dish => some dish
  | _ => none

/-- the bowl that a completed action has put an ingredient into -/
def Action.filled? : Action → Option Nat
  | .put _ bowl => some bowl
  | .combine _ bowl => some bowl
  | _ => none

theorem Action.grown_of_effect_ok {a : Action} {k k' : Kitchen} {p : Pantry}
    (h : a.effect k p = (.ok (), k')) : k.Grown a.filled?.toList k' := by
  rcases Action.effect_ok h with ⟨name, n, i, rfl, _, rfl⟩ |
    ⟨name, n, i, j, factor, rfl, _, _, _, rfl⟩ | ⟨n, rfl, rfl⟩ | ⟨bowl, dish, rfl, rfl⟩ |
    ⟨n, minutes, rfl, rfl⟩
  · exact k.grown_push n i
  · exact (k.grown_useBowl n).trans ((k.useBowl n).grown_push n j)
  · refine Kitchen.grown_changeBowl ?_ (fun _ _ => rfl) ?_
    · exact Container.size_liquefy _
    · exact le_of_eq (Container.labels_liquefy _).symm
  · exact k.grown_pour bowl dish
  · refine Kitchen.grown_changeBowl ?_ (fun _ _ => rfl) ?_
    · exact Container.size_stir _ minutes
    · exact le_of_eq (Container.labels_stir _ minutes).symm

/-- a failed action has put nothing anywhere, but may have named a bowl for the first time -/
theorem Action.grown_of_effect_error {a : Action} {k k' : Kitchen} {p : Pantry} {e : Error}
    (h : a.effect k p = (.error e, k')) : k.Grown [] k' := by
  obtain ⟨_, _, ⟨_, rfl, _⟩ | ⟨n, _, _, _, ⟨_, rfl, _⟩ | ⟨_, _, _, _, rfl, _⟩⟩⟩ :=
    Action.effect_error h
  · exact .refl _
  · exact .refl _
  · exact k.grown_useBowl n

/-- the containers with numbers that the actions of a method do not name are as they were, there or
not there -/
structure Kitchen.SameElsewhere (method : List Statement) (k k' : Kitchen) : Prop where
  bowls : ∀ n, (∀ a, .act a ∈ method → a.bowl ≠ n) → k'.bowls.find? n = k.bowls.find? n
  dishes : ∀ n, (∀ a, .act a ∈ method → a.dish? ≠ some n) → k'.dishes.find? n = k.dishes.find? n

namespace Kitchen.SameElsewhere

variable {method : List Statement} {k k' k'' : Kitchen} {a : Action}

theorem refl (method : List Statement) (k : Kitchen) : k.SameElsewhere method k :=
  ⟨fun _ _ => rfl, fun _ _ => rfl⟩

theorem trans (h : k.SameElsewhere method k') (h' : k'.SameElsewhere method k'') :
    k.SameElsewhere method k'' where
  bowls n hn := (h'.bowls n hn).trans (h.bowls n hn)
  dishes n hn := (h'.dishes n hn).trans (h.dishes n hn)

theorem changeBowl (ha : .act a ∈ method) (k : Kitchen) (f : Container → Container) :
    k.SameElsewhere method (k.changeBowl a.bowl f) where
  bowls n hn := by
    have hne : n ≠ a.bowl := fun he => hn a ha he.symm
    rw [Kitchen.find?_bowls_changeBowl, if_neg hne]
  dishes _ _ := rfl

theorem changeDish {d : Nat} (ha : .act a ∈ method) (hd : a.dish? = some d) (k : Kitchen)
    (f : Container → Container) : k.SameElsewhere method (k.changeDish d f) where
  bowls _ _ := rfl
  dishes n hn := by
    have hne : n ≠ d := fun he => hn a ha (he ▸ hd)
    rw [Kitchen.find?_dishes_changeDish, if_neg hne]

theorem effect {p : Pantry} {r : Except Error Unit} (ha : .act a ∈ method)
    (h : a.effect k p = (r, k')) : k.SameElsewhere method k' := by
  cases r with
  | error e =>
    obtain ⟨_, _, ⟨_, rfl, _⟩ | ⟨n, _, rfl, _, ⟨_, rfl, _⟩ | ⟨_, _, _, _, rfl, _⟩⟩⟩ :=
      Action.effect_error h
    · exact refl method _
    · exact refl method _
    · exact changeBowl ha k id
  | ok u =>
    rcases Action.effect_ok h with ⟨name, n, i, rfl, _, rfl⟩ |
      ⟨name, n, i, j, factor, rfl, _, _, _, rfl⟩ | ⟨n, rfl, rfl⟩ | ⟨bowl, dish, rfl, rfl⟩ |
      ⟨n, minutes, rfl, rfl⟩
    · exact changeBowl ha k _
    · exact (changeBowl ha k id).trans (changeBowl ha (k.useBowl n) _)
    · exact changeBowl ha k _
    · exact (changeBowl ha k id).trans (changeDish ha rfl (k.useBowl bowl) _)
    · exact changeBowl ha k _

end Kitchen.SameElsewhere

/-! ## runs -/

/-- what every step keeps: growth by the completed actions, and all else as it was -/
theorem grown_keptBySteps (limit : Nat) (method : List Statement) (k : Kitchen) :
    KeptBySteps limit (Task.Within method (method.flatMap Statement.counters))
      (fun b done => k.Grown (done.filterMap Action.filled?) b.kitchen ∧
        k.SameElsewhere method b.kitchen)
      (fun _ => True) where
  goes_on := by
    intro t b us b' done ht hb step
    refine ⟨step.within counters_subset ht, ?_⟩
    rcases step.kitchen_cases with ⟨a, ss, rfl, heff⟩ | ⟨hnone, hsame⟩
    · have ha : .act a ∈ method := ht List.mem_cons_self
      have hlast : [a].filterMap Action.filled? = a.filled?.toList := by cases a <;> rfl
      refine ⟨?_, hb.2.trans (.effect ha heff)⟩
      show k.Grown ((done ++ [a]).filterMap Action.filled?) b'.kitchen
      rw [List.filterMap_append, hlast]
      exact hb.1.trans (Action.grown_of_effect_ok heff)
    · rw [hnone, hsame, Option.toList_none, List.append_nil]
      exact hb
  stops := by
    intro t b e b' done ht hb step
    refine ⟨trivial, ?_⟩
    rcases step.kitchen_cases with ⟨a, ss, rfl, heff⟩ | ⟨_, hsame⟩
    -- the action was not completed, so it is not counted
    · have ha : .act a ∈ method := ht List.mem_cons_self
      have hgrown := hb.1.trans (Action.grown_of_effect_error heff)
      rw [List.append_nil] at hgrown
      exact ⟨hgrown, hb.2.trans (.effect ha heff)⟩
    · rw [hsame]
      exact hb

/-- every run of a preparation comes to an end, and whatever that is, the kitchen has only grown, by
one ingredient in a bowl for each `put` and `combine` completed on it; what no statement names is
the same, except that the first bowl may have come into being -/
theorem run_grown (p : Preparation) (limit : Nat) (kitchen : Kitchen) :
    (∃ s, EndsAt limit (p.stage kitchen) s) ∧
    ∀ s, EndsAt limit (p.stage kitchen) s →
      kitchen.Grown (s.done.filterMap Action.filled?) (p.run limit kitchen).kitchen ∧
      (∀ n, (∀ a, .act a ∈ p.method → a.bowl ≠ n) →
        (p.run limit kitchen).kitchen.bowls.find? n = kitchen.bowls.find? n ∨
        (n = 0 ∧ kitchen.bowls.find? n = none ∧
          (p.run limit kitchen).kitchen.bowls.find? n = some .empty)) ∧
      ∀ n, (∀ a, .act a ∈ p.method → a.dish? ≠ some n) →
        (p.run limit kitchen).kitchen.dishes.find? n = kitchen.dishes.find? n := by
  refine ⟨exists_endsAt limit _ _, fun s hend => ?_⟩
  have hholds := hend.1.holds (grown_keptBySteps limit p.method kitchen)
    (Stage.holds_start (List.Subset.refl _) ⟨.refl kitchen, .refl p.method kitchen⟩)
  obtain ⟨hgrown, hsame⟩ := hholds.bench
  rcases Preparation.endsAt_kitchen hend with hk | hk
  · rw [hk]
    exact ⟨hgrown, fun n hn => .inl (hsame.bowls n hn), hsame.dishes⟩
  · rw [hk]
    have hused := hgrown.trans (s.bench.kitchen.grown_useBowl 0)
    rw [List.append_nil] at hused
    refine ⟨hused, fun n hn => ?_, hsame.dishes⟩
    rw [← hsame.bowls n hn]
    exact s.bench.kitchen.find?_bowls_useBowl 0 n

/-- salt and pepper, and there is no pepper -/
def seasoning : Preparation where
  title := "Seasoning"
  ingredients := Table.ofList [("salt", ⟨"salt", Quantity.ofInt? 1, .dry⟩)]
  method := [.act (.put "salt" 0), .act (.liquefy 0), .act (.put "pepper" 0)]
  oven := none

/-- of its two puts into the first bowl one is completed -/
theorem run_grown_seasoning :
    (∃ e, (seasoning.run 5 .empty).result = .error e) ∧
    ∃ done : List Action,
      Kitchen.empty.Grown (done.filterMap Action.filled?) (seasoning.run 5 .empty).kitchen ∧
      (done.filterMap Action.filled?).count 0 = 1 := by
  obtain ⟨⟨s, hend⟩, hgrown⟩ := run_grown seasoning 5 .empty
  have hsize : ((seasoning.run 5 .empty).kitchen.bowl 0).size = 1 := by decide +kernel
  have hcount := (hgrown s hend).1.sizes 0
  rw [hsize] at hcount
  have hempty : (Kitchen.empty.bowl 0).size = 0 := rfl
  refine ⟨exists_error_of_isOk ?_, s.done, (hgrown s hend).1, by omega⟩
  decide +kernel

end Cookery
