import Cookery.Proofs.Cooking.Reworking
import Cookery.Proofs.Kitchen.Similarity

/-!
# Dishes that are not served have no influence

A recipe serves the dishes with numbers below its serving count.  What is poured into other dishes
is never looked at again: the bowls do not depend on it, nor do the loops, nor what is served.

* `Statement.poursBeyond`    a pour into a dish that is not served;
* `Recipe.withoutUnserved`   the recipe without these pours in its main method;
* `Bench.AlikeBelow`         benches that differ at most in dishes that are not served;
* `unserved_reworking`       such a pour can be left out at any place;
* `run_withoutUnserved`      the recipe has the same result without them.
-/

namespace Cookery

def Statement.poursBeyond (servings : Nat) : Statement → Bool
  | .act (.pour _ dish) => servings ≤ dish
  | _ => false

/-- the recipe without the pours of its main preparation into dishes that are not served -/
def Recipe.withoutUnserved (r : Recipe) : Recipe :=
  r.rework fun ss => ss.filter (!·.poursBeyond r.servings)

/-! ## leaving pours out -/

/-- one pour into a dish that is not served, and nothing in its place -/
inductive UnservedPour (servings : Nat) : List Action → List Action → Prop where
  | mk {bowl dish : Nat} (unserved : servings ≤ dish) :
    UnservedPour servings [.pour bowl dish] []

theorem reworked_filter (servings : Nat) (ss : List Statement) :
    Reworked (UnservedPour servings) ss (ss.filter (!·.poursBeyond servings)) := by
  induction ss with
  | nil => exact .nil
  | cons st ss ih =>
    cases hst : st.poursBeyond servings with
    | false =>
      rw [List.filter_cons_of_pos (by rw [hst]; rfl)]
      exact .keep st ih
    | true =>
      rw [List.filter_cons_of_neg (by rw [hst]; exact Bool.false_ne_true)]
      match st with
      | .act (.pour bowl dish) => exact .replace (.mk (of_decide_eq_true hst)) ih

/-- the same contents in the bowls and in the dishes that are served, and the same table; the events
differ -/
def Bench.AlikeBelow (servings : Nat) : Bench → Bench → Prop :=
  Bench.Beside (·.Alike (· < servings) ·) fun _ _ => True

def SameError (f f' : Error × Bench) : Prop := f.1 = f'.1

theorem run_performAll_pour (bowl dish : Nat) (b : Bench) :
    (performAll [.pour bowl dish]).run.run b =
      (.ok (), { b.note (.resolve (.act (.pour bowl dish))) with
        kitchen := b.kitchen.pour bowl dish }) := rfl

theorem unserved_reworking (servings : Nat) :
    Reworking (UnservedPour servings) (·.Alike (· < servings) ·) (fun _ _ => True) SameError where
  note _ _ _ _ := trivial
  effect a p _ _ h := h.effect a p
  fail _ _ _ _ := rfl
  replaced as as' h b b' hb := by
    cases h with
    | @mk bowl dish unserved =>
      have hpour : (b.kitchen.pour bowl dish).Alike (· < servings) b.kitchen :=
        .pour_unseen b.kitchen bowl (Nat.not_lt.mpr unserved)
      rw [run_performAll_pour, performAll_nil]
      exact .ok ⟨hpour.trans hb.kitchen, hb.pantry, trivial⟩

/-! ## recipes -/

/-- without the pours into dishes that are not served, a recipe has the same result: the same text,
or the same error -/
theorem run_withoutUnserved (r : Recipe) (limit : Nat) :
    (r.withoutUnserved.run limit).result = (r.run limit).result := by
  have hless := r.main?_rework fun ss => ss.filter (!·.poursBeyond r.servings)
  cases hmain : r.main? with
  | none =>
    rw [hmain] at hless
    rw [Recipe.run_result_of_none hmain, Recipe.withoutUnserved, Recipe.run_result_of_none hless]
  | some main =>
    rw [hmain] at hless
    rw [Recipe.run_result hmain, Recipe.withoutUnserved, Recipe.run_result hless]
    have htogether : Together (Bench.AlikeBelow r.servings) SameError
        (runMethod limit main.method .empty main.ingredients)
        (runMethod limit (main.method.filter (!·.poursBeyond r.servings)) .empty
          main.ingredients) :=
      (reworked_filter r.servings main.method).runMethod (unserved_reworking r.servings) limit
        (.refl _ _) trivial main.ingredients
    dsimp only
    generalize runMethod limit main.method .empty main.ingredients = o at htogether
    generalize runMethod limit (main.method.filter (!·.poursBeyond r.servings)) .empty
      main.ingredients = o' at htogether
    cases htogether with
    | ok related => exact ((related.kitchen.useBowl 0).serve fun _ hn => hn).1.symm
    | @error e e' b b' related =>
      obtain rfl : e = e' := related
      rfl

end Cookery
