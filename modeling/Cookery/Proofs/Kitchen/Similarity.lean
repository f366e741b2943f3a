import Cookery.Proofs.Kitchen.Growth
import Cookery.Proofs.Kitchen.Renaming
import Cookery.Proofs.Kitchen.Serving

/-!
# Kitchens with the same contents

A container that is not there counts as an empty one.  Two kitchens that have the same contents in
this sense cannot be told apart by what is done to them: an action works at one bowl and looks at
nothing but its contents, and an empty dish adds nothing to what is served.

* `Action.handle`            an action as a function of the bowl that it names;
* `effect_of_handle_ok`, `effect_of_handle_error`   the effect of the action, from that function;
* `Kitchen.Alike seen`       the same contents in all bowls, and in the dishes that are `seen`;
* `Alike.changeBowl`, `Alike.changeDish`, `Alike.pour`, `Alike.effect`   kitchens stay alike;
* `Kitchen.filled`           the dishes of a serving that are not empty, `serveDishes_filled`: they
                             decide what is served;
* `Alike.serve`              kitchens that are alike serve the same text, or fail alike.
-/

namespace Cookery

/-! ## an action at its bowl -/

/-- what an action makes of the bowl that it names, or why it fails; pouring leaves the bowl as it
is -/
def Action.handle (p : Pantry) (c : Container) : Action → Except Error Container
  | .put name _ =>
    match p.find? name with
    | none => .error (.unknownIngredient name)
    | some i => .ok (c.push i)
  | .combine name n =>
    match p.find? name with
    | none => .error (.unknownIngredient name)
    | some i =>
      match i.value with
      | none => .error (.runtime (.combineValueless i.name))
      | some factor =>
        match combined i factor n c with
        | .error fault => .error (.runtime fault)
        | .ok j => .ok (c.push j)
  | .liquefy _ => .ok c.liquefy
  | .pour _ _ => .ok c
  | .stir _ minutes => .ok (c.stir minutes)

/-- the kitchen after an action that has left `c` in its bowl: all other containers are the same,
there or not there, but for the dish that was poured into -/
structure Kitchen.After (a : Action) (c : Container) (k k' : Kitchen) : Prop where
  bowls : ∀ n, k'.bowls.find? n = if n = a.bowl then some c else k.bowls.find? n
  dishes : ∀ n, k'.dishes.find? n =
    if a.dish? = some n then some ((k.bowl a.bowl).pourOnto (k.dish n)) else k.dishes.find? n

section
variable {a : Action} {p : Pantry} {k k' : Kitchen} {c : Container}

/-- actions other than pouring change one bowl -/
theorem Kitchen.after_changeBowl (hdish : a.dish? = none) (f : Container → Container) :
    k.After a (f (k.bowl a.bowl)) (k.changeBowl a.bowl f) where
  bowls n := k.find?_bowls_changeBowl a.bowl n f
  dishes n := by
    rw [hdish, if_neg nofun]
    rfl

theorem Kitchen.after_pour (k : Kitchen) (bowl dish : Nat) :
    k.After (.pour bowl dish) (k.bowl bowl) (k.pour bowl dish) where
  bowls n := k.find?_bowls_changeBowl bowl n id
  dishes n := by
    have hpour := (k.useBowl bowl).find?_dishes_changeDish dish n (k.bowl bowl).pourOnto
    rw [Kitchen.pour, hpour]
    show _ = if some dish = some n then _ else _
    by_cases hn : n = dish
    · rw [if_pos hn, if_pos (congrArg some hn.symm), hn]
      rfl
    · rw [if_neg hn, if_neg fun he => hn (Option.some.inj he).symm]
      rfl

theorem Kitchen.After.bowl (h : k.After a c k') (n : Nat) :
    k'.bowl n = if n = a.bowl then c else k.bowl n := by
  unfold Kitchen.bowl
  rw [h.bowls]
  split <;> rfl

theorem Kitchen.After.dish (h : k.After a c k') (n : Nat) :
    k'.dish n =
      if a.dish? = some n then (k.bowl a.bowl).pourOnto (k.dish n) else k.dish n := by
  unfold Kitchen.dish
  rw [h.dishes]
  split <;> rfl

/-- an action is done if it can be done at its bowl -/
theorem effect_of_handle_ok (h : a.handle p (k.bowl a.bowl) = .ok c) :
    ∃ k', a.effect k p = (.ok (), k') ∧ k.After a c k' := by
  cases a with
  | put name n =>
    cases hi : p.find? name with
    | none =>
      simp only [Action.handle, hi] at h
      cases h
    | some i =>
      simp only [Action.handle, hi] at h
      cases h
      refine ⟨_, ?_, Kitchen.after_changeBowl (a := .put name n) rfl (·.push i)⟩
      simp only [Action.effect, hi]
      rfl
  | combine name n =>
    cases hi : p.find? name with
    | none =>
      simp only [Action.handle, hi] at h
      cases h
    | some i =>
      simp only [Action.handle, hi] at h
      split at h
      · cases h
      · rename_i factor hv
        split at h
        · cases h
        · rename_i j hj
          cases h
          have hj' : combined i factor n (k.bowl n) = .ok j := hj
          refine ⟨(k.useBowl n).changeBowl n (·.push j), ?_, fun m => ?_, fun m => rfl⟩
          · simp only [Action.effect, hi, combineEffect, hv, hj']
          · rw [Kitchen.find?_bowls_changeBowl, Kitchen.bowl_useBowl, Kitchen.useBowl,
              Kitchen.find?_bowls_changeBowl]
            show (if m = n then _ else if m = n then _ else _) = if m = n then _ else _
            split <;> rfl
  | liquefy n =>
    cases h
    exact ⟨_, rfl, Kitchen.after_changeBowl (a := .liquefy n) rfl .liquefy⟩
  | pour bowl dish =>
    cases h
    exact ⟨_, rfl, k.after_pour bowl dish⟩
  | stir n minutes =>
    cases h
    exact ⟨_, rfl, Kitchen.after_changeBowl (a := .stir n minutes) rfl (·.stir minutes)⟩

/-- an action fails if it fails at its bowl; the contents of all containers are then the same -/
theorem effect_of_handle_error {e : Error} (h : a.handle p (k.bowl a.bowl) = .error e) :
    ∃ k', a.effect k p = (.error e, k') ∧ k'.bowl = k.bowl ∧ k'.dish = k.dish := by
  cases a with
  | put name n =>
    cases hi : p.find? name with
    | none =>
      simp only [Action.handle, hi] at h
      cases h
      refine ⟨k, ?_, rfl, rfl⟩
      simp only [Action.effect, hi]
    | some i =>
      simp only [Action.handle, hi] at h
      cases h
  | combine name n =>
    cases hi : p.find? name with
    | none =>
      simp only [Action.handle, hi] at h
      cases h
      refine ⟨k, ?_, rfl, rfl⟩
      simp only [Action.effect, hi]
    | some i =>
      simp only [Action.handle, hi] at h
      split at h
      · rename_i hv
        cases h
        refine ⟨k, ?_, rfl, rfl⟩
        simp only [Action.effect, hi, combineEffect, hv]
      · rename_i factor hv
        split at h
        · rename_i fault hf
          cases h
          have hf' : combined i factor n (k.bowl n) = .error fault := hf
          refine ⟨k.useBowl n, ?_, funext (k.bowl_useBowl n), rfl⟩
          simp only [Action.effect, hi, combineEffect, hv, hf']
        · cases h
  | liquefy n => cases h
  | pour bowl dish => cases h
  | stir n minutes => cases h

end

/-! ## kitchens that are alike -/

/-- the same contents in every bowl, and in every dish that is seen -/
structure Kitchen.Alike (seen : Nat → Prop) (k k' : Kitchen) : Prop where
  bowl_eq : ∀ n, k.bowl n = k'.bowl n
  dish_eq : ∀ n, seen n → k.dish n = k'.dish n

namespace Kitchen.Alike

variable {seen : Nat → Prop} {k k' k'' : Kitchen}

theorem refl (seen : Nat → Prop) (k : Kitchen) : k.Alike seen k :=
  ⟨fun _ => rfl, fun _ _ => rfl⟩

theorem symm (h : k.Alike seen k') : k'.Alike seen k :=
  ⟨fun n => (h.bowl_eq n).symm, fun n hn => (h.dish_eq n hn).symm⟩

theorem trans (h : k.Alike seen k') (h' : k'.Alike seen k'') : k.Alike seen k'' :=
  ⟨fun n => (h.bowl_eq n).trans (h'.bowl_eq n),
    fun n hn => (h.dish_eq n hn).trans (h'.dish_eq n hn)⟩

theorem changeBowl (h : k.Alike seen k') {n : Nat} {f f' : Container → Container}
    (hf : f (k.bowl n) = f' (k'.bowl n)) :
    (k.changeBowl n f).Alike seen (k'.changeBowl n f') := by
  refine ⟨fun m => ?_, h.dish_eq⟩
  rw [bowl_changeBowl, bowl_changeBowl, hf, h.bowl_eq m]

theorem changeDish (h : k.Alike seen k') {n : Nat} {f f' : Container → Container}
    (hf : seen n → f (k.dish n) = f' (k'.dish n)) :
    (k.changeDish n f).Alike seen (k'.changeDish n f') := by
  refine ⟨h.bowl_eq, fun m hm => ?_⟩
  rw [dish_changeDish, dish_changeDish]
  by_cases hmn : m = n
  · rw [if_pos hmn, if_pos hmn, hf (hmn ▸ hm)]
  · rw [if_neg hmn, if_neg hmn, h.dish_eq m hm]

theorem useBowl (h : k.Alike seen k') (n : Nat) : (k.useBowl n).Alike seen (k'.useBowl n) :=
  h.changeBowl (h.bowl_eq n)

theorem pour (h : k.Alike seen k') (bowl dish : Nat) :
    (k.pour bowl dish).Alike seen (k'.pour bowl dish) := by
  refine (h.useBowl bowl).changeDish fun hdish => ?_
  show (k.bowl bowl).pourOnto (k.dish dish) = (k'.bowl bowl).pourOnto (k'.dish dish)
  rw [h.bowl_eq, h.dish_eq dish hdish]

/-- a dish that is not seen can be poured into -/
theorem pour_unseen (k : Kitchen) (bowl : Nat) {dish : Nat} (hdish : ¬ seen dish) :
    (k.pour bowl dish).Alike seen k := by
  refine ⟨k.bowl_pour bowl dish, fun n hn => ?_⟩
  rw [dish_pour, if_neg]
  rintro rfl
  exact hdish hn

/-- an action has the same result in kitchens that are alike, and leaves them alike -/
theorem effect (h : k.Alike seen k') (a : Action) (p : Pantry) :
    (a.effect k p).1 = (a.effect k' p).1 ∧ (a.effect k p).2.Alike seen (a.effect k' p).2 := by
  have hsame : a.handle p (k'.bowl a.bowl) = a.handle p (k.bowl a.bowl) := by
    rw [h.bowl_eq]
  cases hc : a.handle p (k.bowl a.bowl) with
  | error e =>
    obtain ⟨k₁, heff, hbowl, hdish⟩ := effect_of_handle_error hc
    obtain ⟨k₁', heff', hbowl', hdish'⟩ := effect_of_handle_error (hsame.trans hc)
    rw [heff, heff']
    refine ⟨rfl, fun n => ?_, fun n hn => ?_⟩
    · rw [hbowl, hbowl']
      exact h.bowl_eq n
    · rw [hdish, hdish']
      exact h.dish_eq n hn
  | ok c =>
    obtain ⟨k₁, heff, hafter⟩ := effect_of_handle_ok hc
    obtain ⟨k₁', heff', hafter'⟩ := effect_of_handle_ok (hsame.trans hc)
    rw [heff, heff']
    refine ⟨rfl, fun n => ?_, fun n hn => ?_⟩
    · rw [hafter.bowl, hafter'.bowl, h.bowl_eq n]
    · rw [hafter.dish, hafter'.dish, h.bowl_eq, h.dish_eq n hn]

end Kitchen.Alike

/-! ## serving -/

namespace Kitchen

variable {seen : Nat → Prop} {k k' : Kitchen}

/-- the first dish is served, and then the others -/
theorem serveDishes_cons_of_served {n : Nat} {c left : Container} {chars : List Char}
    (h : c.serve = (.ok chars, left)) (dishes : List (Nat × Container)) :
    k.serveDishes ((n, c) :: dishes) =
      (((k.changeDish n fun _ => left).serveDishes dishes).1.map (chars ++ ·),
        ((k.changeDish n fun _ => left).serveDishes dishes).2) := by
  rw [serveDishes, h]
  dsimp only
  rcases (k.changeDish n fun _ => left).serveDishes dishes with ⟨_ | more, k₁⟩ <;> rfl

theorem serveDishes_cons_of_error {n : Nat} {c left : Container} {e : Error}
    (h : c.serve = (.error e, left)) (dishes : List (Nat × Container)) :
    k.serveDishes ((n, c) :: dishes) = (.error e, k.changeDish n fun _ => left) := by
  rw [serveDishes, h]

/-- the same dishes, served from kitchens that are alike -/
theorem Alike.serveDishes (h : k.Alike seen k') (dishes : List (Nat × Container)) :
    (k.serveDishes dishes).1 = (k'.serveDishes dishes).1 ∧
      (k.serveDishes dishes).2.Alike seen (k'.serveDishes dishes).2 := by
  induction dishes generalizing k k' with
  | nil => exact ⟨rfl, h⟩
  | cons d dishes ih =>
    obtain ⟨n, c⟩ := d
    have hfirst : ∀ left,
        (k.changeDish n fun _ => left).Alike seen (k'.changeDish n fun _ => left) :=
      fun left => h.changeDish fun _ => rfl
    rcases hserve : c.serve with ⟨e | chars, left⟩
    · rw [serveDishes_cons_of_error hserve, serveDishes_cons_of_error hserve]
      exact ⟨rfl, hfirst left⟩
    · rw [serveDishes_cons_of_served hserve, serveDishes_cons_of_served hserve]
      obtain ⟨hresult, hleft⟩ := ih (hfirst left)
      exact ⟨congrArg (Except.map (chars ++ ·)) hresult, hleft⟩

/-- some dishes without the empty ones -/
def filled (dishes : List (Nat × Container)) : List (Nat × Container) :=
  dishes.filter fun d => !d.2.isEmpty

/-- empty dishes of a kitchen can be left out of a serving -/
theorem serveDishes_filled (seen : Nat → Prop) {dishes : List (Nat × Container)}
    (hnumbers : dishes.Pairwise fun a b => a.1 ≠ b.1) (hdishes : ∀ d ∈ dishes, k.dish d.1 = d.2) :
    (k.serveDishes dishes).1 = (k.serveDishes (filled dishes)).1 ∧
      (k.serveDishes dishes).2.Alike seen (k.serveDishes (filled dishes)).2 := by
  induction dishes generalizing k with
  | nil => exact ⟨rfl, .refl _ _⟩
  | cons d dishes ih =>
    obtain ⟨n, c⟩ := d
    obtain ⟨hfirst, hrest⟩ := List.pairwise_cons.mp hnumbers
    obtain ⟨hc, hdishes⟩ := List.forall_mem_cons.mp hdishes
    -- the other dishes are as they were when the first one has been served
    have hothers : ∀ left, ∀ d ∈ dishes, (k.changeDish n fun _ => left).dish d.1 = d.2 := by
      intro left d hd
      rw [dish_changeDish, if_neg (hfirst d hd).symm]
      exact hdishes d hd
    cases hempty : c.isEmpty with
    | true =>
      obtain rfl : c = .empty := congrArg Container.mk (List.isEmpty_iff.mp hempty)
      have hserve : Container.empty.serve = (.ok [], .empty) := Container.serve_of_served .nil
      have hskip : filled ((n, Container.empty) :: dishes) = filled dishes := rfl
      have hsame : (k.changeDish n fun _ => Container.empty).Alike seen k := by
        refine ⟨fun _ => rfl, fun m _ => ?_⟩
        rw [dish_changeDish]
        split
        · rename_i hm
          rw [hm]
          exact hc.symm
        · rfl
      obtain ⟨hresult, hleft⟩ := ih hrest (hothers .empty)
      obtain ⟨hresult', hleft'⟩ := hsame.serveDishes (filled dishes)
      rw [serveDishes_cons_of_served hserve, hskip]
      refine ⟨?_, hleft.trans hleft'⟩
      rw [hresult, hresult']
      cases (k.serveDishes (filled dishes)).1 <;> rfl
    | false =>
      have hkeep : filled ((n, c) :: dishes) = (n, c) :: filled dishes :=
        List.filter_cons_of_pos (by rw [hempty]; rfl)
      rw [hkeep]
      rcases hserve : c.serve with ⟨e | chars, left⟩
      · rw [serveDishes_cons_of_error hserve, serveDishes_cons_of_error hserve]
        exact ⟨rfl, .refl _ _⟩
      · rw [serveDishes_cons_of_served hserve, serveDishes_cons_of_served hserve]
        obtain ⟨hresult, hleft⟩ := ih hrest (hothers left)
        exact ⟨congrArg (Except.map (chars ++ ·)) hresult, hleft⟩

/-- the dishes of a serving that are not empty are those that have something in them -/
theorem mem_filled_dishesBelow (k : Kitchen) (servings : Nat) (d : Nat × Container) :
    d ∈ filled (k.dishesBelow servings) ↔
      d.1 < servings ∧ k.dish d.1 = d.2 ∧ d.2.isEmpty = false := by
  obtain ⟨n, c⟩ := d
  unfold filled
  rw [List.mem_filter, (k.servedDishes_dishesBelow servings).exactly, Bool.not_eq_true']
  constructor
  · rintro ⟨⟨hfind, hlt⟩, hc⟩
    refine ⟨hlt, ?_, hc⟩
    unfold dish
    rw [hfind]
    rfl
  · rintro ⟨hlt, hdish, hc⟩
    refine ⟨⟨?_, hlt⟩, hc⟩
    unfold dish at hdish
    cases hfind : k.dishes.find? n with
    | none =>
      rw [hfind] at hdish
      obtain rfl : Container.empty = c := hdish
      cases hc
    | some c' =>
      rw [hfind] at hdish
      exact congrArg some hdish

theorem filled_dishesBelow_ascending (k : Kitchen) (servings : Nat) :
    (filled (k.dishesBelow servings)).Pairwise fun a b => a.1 < b.1 :=
  (k.servedDishes_dishesBelow servings).ascending.filter _

/-- two ascending lists with the same dishes are the same list -/
theorem Alike.filled_eq (h : k.Alike seen k') {servings : Nat}
    (hseen : ∀ n, n < servings → seen n) :
    filled (k.dishesBelow servings) = filled (k'.dishesBelow servings) := by
  have hmem : ∀ d, d ∈ filled (k.dishesBelow servings) ↔ d ∈ filled (k'.dishesBelow servings) := by
    intro d
    rw [mem_filled_dishesBelow, mem_filled_dishesBelow]
    refine and_congr_right fun hlt => ?_
    rw [h.dish_eq d.1 (hseen d.1 hlt)]
  have hnodup : ∀ k : Kitchen, (filled (k.dishesBelow servings)).Nodup := fun k =>
    (k.filled_dishesBelow_ascending servings).imp fun hlt he =>
      Nat.ne_of_lt hlt (congrArg Prod.fst he)
  have hperm := (List.perm_ext_iff_of_nodup (hnodup k) (hnodup k')).mpr hmem
  refine hperm.eq_of_pairwise (fun a b _ _ hab hba => ?_)
    (k.filled_dishesBelow_ascending servings) (k'.filled_dishesBelow_ascending servings)
  exact absurd hba (Nat.lt_asymm hab)

theorem serve_filled (seen : Nat → Prop) (k : Kitchen) (servings : Nat) :
    (k.serveDishes (k.dishesBelow servings)).1 =
        (k.serveDishes (filled (k.dishesBelow servings))).1 ∧
      (k.serveDishes (k.dishesBelow servings)).2.Alike seen
        (k.serveDishes (filled (k.dishesBelow servings))).2 := by
  have hserved := k.servedDishes_dishesBelow servings
  refine serveDishes_filled seen (hserved.ascending.imp Nat.ne_of_lt) fun d hd => ?_
  unfold dish
  rw [((hserved.exactly d.1 d.2).mp hd).1]
  rfl

theorem serve_snd (k : Kitchen) (servings : Nat) :
    (k.serve servings).2 = (k.serveDishes (k.dishesBelow servings)).2 := by
  unfold serve
  rcases k.serveDishes (k.dishesBelow servings) with ⟨_ | chars, k₁⟩ <;> rfl

/-- kitchens that are alike, as far as the served dishes are concerned, serve the same text or fail
with the same error, and are still alike -/
theorem Alike.serve (h : k.Alike seen k') {servings : Nat} (hseen : ∀ n, n < servings → seen n) :
    (k.serve servings).1 = (k'.serve servings).1 ∧
      (k.serve servings).2.Alike seen (k'.serve servings).2 := by
  obtain ⟨hresult, hleft⟩ := k.serve_filled seen servings
  obtain ⟨hresult', hleft'⟩ := k'.serve_filled seen servings
  obtain ⟨hsame, halike⟩ := h.serveDishes (filled (k.dishesBelow servings))
  rw [h.filled_eq hseen] at hresult hleft hsame halike
  rw [serve_fst, serve_fst, serve_snd, serve_snd]
  refine ⟨?_, hleft.trans (halike.trans hleft'.symm)⟩
  rw [hresult, hresult', hsame]

end Kitchen

end Cookery
