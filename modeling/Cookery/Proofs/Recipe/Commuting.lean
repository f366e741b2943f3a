import Cookery.Proofs.Cooking.Reworking
import Cookery.Proofs.Kitchen.Similarity

/-!
# Independent actions commute

Two actions next to each other are independent if neither of them changes the bowl that the other
one works at and if they do not pour into the same dish.  Then it does not matter which one comes
first: either both orders fail, or both leave the same kitchen, the containers that came into being
included.  So the two can change places anywhere in a method, also inside its loops.

* `Action.Independent`      neither is in the way of the other;
* `Kitchen.After.comm`      one action and then the other, in both orders;
* `inTurn_comm`             the same with actions that may fail;
* `commuting_reworking`     the two can be swapped at any place of a method;
* `run_swapped`             the recipe succeeds as before, with the same text and the same kitchen.
-/

namespace Cookery

/-! ## independence -/

/-- the bowl whose contents an action changes; pouring only reads its bowl -/
def Action.changed? : Action → Option Nat
  | .pour _ _ => none
  | a => some a.bowl

/-- neither changes the bowl that the other one reads or changes, and they do not pour into the same
dish -/
structure Action.Independent (a b : Action) : Prop where
  left : a.changed? ≠ some b.bowl
  right : b.changed? ≠ some a.bowl
  dishes : ∀ d, a.dish? = some d → b.dish? ≠ some d

section
variable {a b : Action} {p : Pantry} {k : Kitchen} {c d : Container}

theorem Action.Independent.symm (h : a.Independent b) : b.Independent a :=
  ⟨h.right, h.left, fun n hb ha => h.dishes n ha hb⟩

/-- an action changes the bowl it works at, or leaves it as it is -/
theorem Action.handle_of_unchanged (hbowl : a.changed? ≠ some a.bowl) (h : a.handle p c = .ok d) :
    d = c := by
  cases a with
  | pour bowl dish =>
    cases h
    rfl
  | put name n => exact absurd rfl hbowl
  | combine name n => exact absurd rfl hbowl
  | liquefy n => exact absurd rfl hbowl
  | stir n minutes => exact absurd rfl hbowl

/-- what an action finds in its bowl is not changed by an independent one before it -/
theorem Action.Independent.bowl_eq {k' : Kitchen} (h : a.Independent b)
    (hc : a.handle p (k.bowl a.bowl) = .ok c) (hafter : k.After a c k') :
    k'.bowl b.bowl = k.bowl b.bowl := by
  rw [hafter.bowl]
  by_cases hbowl : b.bowl = a.bowl
  · have hsame : c = k.bowl a.bowl := Action.handle_of_unchanged (hbowl ▸ h.left) hc
    rw [if_pos hbowl, hsame, hbowl]
  · rw [if_neg hbowl]

theorem Kitchen.ext_find? {k k' : Kitchen} (hbowls : ∀ n, k.bowls.find? n = k'.bowls.find? n)
    (hdishes : ∀ n, k.dishes.find? n = k'.dishes.find? n) : k = k' := by
  obtain ⟨bowls, dishes⟩ := k
  obtain ⟨bowls', dishes'⟩ := k'
  obtain rfl : bowls = bowls' := Table.ext_find? hbowls
  obtain rfl : dishes = dishes' := Table.ext_find? hdishes
  rfl

/-- two independent actions leave the same kitchen in both orders -/
theorem Kitchen.After.comm {k₁ k₂ k₁₂ k₂₁ : Kitchen} (h : a.Independent b)
    (hc : a.handle p (k.bowl a.bowl) = .ok c) (hd : b.handle p (k.bowl b.bowl) = .ok d)
    (h₁ : k.After a c k₁) (h₁₂ : k₁.After b d k₁₂) (h₂ : k.After b d k₂)
    (h₂₁ : k₂.After a c k₂₁) : k₁₂ = k₂₁ := by
  refine Kitchen.ext_find? (fun n => ?_) fun n => ?_
  · rw [h₁₂.bowls, h₁.bowls, h₂₁.bowls, h₂.bowls]
    by_cases ha : n = a.bowl
    · by_cases hb : n = b.bowl
      -- both pour from one bowl, which both leave as it is
      · have hbowl : a.bowl = b.bowl := ha.symm.trans hb
        have hsame : c = k.bowl a.bowl := Action.handle_of_unchanged (hbowl ▸ h.left) hc
        have hsame' : d = k.bowl b.bowl := Action.handle_of_unchanged (hbowl ▸ h.right) hd
        rw [if_pos hb, if_pos ha, hsame, hsame', hbowl]
      · rw [if_neg hb, if_pos ha, if_pos ha]
    · rw [if_neg ha, if_neg ha]
  · rw [h₁₂.dishes, h₁.dishes, h₂₁.dishes, h₂.dishes, h₁.dish, h₂.dish, h.bowl_eq hc h₁,
      h.symm.bowl_eq hd h₂]
    by_cases ha : a.dish? = some n
    · rw [if_neg (h.dishes n ha), if_pos ha, if_pos ha, if_neg (h.dishes n ha)]
    · rw [if_neg ha, if_neg ha, if_neg ha]

end

/-! ## actions in turn -/

/-- one action, and then another if the first one does not fail -/
def inTurn (a b : Action) (k : Kitchen) (p : Pantry) : Except Error Unit × Kitchen :=
  match a.effect k p with
  | (.ok _, k') => b.effect k' p
  | failed => failed

section
variable {a b : Action} {p : Pantry} {k : Kitchen} {c d : Container}

theorem inTurn_of_ok {k₁ : Kitchen} (h : a.Independent b)
    (hc : a.handle p (k.bowl a.bowl) = .ok c) (hd : b.handle p (k.bowl b.bowl) = .ok d)
    (ha : a.effect k p = (.ok (), k₁)) (hafter : k.After a c k₁) :
    ∃ k₁₂, inTurn a b k p = (.ok (), k₁₂) ∧ k₁.After b d k₁₂ := by
  have hb : b.handle p (k₁.bowl b.bowl) = .ok d := by
    rw [h.bowl_eq hc hafter, hd]
  obtain ⟨k₁₂, heffect, hthen⟩ := effect_of_handle_ok hb
  refine ⟨k₁₂, ?_, hthen⟩
  rw [inTurn, ha]
  exact heffect

/-- if one of two independent actions fails at its bowl, the two fail in turn -/
theorem inTurn_of_error (h : a.Independent b)
    (hfails : (∃ e, a.handle p (k.bowl a.bowl) = .error e) ∨
      ∃ e, b.handle p (k.bowl b.bowl) = .error e) :
    ∃ e k', inTurn a b k p = (.error e, k') := by
  cases hc : a.handle p (k.bowl a.bowl) with
  | error e =>
    obtain ⟨k', ha, -, -⟩ := effect_of_handle_error hc
    refine ⟨e, k', ?_⟩
    rw [inTurn, ha]
  | ok c =>
    obtain ⟨k₁, ha, hafter⟩ := effect_of_handle_ok hc
    rcases hfails with ⟨e, he⟩ | ⟨e, he⟩
    · cases hc.symm.trans he
    · have hb : b.handle p (k₁.bowl b.bowl) = .error e := by
        rw [h.bowl_eq hc hafter, he]
      obtain ⟨k', hb', -, -⟩ := effect_of_handle_error hb
      refine ⟨e, k', ?_⟩
      rw [inTurn, ha]
      exact hb'

/-- two independent actions in turn leave the same kitchen in both orders, or fail in both orders -/
theorem inTurn_comm (h : a.Independent b) (k : Kitchen) (p : Pantry) :
    (∃ k', inTurn a b k p = (.ok (), k') ∧ inTurn b a k p = (.ok (), k')) ∨
      ((∃ e k', inTurn a b k p = (.error e, k')) ∧ ∃ e k', inTurn b a k p = (.error e, k')) := by
  cases hc : a.handle p (k.bowl a.bowl) with
  | error e =>
    exact .inr ⟨inTurn_of_error h (.inl ⟨e, hc⟩), inTurn_of_error h.symm (.inr ⟨e, hc⟩)⟩
  | ok c =>
    cases hd : b.handle p (k.bowl b.bowl) with
    | error e =>
      exact .inr ⟨inTurn_of_error h (.inr ⟨e, hd⟩), inTurn_of_error h.symm (.inl ⟨e, hd⟩)⟩
    | ok d =>
      obtain ⟨k₁, ha, hafter⟩ := effect_of_handle_ok hc
      obtain ⟨k₂, hb, hafter'⟩ := effect_of_handle_ok hd
      obtain ⟨k₁₂, hturn, hthen⟩ := inTurn_of_ok h hc hd ha hafter
      obtain ⟨k₂₁, hturn', hthen'⟩ := inTurn_of_ok h.symm hd hc hb hafter'
      obtain rfl := Kitchen.After.comm h hc hd hafter hthen hafter' hthen'
      exact .inl ⟨k₁₂, hturn, hturn'⟩

end

/-! ## swapping -/

/-- two actions, and the same two the other way round -/
inductive SwappedPair (a b : Action) : List Action → List Action → Prop where
  | mk : SwappedPair a b [a, b] [b, a]

/-- the same kitchen and the same table, whatever was noted -/
def SameWork : Bench → Bench → Prop := Bench.Beside (· = ·) fun _ _ => True

theorem run_performAll_pair (a b : Action) (x : Bench) :
    ∃ log, (performAll [a, b]).run.run x =
      ((inTurn a b x.kitchen x.pantry).1, ⟨(inTurn a b x.kitchen x.pantry).2, x.pantry, log⟩) := by
  rw [performAll_cons, performAll_cons, performAll_nil, bind_assoc,
    run_bind_ok (run_emit _ x), run_bind, run_perform]
  dsimp only
  rw [inTurn]
  rcases a.effect x.kitchen x.pantry with ⟨e | u, k⟩
  · exact ⟨_, rfl⟩
  · dsimp only
    rw [bind_assoc, run_bind_ok (run_emit _ _), run_bind, run_perform]
    dsimp only
    rcases b.effect k x.pantry with ⟨e | u, k'⟩
    · exact ⟨_, rfl⟩
    · exact ⟨_, rfl⟩

theorem commuting_reworking {a b : Action} (h : a.Independent b) :
    Reworking (SwappedPair a b) (· = ·) (fun _ _ => True) fun _ _ => True where
  note _ _ _ _ := trivial
  effect act p k k' hk := by
    subst hk
    exact ⟨rfl, rfl⟩
  fail _ _ _ _ := trivial
  replaced as as' hswap x x' hx := by
    cases hswap
    obtain ⟨hkitchen, hpantry, -⟩ := hx
    obtain ⟨log, hrun⟩ := run_performAll_pair a b x
    obtain ⟨log', hrun'⟩ := run_performAll_pair b a x'
    rw [hrun, hrun', ← hkitchen, ← hpantry]
    rcases inTurn_comm h x.kitchen x.pantry with
      ⟨k, hturn, hturn'⟩ | ⟨⟨e, k, hturn⟩, e', k', hturn'⟩
    · rw [hturn, hturn']
      exact .ok ⟨rfl, rfl, trivial⟩
    · rw [hturn, hturn']
      exact .error trivial

theorem reworked_swapped (a b : Action) (before after : List Statement) :
    Reworked (SwappedPair a b) (before ++ .act a :: .act b :: after)
      (before ++ .act b :: .act a :: after) := by
  have hpair : SwappedPair a b [a, b] [b, a] := .mk
  exact Reworked.append_left before (.replace hpair (Reworked.refl _ after))

/-! ## recipes -/

/-- after a method that ends well, a recipe serves from the kitchen that the method has left -/
theorem Recipe.run_of_ok {r : Recipe} {main : Preparation} (hmain : r.main? = some main)
    {limit : Nat} {b : Bench}
    (hrun : runMethod limit main.method .empty main.ingredients = (.ok (), b)) :
    (r.run limit).result = ((b.kitchen.useBowl 0).serve r.servings).1 ∧
      (r.run limit).kitchen = ((b.kitchen.useBowl 0).serve r.servings).2 := by
  have hprep : r.runPreparation limit mainKey .empty =
      ⟨.ok (b.kitchen.bowl 0), b.kitchen.useBowl 0, b.log.reverse⟩ := by
    unfold Recipe.runPreparation Preparation.run
    rw [show r.preparation? mainKey = some main from hmain]
    dsimp only
    rw [hrun]
  unfold Recipe.run
  rw [hprep]
  dsimp only
  unfold Recipe.serveAfter
  rcases (b.kitchen.useBowl 0).serve r.servings with ⟨_ | text, k⟩ <;> exact ⟨rfl, rfl⟩

/-- a method that fails makes the recipe fail -/
theorem Recipe.run_of_error {r : Recipe} {main : Preparation} (hmain : r.main? = some main)
    {limit : Nat} {b : Bench} {e : Error}
    (hrun : runMethod limit main.method .empty main.ingredients = (.error e, b)) :
    ∃ e', (r.run limit).result = .error e' := by
  rw [Recipe.run_result hmain, hrun]
  exact ⟨_, rfl⟩

/-- two independent actions that stand next to each other in the main method can change places: the
recipe succeeds if and only if it did before, with the same text and the same kitchen -/
theorem run_swapped (r : Recipe) {main : Preparation} (hmain : r.main? = some main)
    {before after : List Statement} {a b : Action}
    (hmethod : main.method = before ++ .act a :: .act b :: after) (h : a.Independent b)
    (limit : Nat) :
    ((∃ text, ((r.rework fun _ => before ++ .act b :: .act a :: after).run limit).result =
        .ok text) ↔ ∃ text, (r.run limit).result = .ok text) ∧
    ∀ text, (r.run limit).result = .ok text →
      ((r.rework fun _ => before ++ .act b :: .act a :: after).run limit).result = .ok text ∧
      ((r.rework fun _ => before ++ .act b :: .act a :: after).run limit).kitchen =
        (r.run limit).kitchen := by
  have hswapped := r.main?_rework fun _ => before ++ .act b :: .act a :: after
  rw [hmain, Option.map_some] at hswapped
  have htogether : Together SameWork (fun _ _ => True)
      (runMethod limit main.method .empty main.ingredients)
      (runMethod limit (before ++ .act b :: .act a :: after) .empty main.ingredients) := by
    rw [hmethod]
    exact (reworked_swapped a b before after).runMethod (commuting_reworking h) limit rfl trivial
      main.ingredients
  generalize ho : runMethod limit main.method .empty main.ingredients = o at htogether
  generalize ho' : runMethod limit (before ++ .act b :: .act a :: after) .empty main.ingredients =
    o' at htogether
  cases htogether with
  | @ok u x x' related =>
    obtain ⟨hresult, hkitchen⟩ := Recipe.run_of_ok hmain ho
    obtain ⟨hresult', hkitchen'⟩ := Recipe.run_of_ok hswapped ho'
    have hsame : x.kitchen = x'.kitchen := related.kitchen
    rw [hresult, hresult', hkitchen, hkitchen', hsame]
    exact ⟨Iff.rfl, fun text htext => ⟨htext, rfl⟩⟩
  | error _ =>
    obtain ⟨e, hresult⟩ := Recipe.run_of_error hmain ho
    obtain ⟨e', hresult'⟩ := Recipe.run_of_error hswapped ho'
    rw [hresult, hresult']
    exact ⟨⟨nofun, nofun⟩, nofun⟩

/-- a syrup is pressed and stirred in three rounds, in two bowls -/
def syrupMain : Preparation where
  title := "Syrup"
  ingredients := Table.ofList [("juice", ⟨"juice", Quantity.ofInt? 106, .liquid⟩),
    ("rounds", ⟨"rounds", Quantity.ofInt? 3, .either⟩)]
  method := [.loopStart "Press" "rounds", .act (.put "juice" 1), .act (.put "rounds" 2),
    .loopEnd "pressed" none, .act (.pour 1 0)]
  oven := none

def syrup : Recipe := Document.recipe ⟨1, syrupMain, []⟩

theorem run_syrup_swapped :
    (Action.put "juice" 1).Independent (.put "rounds" 2) ∧
      ((syrup.rework fun _ => [.loopStart "Press" "rounds", .act (.put "rounds" 2),
        .act (.put "juice" 1), .loopEnd "pressed" none, .act (.pour 1 0)]).run 3).result =
          .ok "jjj" := by
  have hindependent : (Action.put "juice" 1).Independent (.put "rounds" 2) :=
    ⟨by decide, by decide, nofun⟩
  have hrun : (syrup.run 3).result = .ok "jjj" := by decide +kernel
  have hmethod : syrupMain.method = [.loopStart "Press" "rounds"] ++ .act (.put "juice" 1) ::
      .act (.put "rounds" 2) :: [.loopEnd "pressed" none, .act (.pour 1 0)] := rfl
  have hswapped := run_swapped syrup rfl hmethod hindependent 3
  exact ⟨hindependent, (hswapped.2 "jjj" hrun).1⟩

end Cookery
