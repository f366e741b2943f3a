import Cookery.Cooking.Basic

/-!
# What the steps of the cook do to the kitchen and the working table

The computations of `Cookery.Cooking.Basic` are programs over a bench.  Here each of them is
evaluated: a program at a bench is a result and a bench afterwards, and the log plays no part in
either.

* `run_bind`             a program after another one, at a bench;
* `Action.effect`        an action as a function of the kitchen and the table (`run_perform`);
* `Action.effect_ok`, `Action.effect_error`   all that an action can do;
* `loopCheck`, `countDown`   the two ways a loop uses the table (`run_loopValue`,
                         `run_decrement`);
* `follow_act`, `follow_loopStart`, `follow_unclosed`, `follow_loopEnd`   a method by its first
                         statement, a loop by the cut of what follows it.
-/

namespace Cookery

/-! ## programs at a bench -/

section
variable {α β : Type}

theorem run_throw (e : Error) (b : Bench) : (throw e : Cooking α).run.run b = (.error e, b) := rfl

theorem run_bind (m : Cooking α) (f : α → Cooking β) (b : Bench) :
    (m >>= f).run.run b =
      match m.run.run b with
      | (.ok a, b') => (f a).run.run b'
      | (.error e, b') => (.error e, b') := by
  show (match m.run.run b with | (a, b') => ExceptT.bindCont f a b') = _
  rcases m.run.run b with ⟨_ | a, b'⟩ <;> rfl

theorem run_bind_ok {m : Cooking α} {b b' : Bench} {a : α} (h : m.run.run b = (.ok a, b'))
    (f : α → Cooking β) : (m >>= f).run.run b = (f a).run.run b' := by
  rw [run_bind, h]

theorem run_bind_error {m : Cooking α} {b b' : Bench} {e : Error}
    (h : m.run.run b = (.error e, b')) (f : α → Cooking β) :
    (m >>= f).run.run b = (.error e, b') := by
  rw [run_bind, h]

theorem run_bind_eq_ok {m : Cooking α} {f : α → Cooking β} {b b' : Bench} {y : β}
    (h : (m >>= f).run.run b = (.ok y, b')) :
    ∃ a b₁, m.run.run b = (.ok a, b₁) ∧ (f a).run.run b₁ = (.ok y, b') := by
  rw [run_bind] at h
  split at h
  · rename_i a b₁ hm
    exact ⟨a, b₁, hm, h⟩
  · cases h

theorem run_orFault (fault : CookFault) (a? : Option α) (b : Bench) :
    (orFault fault a?).run.run b =
      match a? with
      | some a => (.ok a, b)
      | none => (.error (.runtime fault), b) := by
  cases a? <;> rfl

end

theorem run_get (b : Bench) : (get : Cooking Bench).run.run b = (.ok b, b) := rfl

theorem run_emit (e : Event) (b : Bench) :
    (emit e).run.run b = (.ok (), { b with log := e :: b.log }) := rfl

theorem run_changeKitchen (f : Kitchen → Kitchen) (b : Bench) :
    (changeKitchen f).run.run b = (.ok (), { b with kitchen := f b.kitchen }) := rfl

theorem run_fetch (name : String) (b : Bench) :
    (fetch name).run.run b =
      match b.pantry.find? name with
      | some i => (.ok i, b)
      | none => (.error (.unknownIngredient name), b) := by
  show (match b.pantry.find? name with
    | some i => (pure i : Cooking Ingredient)
    | none => throw (Error.unknownIngredient name)).run.run b = _
  split <;> rfl

/-! ## actions -/

/-- what combining does to a kitchen, given what the table holds under the name -/
def combineEffect (named : Ingredient) (n : Nat) (k : Kitchen) : Except Error Unit × Kitchen :=
  match named.value with
  | none => (.error (.runtime (.combineValueless named.name)), k)
  | some factor =>
    match combined named factor n (k.bowl n) with
    | .error fault => (.error (.runtime fault), k.useBowl n)
    | .ok i => (.ok (), (k.useBowl n).changeBowl n (·.push i))

/-- an action as a function of the kitchen and the table; it never changes the table -/
def Action.effect (a : Action) (k : Kitchen) (p : Pantry) : Except Error Unit × Kitchen :=
  match a with
  | .put name n =>
    match p.find? name with
    | none => (.error (.unknownIngredient name), k)
    | some i => (.ok (), k.changeBowl n (·.push i))
  | .combine name n =>
    match p.find? name with
    | none => (.error (.unknownIngredient name), k)
    | some i => combineEffect i n k
  | .liquefy n => (.ok (), k.changeBowl n .liquefy)
  | .pour bowl dish => (.ok (), k.pour bowl dish)
  | .stir n minutes => (.ok (), k.changeBowl n (·.stir minutes))

/-- the ingredient that an action names -/
def Action.ingredient? : Action → Option String
  | .put name _ => some name
  | .combine name _ => some name
  | .liquefy _ => none
  | .pour _ _ => none
  | .stir _ _ => none

theorem combined_eq_error {named : Ingredient} {factor : Quantity} {n : Nat} {bowl : Container}
    {fault : CookFault} (h : combined named factor n bowl = .error fault) :
    fault = .combineIntoEmpty named.name n ∨
      (∃ top, bowl.top? = some top ∧ top.value = none ∧
        fault = .combineWithValueless named.name top.name) ∨
      fault = .combineOverflow named.name := by
  unfold combined at h
  split at h
  · cases h
    exact .inl rfl
  · rename_i top ht
    split at h
    · rename_i hv
      cases h
      exact .inr (.inl ⟨top, ht, hv, rfl⟩)
    · split at h
      · cases h
        exact .inr (.inr rfl)
      · cases h

/-- a combined ingredient has a value -/
theorem combined_eq_ok {named i : Ingredient} {factor : Quantity} {n : Nat} {bowl : Container}
    (h : combined named factor n bowl = .ok i) :
    ∃ product, i = { named with value := some product } := by
  unfold combined at h
  split at h
  · cases h
  · split at h
    · cases h
    · split at h
      · cases h
      · rename_i product _
        cases h
        exact ⟨product, rfl⟩

/-- an action fails because its ingredient is not there, or because it cannot be combined -/
theorem Action.effect_error {a : Action} {k k' : Kitchen} {p : Pantry} {e : Error}
    (h : a.effect k p = (.error e, k')) :
    ∃ name ∈ a.ingredient?, (p.find? name = none ∧ k' = k ∧ e = .unknownIngredient name) ∨
      ∃ n i, a = .combine name n ∧ p.find? name = some i ∧
        ((i.value = none ∧ k' = k ∧ e = .runtime (.combineValueless i.name)) ∨
          ∃ factor fault, i.value = some factor ∧
            combined i factor n (k.bowl n) = .error fault ∧ k' = k.useBowl n ∧
              e = .runtime fault) := by
  cases a with
  | put name n =>
    refine ⟨name, rfl, .inl ?_⟩
    simp only [effect] at h
    split at h
    · rename_i hf
      cases h
      exact ⟨hf, rfl, rfl⟩
    · cases h
  | combine name n =>
    refine ⟨name, rfl, ?_⟩
    simp only [effect, combineEffect] at h
    split at h
    · rename_i hf
      cases h
      exact .inl ⟨hf, rfl, rfl⟩
    · rename_i i hf
      refine .inr ⟨n, i, rfl, hf, ?_⟩
      split at h
      · rename_i hv
        cases h
        exact .inl ⟨hv, rfl, rfl⟩
      · rename_i factor hv
        split at h
        · rename_i fault hc
          cases h
          exact .inr ⟨factor, fault, hv, hc, rfl, rfl⟩
        · cases h
  | liquefy n => cases h
  | pour bowl dish => cases h
  | stir n minutes => cases h

/-- an action that is done pushes an ingredient, or moves and liquefies what is there -/
theorem Action.effect_ok {a : Action} {k k' : Kitchen} {p : Pantry}
    (h : a.effect k p = (.ok (), k')) :
    (∃ name n i, a = .put name n ∧ p.find? name = some i ∧ k' = k.changeBowl n (·.push i)) ∨
      (∃ name n i j factor, a = .combine name n ∧ p.find? name = some i ∧ i.value = some factor ∧
        combined i factor n (k.bowl n) = .ok j ∧
          k' = (k.useBowl n).changeBowl n (·.push j)) ∨
      (∃ n, a = .liquefy n ∧ k' = k.changeBowl n .liquefy) ∨
      (∃ bowl dish, a = .pour bowl dish ∧ k' = k.pour bowl dish) ∨
      (∃ n minutes, a = .stir n minutes ∧ k' = k.changeBowl n (·.stir minutes)) := by
  cases a with
  | put name n =>
    simp only [effect] at h
    split at h
    · cases h
    · rename_i i hf
      cases h
      exact .inl ⟨name, n, i, rfl, hf, rfl⟩
  | combine name n =>
    simp only [effect, combineEffect] at h
    split at h
    · cases h
    · rename_i i hf
      split at h
      · cases h
      · rename_i factor hv
        split at h
        · cases h
        · rename_i j hc
          cases h
          exact .inr (.inl ⟨name, n, i, j, factor, rfl, hf, hv, hc, rfl⟩)
  | liquefy n =>
    cases h
    exact .inr (.inr (.inl ⟨n, rfl, rfl⟩))
  | pour bowl dish =>
    cases h
    exact .inr (.inr (.inr (.inl ⟨bowl, dish, rfl, rfl⟩)))
  | stir n minutes =>
    cases h
    exact .inr (.inr (.inr (.inr ⟨n, minutes, rfl, rfl⟩)))

theorem run_put (name : String) (n : Nat) (b : Bench) :
    (Action.put name n).perform.run.run b =
      (((Action.put name n).effect b.kitchen b.pantry).1,
        { b with kitchen := ((Action.put name n).effect b.kitchen b.pantry).2 }) := by
  have hf := run_fetch name b
  unfold Action.perform
  cases h : b.pantry.find? name with
  | none =>
    rw [h] at hf
    rw [run_bind_error hf]
    simp only [Action.effect, h]
  | some i =>
    rw [h] at hf
    rw [run_bind_ok hf, run_changeKitchen]
    simp only [Action.effect, h]

theorem run_combine (name : String) (n : Nat) (b : Bench) :
    (Action.combine name n).perform.run.run b =
      (((Action.combine name n).effect b.kitchen b.pantry).1,
        { b with kitchen := ((Action.combine name n).effect b.kitchen b.pantry).2 }) := by
  have hf := run_fetch name b
  show (combine name n).run.run b = _
  unfold combine
  cases h : b.pantry.find? name with
  | none =>
    rw [h] at hf
    rw [run_bind_error hf]
    simp only [Action.effect, h]
  | some i =>
    rw [h] at hf
    have ho := run_orFault (.combineValueless i.name) i.value b
    rw [run_bind_ok hf]
    cases hv : i.value with
    | none =>
      rw [hv] at ho
      rw [run_bind_error ho]
      simp only [Action.effect, h, combineEffect, hv]
    | some factor =>
      rw [hv] at ho
      rw [run_bind_ok ho, run_bind_ok (run_changeKitchen _ b), run_bind_ok (run_get _)]
      dsimp only
      rw [Kitchen.bowl_useBowl]
      simp only [Action.effect, h, combineEffect, hv]
      cases combined i factor n (b.kitchen.bowl n) <;> rfl

/-- an action gives its effect; table and log stay -/
theorem run_perform (a : Action) (b : Bench) :
    a.perform.run.run b =
      ((a.effect b.kitchen b.pantry).1,
        { b with kitchen := (a.effect b.kitchen b.pantry).2 }) := by
  cases a with
  | put name n => exact run_put name n b
  | combine name n => exact run_combine name n b
  | liquefy n => rfl
  | pour bowl dish => rfl
  | stir n minutes => rfl

/-! ## loops -/

/-- the value that decides about the next pass of a loop, or why there is none -/
def loopCheck (ingredient : String) (p : Pantry) : Except Error Quantity :=
  match p.find? ingredient with
  | none => .error (.unknownIngredient ingredient)
  | some i =>
    match i.value with
    | none => .error (.runtime (.loopValueless ingredient))
    | some q => .ok q

/-- the table after one is taken away from an ingredient, or why it cannot be -/
def countDown (name : String) (p : Pantry) : Except Error Pantry :=
  match p.find? name with
  | none => .error (.unknownIngredient name)
  | some i =>
    match i.value with
    | none => .error (.runtime (.decrementValueless name))
    | some q =>
      match q.pred? with
      | none => .error (.runtime (.decrementOverflow name))
      | some less => .ok (p.modify name ({ · with value := some less }))

theorem loopCheck_eq_error {ingredient : String} {p : Pantry} {e : Error}
    (h : loopCheck ingredient p = .error e) :
    (p.find? ingredient = none ∧ e = .unknownIngredient ingredient) ∨
      ∃ i, p.find? ingredient = some i ∧ i.value = none ∧
        e = .runtime (.loopValueless ingredient) := by
  unfold loopCheck at h
  split at h
  · rename_i hf
    cases h
    exact .inl ⟨hf, rfl⟩
  · rename_i i hf
    split at h
    · rename_i hv
      cases h
      exact .inr ⟨i, hf, hv, rfl⟩
    · cases h

theorem countDown_eq_error {name : String} {p : Pantry} {e : Error}
    (h : countDown name p = .error e) :
    (p.find? name = none ∧ e = .unknownIngredient name) ∨
      (∃ i, p.find? name = some i ∧ i.value = none ∧ e = .runtime (.decrementValueless name)) ∨
      e = .runtime (.decrementOverflow name) := by
  unfold countDown at h
  split at h
  · rename_i hf
    cases h
    exact .inl ⟨hf, rfl⟩
  · rename_i i hf
    split at h
    · rename_i hv
      cases h
      exact .inr (.inl ⟨i, hf, hv, rfl⟩)
    · split at h
      · cases h
        exact .inr (.inr rfl)
      · cases h

theorem countDown_eq_ok {name : String} {p p' : Pantry} (h : countDown name p = .ok p') :
    ∃ i q less, p.find? name = some i ∧ i.value = some q ∧ q.pred? = some less ∧
      p' = p.modify name ({ · with value := some less }) := by
  unfold countDown at h
  split at h
  · cases h
  · rename_i i hf
    split at h
    · cases h
    · rename_i q hv
      split at h
      · cases h
      · rename_i less hl
        cases h
        exact ⟨i, q, less, hf, hv, hl, rfl⟩

theorem run_loopValue (ingredient : String) (b : Bench) :
    (loopValue ingredient).run.run b = (loopCheck ingredient b.pantry, b) := by
  have hf := run_fetch ingredient b
  unfold loopValue
  cases h : b.pantry.find? ingredient with
  | none =>
    rw [h] at hf
    rw [run_bind_error hf]
    simp only [loopCheck, h]
  | some i =>
    rw [h] at hf
    rw [run_bind_ok hf, run_orFault]
    simp only [loopCheck, h]
    cases i.value <;> rfl

theorem run_decrement (name : String) (b : Bench) :
    (decrement name).run.run b =
      match countDown name b.pantry with
      | .error e => (.error e, b)
      | .ok p => (.ok (), { b with pantry := p }) := by
  have hf := run_fetch name b
  unfold decrement
  cases h : b.pantry.find? name with
  | none =>
    rw [h] at hf
    rw [run_bind_error hf]
    simp only [countDown, h]
  | some i =>
    rw [h] at hf
    rw [run_bind_ok hf]
    have ho := run_orFault (.decrementValueless name) i.value b
    cases hv : i.value with
    | none =>
      rw [hv] at ho
      rw [run_bind_error ho]
      simp only [countDown, h, hv]
    | some q =>
      rw [hv] at ho
      rw [run_bind_ok ho]
      have hp := run_orFault (.decrementOverflow name) q.pred? b
      cases hq : q.pred? with
      | none =>
        rw [hq] at hp
        rw [run_bind_error hp]
        simp only [countDown, h, hv, hq]
      | some less =>
        rw [hq] at hp
        rw [run_bind_ok hp]
        simp only [countDown, h, hv, hq]
        rfl

/-! ## methods -/

theorem follow_nil (limit : Nat) : follow limit [] = pure () := by
  rw [follow]

theorem follow_act (limit : Nat) (action : Action) (ss : List Statement) :
    follow limit (.act action :: ss) =
      emit (.resolve (.act action)) >>= fun _ =>
        action.perform >>= fun _ => follow limit ss := by
  rw [follow]

theorem follow_loopEnd (limit : Nat) (verbed : String) (ingredient? : Option String)
    (ss : List Statement) :
    follow limit (.loopEnd verbed ingredient? :: ss) =
      emit (.resolve (.loopEnd verbed ingredient?)) >>= fun _ =>
        throw (.runtime (.strayLoopEnd verbed)) := by
  rw [follow]

theorem follow_unclosed {limit : Nat} {verb ingredient : String} {ss : List Statement}
    (h : cutLoop? verb ss = none) :
    follow limit (.loopStart verb ingredient :: ss) =
      emit (.resolve (.loopStart verb ingredient)) >>= fun _ =>
        throw (.runtime (.unclosedLoop verb)) := by
  rw [follow]
  congr 1
  funext _
  split
  · rfl
  · rename_i hc
    rw [hc] at h
    cases h

/-- a loop with an end: its passes, then what follows its end -/
theorem follow_loopStart {limit : Nat} {verb ingredient : String} {ss : List Statement}
    {cut : LoopCut} (h : cutLoop? verb ss = some cut) :
    follow limit (.loopStart verb ingredient :: ss) =
      emit (.resolve (.loopStart verb ingredient)) >>= fun _ =>
        passes verb ingredient (cut.until?.getD ingredient) (follow limit cut.body) 0 limit
          >>= fun _ => follow limit cut.rest := by
  rw [follow]
  congr 1
  funext _
  split
  · rename_i hn
    rw [hn] at h
    cases h
  · rename_i c hc
    obtain rfl : c = cut := Option.some.inj (hc.symm.trans h)
    rfl

end Cookery
