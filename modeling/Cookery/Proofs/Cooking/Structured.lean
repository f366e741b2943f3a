import Cookery.Cooking.Block
import Cookery.Cooking.Run
import Cookery.Proofs.Cooking.Effect

/-!
# Flat methods against nested blocks

`Block.Does` says what a block does to a kitchen and a working table, by rules that follow the
tree: its items in order, and a loop by rounds of its body.  No index, no search for a loop end and
no log occur in it.  A method that is a closed block written flat does just that.

* `Rounds`           the rules of a loop: stop at zero, fail when the limit is used up, do the body,
                     count down, go on;
* `Block.Does`       the rules of a block;
* `Realizes m A`     the program `m` has the effect `A`, and no other one;
* `follow_flatten`   following a closed block written flat is carrying the block out;
* `execute_realizes` carrying a block out has the effect that the rules give;
* `runMethod_flatten_iff`  the two together, for whole methods.
-/

namespace Cookery

/-! ## the rules -/

/-- what the cook changes: the kitchen and the working table -/
abbrev Scene : Type := Kitchen × Pantry

def Bench.scene (b : Bench) : Scene := (b.kitchen, b.pantry)

/-- from a scene, a result and a scene afterwards -/
abbrev Effect : Type := Scene → Except Error Unit → Scene → Prop

/-- one effect and then another, unless the first one fails -/
inductive Effect.Then (A B : Effect) : Effect where
  | both {s m s' : Scene} {r : Except Error Unit} (first : A s (.ok ()) m) (second : B m r s') :
    Then A B s r s'
  | failed {s s' : Scene} {e : Error} (first : A s (.error e) s') : Then A B s (.error e) s'

/-- the rounds of a loop after `made` of them -/
inductive Rounds (limit : Nat) (verb ingredient counter : String) (body : Effect) :
    Nat → Effect where
  | unchecked {made : Nat} {s : Scene} {e : Error} (check : loopCheck ingredient s.2 = .error e) :
    Rounds limit verb ingredient counter body made s (.error e) s
  | stop {made : Nat} {s : Scene} {value : Quantity} (check : loopCheck ingredient s.2 = .ok value)
    (zero : value.val = 0) : Rounds limit verb ingredient counter body made s (.ok ()) s
  | usedUp {made : Nat} {s : Scene} {value : Quantity}
    (check : loopCheck ingredient s.2 = .ok value) (nonzero : value.val ≠ 0) (used : limit ≤ made) :
    Rounds limit verb ingredient counter body made s (.error (.loopLimit verb limit)) s
  | broken {made : Nat} {s s' : Scene} {value : Quantity} {e : Error}
    (check : loopCheck ingredient s.2 = .ok value) (nonzero : value.val ≠ 0) (free : made < limit)
    (once : body s (.error e) s') : Rounds limit verb ingredient counter body made s (.error e) s'
  | uncounted {made : Nat} {s s' : Scene} {value : Quantity} {e : Error}
    (check : loopCheck ingredient s.2 = .ok value) (nonzero : value.val ≠ 0) (free : made < limit)
    (once : body s (.ok ()) s') (count : countDown counter s'.2 = .error e) :
    Rounds limit verb ingredient counter body made s (.error e) s'
  | again {made : Nat} {s m s' : Scene} {value : Quantity} {p : Pantry} {r : Except Error Unit}
    (check : loopCheck ingredient s.2 = .ok value) (nonzero : value.val ≠ 0) (free : made < limit)
    (once : body s (.ok ()) m) (count : countDown counter m.2 = .ok p)
    (more : Rounds limit verb ingredient counter body (made + 1) (m.1, p) r s') :
    Rounds limit verb ingredient counter body made s r s'

def Action.Does (a : Action) : Effect := fun s r s' =>
  a.effect s.1 s.2 = (r, s'.1) ∧ s'.2 = s.2

/-- the items of a block in order; a loop counts down the ingredient named at its end, or else its
own -/
def Block.Does (limit : Nat) : Block → Effect
  | .done => fun s r s' => r = .ok () ∧ s' = s
  | .act action next => action.Does.Then (next.Does limit)
  | .loop verb ingredient _ until? body next =>
    Effect.Then (Rounds limit verb ingredient (until?.getD ingredient) (body.Does limit) 0)
      (next.Does limit)

/-! ## flat and nested -/

/-- following a closed block written flat is carrying the block out, events included -/
theorem follow_flatten (limit : Nat) (b : Block) (h : b.Closed) :
    follow limit b.flatten = b.execute limit := by
  induction b with
  | done => exact follow_nil limit
  | act action next ih =>
    rw [Block.flatten, follow_act, ih h]
    rfl
  | loop verb ingredient verbed until? body next ihb ihn =>
    obtain ⟨hv, hb, hbody, hnext⟩ := h
    rw [Block.flatten, follow_loopStart (cutLoop?_append hb hv), ihb hbody, ihn hnext]
    rfl

/-! ## programs and effects -/

/-- `m` has the effect `A` at every bench, and no other one -/
def Realizes (m : Cooking Unit) (A : Effect) : Prop :=
  ∀ b r s, A b.scene r s ↔ (m.run.run b).1 = r ∧ (m.run.run b).2.scene = s

theorem realizes_done (limit : Nat) : Realizes (pure ()) (Block.Does limit .done) := by
  intro b r s
  show (r = .ok () ∧ s = b.scene) ↔ .ok () = r ∧ b.scene = s
  exact and_congr eq_comm eq_comm

/-- an event leaves the effect as it is -/
theorem Realizes.emit {m : Cooking Unit} {A : Effect} (h : Realizes m A) (e : Event) :
    Realizes (Cookery.emit e >>= fun _ => m) A := by
  intro b r s
  rw [run_bind_ok (run_emit e b)]
  exact h { b with log := e :: b.log } r s

theorem Realizes.then {m n : Cooking Unit} {A B : Effect} (hm : Realizes m A)
    (hn : Realizes n B) : Realizes (m >>= fun _ => n) (A.Then B) := by
  intro b r s
  cases h : m.run.run b with
  | mk result b' =>
    have hA := hm b
    rw [h] at hA
    cases result with
    | error e =>
      rw [run_bind_error h]
      constructor
      · rintro (⟨first, _⟩ | first)
        · cases ((hA _ _).mp first).1
        · exact (hA _ _).mp first
      · rintro ⟨rfl, rfl⟩
        exact .failed ((hA _ _).mpr ⟨rfl, rfl⟩)
    | ok u =>
      rw [run_bind_ok h]
      have hB := hn b' r s
      constructor
      · rintro (⟨first, second⟩ | first)
        · obtain ⟨_, rfl⟩ := (hA _ _).mp first
          exact hB.mp second
        · cases ((hA _ _).mp first).1
      · intro hr
        exact .both ((hA _ _).mpr ⟨rfl, rfl⟩) (hB.mpr hr)

theorem realizes_perform (a : Action) : Realizes a.perform a.Does := by
  intro b r s
  rw [run_perform]
  show (a.effect b.kitchen b.pantry = (r, s.1) ∧ s.2 = b.pantry) ↔
    (a.effect b.kitchen b.pantry).1 = r ∧ ((a.effect b.kitchen b.pantry).2, b.pantry) = s
  rw [Prod.ext_iff, Prod.ext_iff, and_assoc]
  exact and_congr_right fun _ => and_congr_right fun _ => eq_comm

/-! ## rounds and passes -/

def CountsDown (counter : String) : Effect := fun s r s' =>
  match countDown counter s.2 with
  | .error e => r = .error e ∧ s' = s
  | .ok p => r = .ok () ∧ s' = (s.1, p)

theorem realizes_decrement (counter : String) :
    Realizes (decrement counter) (CountsDown counter) := by
  intro b r s
  rw [run_decrement]
  unfold CountsDown
  show (match countDown counter b.pantry with
    | .error e => r = .error e ∧ s = b.scene
    | .ok p => r = .ok () ∧ s = (b.kitchen, p)) ↔ _
  cases countDown counter b.pantry with
  | error e => exact and_congr eq_comm eq_comm
  | ok p => exact and_congr eq_comm eq_comm

section
variable {limit made : Nat} {verb ingredient counter : String} {body : Effect} {s : Scene}

theorem rounds_iff_of_unchecked {e : Error} (check : loopCheck ingredient s.2 = .error e)
    (r : Except Error Unit) (s' : Scene) :
    Rounds limit verb ingredient counter body made s r s' ↔ r = .error e ∧ s' = s := by
  constructor
  · intro h
    cases h with
    | unchecked c => cases check.symm.trans c; exact ⟨rfl, rfl⟩
    | stop c _ => cases check.symm.trans c
    | usedUp c _ _ => cases check.symm.trans c
    | broken c _ _ _ => cases check.symm.trans c
    | uncounted c _ _ _ _ => cases check.symm.trans c
    | again c _ _ _ _ _ => cases check.symm.trans c
  · rintro ⟨rfl, rfl⟩
    exact .unchecked check

theorem rounds_iff_of_zero {value : Quantity} (check : loopCheck ingredient s.2 = .ok value)
    (zero : value.val = 0) (r : Except Error Unit) (s' : Scene) :
    Rounds limit verb ingredient counter body made s r s' ↔ r = .ok () ∧ s' = s := by
  constructor
  · intro h
    cases h with
    | unchecked c => cases check.symm.trans c
    | stop _ _ => exact ⟨rfl, rfl⟩
    | usedUp c n _ => cases check.symm.trans c; exact absurd zero n
    | broken c n _ _ => cases check.symm.trans c; exact absurd zero n
    | uncounted c n _ _ _ => cases check.symm.trans c; exact absurd zero n
    | again c n _ _ _ _ => cases check.symm.trans c; exact absurd zero n
  · rintro ⟨rfl, rfl⟩
    exact .stop check zero

theorem rounds_iff_of_usedUp {value : Quantity} (check : loopCheck ingredient s.2 = .ok value)
    (nonzero : value.val ≠ 0) (used : limit ≤ made) (r : Except Error Unit) (s' : Scene) :
    Rounds limit verb ingredient counter body made s r s' ↔
      r = .error (.loopLimit verb limit) ∧ s' = s := by
  constructor
  · intro h
    cases h with
    | unchecked c => cases check.symm.trans c
    | stop c z => cases check.symm.trans c; exact absurd z nonzero
    | usedUp _ _ _ => exact ⟨rfl, rfl⟩
    | broken _ _ free _ => omega
    | uncounted _ _ free _ _ => omega
    | again _ _ free _ _ _ => omega
  · rintro ⟨rfl, rfl⟩
    exact .usedUp check nonzero used

/-- one round and the rest: the body, the count, the rounds after it -/
theorem rounds_iff_of_free {value : Quantity} (check : loopCheck ingredient s.2 = .ok value)
    (nonzero : value.val ≠ 0) (free : made < limit) (r : Except Error Unit) (s' : Scene) :
    Rounds limit verb ingredient counter body made s r s' ↔
      body.Then ((CountsDown counter).Then
        (Rounds limit verb ingredient counter body (made + 1))) s r s' := by
  constructor
  · intro h
    cases h with
    | unchecked c => cases check.symm.trans c
    | stop c z => cases check.symm.trans c; exact absurd z nonzero
    | usedUp _ _ used => omega
    | broken _ _ _ once => exact .failed once
    | uncounted _ _ _ once count =>
      refine .both once (.failed ?_)
      unfold CountsDown
      rw [count]
      exact ⟨rfl, rfl⟩
    | again _ _ _ once count more =>
      refine .both once (.both ?_ more)
      unfold CountsDown
      rw [count]
      exact ⟨rfl, rfl⟩
  · rintro (⟨once, ⟨counts, more⟩ | counts⟩ | once)
    · unfold CountsDown at counts
      split at counts
      · cases counts.1
      · rename_i p count
        obtain ⟨_, rfl⟩ := counts
        exact .again check nonzero free once count more
    · unfold CountsDown at counts
      split at counts
      · rename_i e' count
        obtain ⟨he, rfl⟩ := counts
        cases he
        exact .uncounted check nonzero free once count
      · cases counts.1
    · exact .broken check nonzero free once

/-- the check at the start of a round, where `k` does what is left for a value that is not zero -/
theorem realizes_checked {event : Event} {k : Quantity → Cooking Unit}
    (hk : ∀ b value, loopCheck ingredient b.pantry = .ok value → value.val ≠ 0 → ∀ r s,
      Rounds limit verb ingredient counter body made b.scene r s ↔
        ((k value).run.run b).1 = r ∧ ((k value).run.run b).2.scene = s) :
    Realizes (loopValue ingredient >>= fun value => if value.val = 0 then emit event else k value)
      (Rounds limit verb ingredient counter body made) := by
  intro b r s
  have hrun := run_loopValue ingredient b
  cases check : loopCheck ingredient b.pantry with
  | error e =>
    rw [check] at hrun
    rw [run_bind_error hrun, rounds_iff_of_unchecked check]
    exact and_congr eq_comm eq_comm
  | ok value =>
    rw [check] at hrun
    rw [run_bind_ok hrun]
    by_cases zero : value.val = 0
    · rw [if_pos zero, run_emit, rounds_iff_of_zero check zero]
      exact and_congr eq_comm eq_comm
    · rw [if_neg zero]
      exact hk b value check zero r s

end

/-- passes are rounds, by induction on the passes that are left -/
theorem realizes_passes {limit : Nat} {verb ingredient counter : String} {m : Cooking Unit}
    {body : Effect} (hm : Realizes m body) (left : Nat) :
    ∀ made, made + left = limit →
      Realizes (passes verb ingredient counter m made left)
        (Rounds limit verb ingredient counter body made) := by
  induction left with
  | zero =>
    intro made hlimit
    obtain rfl : made = limit := hlimit
    refine realizes_checked fun b value check nonzero r s => ?_
    rw [run_throw, rounds_iff_of_usedUp check nonzero (Nat.le_refl made)]
    exact and_congr eq_comm eq_comm
  | succ left ih =>
    intro made hlimit
    have hrest := ih (made + 1) (by omega)
    refine realizes_checked fun b value check nonzero r s => ?_
    rw [rounds_iff_of_free check nonzero (by omega)]
    exact ((hm.then ((realizes_decrement counter).then hrest)).emit _) b r s

/-- carrying a block out has the effect of the block, and no other one -/
theorem execute_realizes (limit : Nat) (b : Block) : Realizes (b.execute limit) (b.Does limit) := by
  induction b with
  | done => exact realizes_done limit
  | act action next ih => exact ((realizes_perform action).then ih).emit _
  | loop verb ingredient verbed until? body next ihb ihn =>
    exact ((realizes_passes ihb limit 0 (Nat.zero_add limit)).then ihn).emit _

/-! ## what the rules keep -/

/-- an effect keeps `I`, also where it fails, and fails with errors in `E` only -/
def Effect.Keeps (A : Effect) (I : Scene → Prop) (E : Error → Prop) : Prop :=
  ∀ s r s', I s → A s r s' → I s' ∧ ∀ e, r = .error e → E e

section
variable {I : Scene → Prop} {E : Error → Prop}

theorem Effect.Keeps.then {A B : Effect} (hA : A.Keeps I E) (hB : B.Keeps I E) :
    (A.Then B).Keeps I E := by
  rintro s r s' hs (⟨first, second⟩ | first)
  · exact hB _ _ _ (hA _ _ _ hs first).1 second
  · exact hA _ _ _ hs first

/-- what one round keeps, all rounds keep: by induction on the rules of the loop -/
theorem Effect.Keeps.rounds {limit : Nat} {verb ingredient counter : String} {body : Effect}
    (hcheck : ∀ s, I s → ∀ e, loopCheck ingredient s.2 = .error e → E e)
    (hlimit : E (.loopLimit verb limit)) (hbody : body.Keeps I E)
    (hcount : (CountsDown counter).Keeps I E) (made : Nat) :
    Effect.Keeps (Rounds limit verb ingredient counter body made) I E := by
  intro s r s' hs h
  induction h with
  | unchecked check =>
    refine ⟨hs, fun e he => ?_⟩
    cases he
    exact hcheck _ hs _ check
  | stop _ _ => exact ⟨hs, nofun⟩
  | usedUp _ _ _ =>
    refine ⟨hs, fun e he => ?_⟩
    cases he
    exact hlimit
  | broken _ _ _ once => exact hbody _ _ _ hs once
  | @uncounted _ _ m _ e _ _ _ once count =>
    have hm := (hbody _ _ _ hs once).1
    refine hcount m (.error e) m hm ?_
    unfold CountsDown
    rw [count]
    exact ⟨rfl, rfl⟩
  | @again _ _ m _ _ p _ _ _ _ once count more ih =>
    have hm := (hbody _ _ _ hs once).1
    refine ih (hcount m (.ok ()) (m.1, p) hm ?_).1
    unfold CountsDown
    rw [count]
    exact ⟨rfl, rfl⟩

/-- the part of a block that a statement stands for keeps `I` and stays in `E` -/
def Statement.Keeps (limit : Nat) (I : Scene → Prop) (E : Error → Prop) : Statement → Prop
  | .act action => action.Does.Keeps I E
  | .loopStart verb ingredient =>
    (∀ s, I s → ∀ e, loopCheck ingredient s.2 = .error e → E e) ∧ E (.loopLimit verb limit) ∧
      (CountsDown ingredient).Keeps I E
  | .loopEnd _ none => True
  | .loopEnd _ (some counter) => (CountsDown counter).Keeps I E

/-- what every statement keeps, the block keeps: by induction on the tree -/
theorem Block.does_keeps {limit : Nat} (b : Block)
    (h : ∀ st ∈ b.flatten, st.Keeps limit I E) : (b.Does limit).Keeps I E := by
  induction b with
  | done =>
    rintro s r s' hs ⟨rfl, rfl⟩
    exact ⟨hs, nofun⟩
  | act action next ih =>
    have hact : action.Does.Keeps I E := h (.act action) List.mem_cons_self
    exact hact.then (ih fun st hst => h st (List.mem_cons_of_mem _ hst))
  | loop verb ingredient verbed until? body next ihb ihn =>
    obtain ⟨hcheck, hlimit, hown⟩ := h (.loopStart verb ingredient) List.mem_cons_self
    have hbody := ihb fun st hst =>
      h st (List.mem_cons_of_mem _ (List.mem_append_left _ hst))
    have hend := h (.loopEnd verbed until?)
      (List.mem_cons_of_mem _ (List.mem_append_right _ List.mem_cons_self))
    have hnext := ihn fun st hst =>
      h st (List.mem_cons_of_mem _ (List.mem_append_right _ (List.mem_cons_of_mem _ hst)))
    -- the counter is named at the end of the loop, or else at its start
    have hcount : (CountsDown (until?.getD ingredient)).Keeps I E := by
      cases until? with
      | none => exact hown
      | some counter => exact hend
    exact (Effect.Keeps.rounds hcheck hlimit hbody hcount 0).then hnext

end

/-! ## loops of a closed block are matched -/

/-- a loop without an end, or an end without a loop -/
def Error.IsMismatch : Error → Prop
  | .runtime (.unclosedLoop _) => True
  | .runtime (.strayLoopEnd _) => True
  | _ => False

theorem countsDown_keeps {counter : String} {I : Scene → Prop} {E : Error → Prop}
    (herror : ∀ s e, I s → countDown counter s.2 = .error e → E e)
    (hok : ∀ s p, I s → countDown counter s.2 = .ok p → I (s.1, p)) :
    (CountsDown counter).Keeps I E := by
  intro s r s' hs h
  unfold CountsDown at h
  split at h
  · rename_i e hc
    obtain ⟨rfl, rfl⟩ := h
    refine ⟨hs, fun e' he => ?_⟩
    cases he
    exact herror _ _ hs hc
  · rename_i p hc
    obtain ⟨rfl, rfl⟩ := h
    exact ⟨hok _ _ hs hc, nofun⟩

theorem Action.does_keeps {a : Action} {I : Scene → Prop} {E : Error → Prop}
    (h : ∀ k p r k', I (k, p) → a.effect k p = (r, k') → I (k', p) ∧ ∀ e, r = .error e → E e) :
    a.Does.Keeps I E := by
  rintro ⟨k, p⟩ r ⟨k', p'⟩ hs ⟨heff, rfl⟩
  exact h k _ r k' hs heff

/-- no statement of a block reports a mismatch -/
theorem Statement.keeps_matched (limit : Nat) (st : Statement) :
    st.Keeps limit (fun _ => True) (fun e => ¬ e.IsMismatch) := by
  have hcount : ∀ counter,
      (CountsDown counter).Keeps (fun _ => True) (fun e => ¬ e.IsMismatch) := by
    intro counter
    refine countsDown_keeps (fun s e _ h => ?_) (fun _ _ _ _ => trivial)
    rcases countDown_eq_error h with ⟨_, rfl⟩ | ⟨_, _, _, rfl⟩ | rfl <;> exact id
  match st with
  | .act action =>
    refine Action.does_keeps fun k p r k' _ heff => ⟨trivial, fun e he => ?_⟩
    subst he
    obtain ⟨name, _, ⟨_, _, rfl⟩ | ⟨n, i, _, _, ⟨_, _, rfl⟩ | ⟨factor, fault, _, hc, _, rfl⟩⟩⟩ :=
      Action.effect_error heff
    · exact id
    · exact id
    · rcases combined_eq_error hc with rfl | ⟨_, _, _, rfl⟩ | rfl <;> exact id
  | .loopStart verb ingredient =>
    refine ⟨fun s _ e h => ?_, id, hcount ingredient⟩
    rcases loopCheck_eq_error h with ⟨_, rfl⟩ | ⟨_, _, _, rfl⟩ <;> exact id
  | .loopEnd _ none => trivial
  | .loopEnd _ (some counter) => exact hcount counter

/-- a method that is a closed block written flat has the effect of the block, and no other one; its
loops are all matched -/
theorem runMethod_flatten_iff (b : Block) (h : b.Closed) (limit : Nat) (kitchen : Kitchen)
    (pantry : Pantry) :
    (∀ result kitchen' pantry',
      b.Does limit (kitchen, pantry) result (kitchen', pantry') ↔
        (runMethod limit b.flatten kitchen pantry).1 = result ∧
        (runMethod limit b.flatten kitchen pantry).2.kitchen = kitchen' ∧
        (runMethod limit b.flatten kitchen pantry).2.pantry = pantry') ∧
    ∀ e, (runMethod limit b.flatten kitchen pantry).1 = .error e → ¬ e.IsMismatch := by
  have hr := execute_realizes limit b ⟨kitchen, pantry, []⟩
  unfold runMethod
  rw [follow_flatten limit b h]
  constructor
  · intro result kitchen' pantry'
    rw [← Prod.mk.injEq]
    exact hr result (kitchen', pantry')
  · intro e he
    have hdoes := (hr _ _).mpr ⟨rfl, rfl⟩
    exact (b.does_keeps (fun st _ => st.keeps_matched limit) _ _ _ trivial hdoes).2 e he

/-- a loop inside a loop, whose end counts the ingredient of the outer one down -/
def kneadRows : Block :=
  .loop "Knead" "rows" "kneaded" none
    (.act (.put "rows" 0) (.loop "Fold" "sheets" "folded" (some "rows") .done .done)) .done

theorem kneadRows_closed : kneadRows.Closed := by
  refine ⟨by decide +kernel, fun s hs => ?_, ⟨by decide +kernel, nofun, trivial, trivial⟩, trivial⟩
  have hall : ([.act (.put "rows" 0), .loopStart "Fold" "sheets",
      .loopEnd "folded" (some "rows")] : List Statement).all
        (fun s => s.closes "Knead" = false) = true := by decide +kernel
  exact of_decide_eq_true (List.all_eq_true.mp hall s hs)

theorem runMethod_kneadRows :
    kneadRows.Closed ∧
      (∃ result kitchen pantry, kneadRows.Does 5
        (.empty, Table.ofList [("rows", ⟨"rows", Quantity.ofInt? 3, .dry⟩)])
        result (kitchen, pantry)) ∧
      ∀ e, (runMethod 5 kneadRows.flatten .empty
        (Table.ofList [("rows", ⟨"rows", Quantity.ofInt? 3, .dry⟩)])).1 = .error e →
          ¬ e.IsMismatch := by
  obtain ⟨hdoes, hmatched⟩ := runMethod_flatten_iff kneadRows kneadRows_closed 5 .empty
    (Table.ofList [("rows", ⟨"rows", Quantity.ofInt? 3, .dry⟩)])
  exact ⟨kneadRows_closed, ⟨_, _, _, (hdoes _ _ _).mpr ⟨rfl, rfl, rfl⟩⟩, hmatched⟩

end Cookery
