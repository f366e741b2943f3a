import Cookery.Cooking.Run
import Cookery.Proofs.Cooking.Effect
import Cookery.Proofs.Reading.Acceptance

/-!
# Runs under a larger limit

Two runs of one method under two limits go in step until a loop has used up the smaller limit.
There the first run stops.  The second one goes on from the same bench, and whatever it does, it
only adds to the log.

* `Appends m`         the program `m` only adds to the log;
* `Continued o o'`    `o'` is the same end of a run as `o`, or `o` was stopped by a limit and the log
                      of `o'` goes on from there;
* `Continues m m'`    so it is at every bench, `Continues.bind` for one program after another;
* `follow_continues`  methods under a larger limit;
* `Outcome.Prolonged`, `prolonged_of_limit_le`   whole runs.
-/

namespace Cookery

section
variable {α β : Type}

/-! ## programs that add to the log -/

def Appends (m : Cooking α) : Prop := ∀ b, b.log <:+ (m.run.run b).2.log

theorem appends_pure (a : α) : Appends (pure a) := fun b => List.suffix_refl b.log

theorem appends_throw (e : Error) : Appends (throw e : Cooking α) := fun b => List.suffix_refl b.log

theorem appends_emit (e : Event) : Appends (emit e) := fun b => List.suffix_cons e b.log

theorem appends_of_log_eq {m : Cooking α} (h : ∀ b, (m.run.run b).2.log = b.log) : Appends m :=
  fun b => ⟨[], (h b).symm⟩

theorem appends_perform (a : Action) : Appends a.perform := by
  apply appends_of_log_eq
  intro b
  rw [run_perform]

theorem appends_loopValue (ingredient : String) : Appends (loopValue ingredient) := by
  apply appends_of_log_eq
  intro b
  rw [run_loopValue]

theorem appends_decrement (name : String) : Appends (decrement name) := by
  apply appends_of_log_eq
  intro b
  rw [run_decrement]
  cases countDown name b.pantry with
  | error e => rfl
  | ok p => rfl

/-- where a program ends, another one after it goes on -/
theorem suffix_log_bind {m : Cooking α} {f : α → Cooking β} (hf : ∀ a, Appends (f a)) (b : Bench) :
    (m.run.run b).2.log <:+ ((m >>= f).run.run b).2.log := by
  cases h : m.run.run b with
  | mk r b' =>
    cases r with
    | error e =>
      have hend : ((m >>= f).run.run b).2 = b' := congrArg Prod.snd (run_bind_error h f)
      exact ⟨[], (congrArg Bench.log hend).symm⟩
    | ok a =>
      rw [run_bind_ok h]
      exact hf a b'

theorem Appends.bind {m : Cooking α} {f : α → Cooking β} (hm : Appends m)
    (hf : ∀ a, Appends (f a)) : Appends (m >>= f) :=
  fun b => (hm b).trans (suffix_log_bind hf b)

/-- the check at the start of a pass, and what is done for a value that is not zero -/
theorem appends_checked {ingredient : String} {event : Event} {k : Quantity → Cooking Unit}
    (hk : ∀ value, Appends (k value)) :
    Appends (loopValue ingredient >>= fun value =>
      if value.val = 0 then emit event else k value) := by
  refine (appends_loopValue ingredient).bind fun value => ?_
  by_cases hv : value.val = 0
  · rw [if_pos hv]
    exact appends_emit event
  · rw [if_neg hv]
    exact hk value

theorem appends_passes {verb ingredient counter : String} {m : Cooking Unit} (hm : Appends m)
    (left : Nat) : ∀ made, Appends (passes verb ingredient counter m made left) := by
  induction left with
  | zero =>
    intro made
    exact appends_checked fun _ => appends_throw _
  | succ left ih =>
    intro made
    refine appends_checked fun value => (appends_emit _).bind fun _ => hm.bind fun _ => ?_
    exact (appends_decrement counter).bind fun _ => ih (made + 1)

theorem appends_follow (limit : Nat) (method : List Statement) :
    Appends (follow limit method) := by
  induction method using follow.induct with
  | case1 =>
    rw [follow_nil]
    exact appends_pure ()
  | case2 action ss ih =>
    rw [follow_act]
    exact (appends_emit _).bind fun _ => (appends_perform action).bind fun _ => ih
  | case3 verb ingredient ss ihbody ihrest =>
    cases hc : cutLoop? verb ss with
    | none =>
      rw [follow_unclosed hc]
      exact (appends_emit _).bind fun _ => appends_throw _
    | some cut =>
      rw [follow_loopStart hc]
      refine (appends_emit _).bind fun _ => ?_
      exact (appends_passes (ihbody cut hc) limit 0).bind fun _ => ihrest cut hc
  | case4 verbed ingredient? ss =>
    rw [follow_loopEnd]
    exact (appends_emit _).bind fun _ => appends_throw _

/-! ## ends of runs -/

/-- the end of a run, and the end of one that may go on where the first was stopped by a limit -/
inductive Continued : Except Error α × Bench → Except Error α × Bench → Prop where
  | same (o : Except Error α × Bench) : Continued o o
  | stopped {verb : String} {limit : Nat} {b : Bench} {o : Except Error α × Bench}
    (goes_on : b.log <:+ o.2.log) : Continued (.error (.loopLimit verb limit), b) o

def Continues (m m' : Cooking α) : Prop := ∀ b, Continued (m.run.run b) (m'.run.run b)

theorem Continues.refl (m : Cooking α) : Continues m m := fun b => .same (m.run.run b)

/-- after a stop it is enough that the second program adds to the log; otherwise both are at one
bench -/
theorem Continues.bind {m m' : Cooking α} {f f' : α → Cooking β} (h : Continues m m')
    (hf : ∀ a, Continues (f a) (f' a)) (hf' : ∀ a, Appends (f' a)) :
    Continues (m >>= f) (m' >>= f') := by
  intro b
  have hb := h b
  have hlog := suffix_log_bind (m := m') hf' b
  generalize ho : m.run.run b = o at hb
  generalize ho' : m'.run.run b = o' at hb hlog
  cases hb with
  | same =>
    obtain ⟨r, b'⟩ := o
    cases r with
    | error e =>
      rw [run_bind_error ho, run_bind_error ho']
      exact .same _
    | ok a =>
      rw [run_bind_ok ho, run_bind_ok ho']
      exact hf a b'
  | stopped goes_on =>
    rw [run_bind_error ho]
    exact .stopped (goes_on.trans hlog)

theorem continues_throw_loopLimit (verb : String) (limit : Nat) {m : Cooking α} (hm : Appends m) :
    Continues (throw (.loopLimit verb limit)) m :=
  fun b => .stopped (hm b)

end

/-! ## loops and methods -/

theorem continues_checked {ingredient : String} {event : Event} {k k' : Quantity → Cooking Unit}
    (hk : ∀ value, Continues (k value) (k' value)) (hk' : ∀ value, Appends (k' value)) :
    Continues (loopValue ingredient >>= fun value => if value.val = 0 then emit event else k value)
      (loopValue ingredient >>= fun value =>
        if value.val = 0 then emit event else k' value) := by
  refine (Continues.refl _).bind (fun value => ?_) (fun value => ?_)
  · by_cases hv : value.val = 0
    · rw [if_pos hv, if_pos hv]
      exact .refl _
    · rw [if_neg hv, if_neg hv]
      exact hk value
  · by_cases hv : value.val = 0
    · rw [if_pos hv]
      exact appends_emit event
    · rw [if_neg hv]
      exact hk' value

/-- with more passes left a loop goes on where it would stop; the passes up to there are the same,
by induction on those that are left to both -/
theorem passes_continues {verb ingredient counter : String} {m m' : Cooking Unit}
    (h : Continues m m') (hm' : Appends m') (left more : Nat) :
    ∀ made, Continues (passes verb ingredient counter m made left)
      (passes verb ingredient counter m' made (left + more)) := by
  have hcount : ∀ made left, Appends (decrement counter >>= fun _ =>
      passes verb ingredient counter m' made left) := fun made left =>
    (appends_decrement counter).bind fun _ => appends_passes hm' left made
  have hround : ∀ made left, Appends (m' >>= fun _ => decrement counter >>= fun _ =>
      passes verb ingredient counter m' made left) := fun made left =>
    hm'.bind fun _ => hcount made left
  induction left with
  | zero =>
    intro made
    cases more with
    | zero => exact .refl _
    | succ more =>
      rw [Nat.zero_add]
      have hpass : ∀ value, Appends (emit (.pass verb ingredient value (made + 1)) >>= fun _ =>
          m' >>= fun _ => decrement counter >>= fun _ =>
            passes verb ingredient counter m' (made + 1) more) := fun value =>
        (appends_emit _).bind fun _ => hround (made + 1) more
      exact continues_checked (fun value => continues_throw_loopLimit verb made (hpass value)) hpass
  | succ left ih =>
    intro made
    rw [Nat.succ_add]
    have hrest := (Continues.refl (decrement counter)).bind (fun _ => ih (made + 1))
      (fun _ => appends_passes hm' (left + more) (made + 1))
    refine continues_checked (fun value => ?_) (fun value => ?_)
    · exact (Continues.refl _).bind (fun _ => h.bind (fun _ => hrest) fun _ => hcount _ _)
        fun _ => hround _ _
    · exact (appends_emit _).bind fun _ => hround _ _

theorem follow_continues {limit limit' : Nat} (h : limit ≤ limit') (method : List Statement) :
    Continues (follow limit method) (follow limit' method) := by
  obtain ⟨more, rfl⟩ := Nat.exists_eq_add_of_le h
  induction method using follow.induct with
  | case1 =>
    rw [follow_nil, follow_nil]
    exact .refl _
  | case2 action ss ih =>
    have hrest := appends_follow (limit + more) ss
    rw [follow_act, follow_act]
    refine (Continues.refl _).bind (fun _ => ?_) fun _ => (appends_perform action).bind fun _ => hrest
    exact (Continues.refl _).bind (fun _ => ih) fun _ => hrest
  | case3 verb ingredient ss ihbody ihrest =>
    cases hc : cutLoop? verb ss with
    | none =>
      rw [follow_unclosed hc, follow_unclosed hc]
      exact .refl _
    | some cut =>
      have hbody := appends_follow (limit + more) cut.body
      have hrest := appends_follow (limit + more) cut.rest
      rw [follow_loopStart hc, follow_loopStart hc]
      refine (Continues.refl _).bind (fun _ => ?_) fun _ =>
        (appends_passes hbody (limit + more) 0).bind fun _ => hrest
      exact (passes_continues (ihbody cut hc) hbody limit more 0).bind (fun _ => ihrest cut hc)
        fun _ => hrest
  | case4 verbed ingredient? ss =>
    rw [follow_loopEnd, follow_loopEnd]
    exact .refl _

/-! ## whole runs -/

/-- under all its contexts, the error of a loop that has used up its limit -/
def Error.IsLoopLimit (e : Error) : Prop := ∃ verb limit, e.cause = .loopLimit verb limit

/-- the outcome of a run, and its outcome under a larger limit: another one only if the first run
has met its limit, and never with other events before those that are new -/
structure Outcome.Prolonged {α : Type} (o o' : Outcome α) : Prop where
  same : (∀ e, o.result = .error e → ¬ e.IsLoopLimit) → o' = o
  events : o.events <+: o'.events

theorem Outcome.Prolonged.refl {α : Type} (o : Outcome α) : o.Prolonged o :=
  ⟨fun _ => rfl, List.prefix_refl o.events⟩

theorem Preparation.run_events (p : Preparation) (limit : Nat) (kitchen : Kitchen) :
    (p.run limit kitchen).events =
      (runMethod limit p.method kitchen p.ingredients).2.log.reverse := by
  unfold Preparation.run
  split
  · rename_i h
    rw [h]
  · rename_i h
    rw [h]

theorem Preparation.prolonged_run (p : Preparation) (kitchen : Kitchen) {limit limit' : Nat}
    (h : limit ≤ limit') : (p.run limit kitchen).Prolonged (p.run limit' kitchen) := by
  have hends : Continued (runMethod limit p.method kitchen p.ingredients)
      (runMethod limit' p.method kitchen p.ingredients) :=
    follow_continues h p.method ⟨kitchen, p.ingredients, []⟩
  have hevents := p.run_events limit' kitchen
  unfold Preparation.run at hevents ⊢
  generalize runMethod limit p.method kitchen p.ingredients = o at hends ⊢
  generalize runMethod limit' p.method kitchen p.ingredients = o' at hends hevents ⊢
  cases hends with
  | same => exact .refl _
  | @stopped verb limit b _ goes_on =>
    refine ⟨fun hno => ?_, ?_⟩
    · exact absurd ⟨verb, limit, rfl⟩ (hno _ rfl)
    · show b.log.reverse <+: _
      rw [hevents]
      exact List.reverse_prefix.mpr goes_on

theorem Recipe.prolonged_runPreparation (r : Recipe) (key : String) (kitchen : Kitchen)
    {limit limit' : Nat} (h : limit ≤ limit') :
    (r.runPreparation limit key kitchen).Prolonged (r.runPreparation limit' key kitchen) := by
  unfold Recipe.runPreparation
  split
  · exact .refl _
  · rename_i p _
    exact p.prolonged_run kitchen h

theorem Recipe.prefix_serveAfter (r : Recipe) (events : List Event) (kitchen : Kitchen) :
    events <+: (r.serveAfter events kitchen).events := by
  unfold Recipe.serveAfter
  split
  · exact List.prefix_refl events
  · exact List.prefix_append events _

/-- the events of a run start with those of its main preparation -/
theorem Recipe.prefix_run_events (r : Recipe) (limit : Nat) :
    .cooking r.title r.servings :: (r.runPreparation limit mainKey .empty).events <+:
      (r.run limit).events := by
  cases hrun : r.runPreparation limit mainKey .empty with
  | mk result kitchen events =>
    unfold Recipe.run
    rw [hrun]
    cases result with
    | error e => exact List.prefix_refl _
    | ok bowl => exact r.prefix_serveAfter _ _

theorem Recipe.prolonged_run (r : Recipe) {limit limit' : Nat} (h : limit ≤ limit') :
    (r.run limit).Prolonged (r.run limit') := by
  have hmain := r.prolonged_runPreparation mainKey .empty h
  have hevents := r.prefix_run_events limit'
  cases hrun : r.runPreparation limit mainKey .empty with
  | mk result kitchen events =>
    rw [hrun] at hmain
    -- without an error of the main preparation the two runs serve from one kitchen
    have hsame : (∀ e, result = .error e → ¬ e.IsLoopLimit) → r.run limit' = r.run limit := by
      intro hno
      unfold Recipe.run
      rw [hmain.same hno, hrun]
    cases result with
    | ok bowl =>
      rw [hsame nofun]
      exact .refl _
    | error e =>
      have hfails : r.run limit =
          ⟨.error e, kitchen, .cooking r.title r.servings :: events⟩ := by
        unfold Recipe.run
        rw [hrun]
      rw [hfails] at hsame ⊢
      refine ⟨fun hno => hsame fun e' he => ?_, ?_⟩
      · cases he
        exact hno e rfl
      · exact ((List.prefix_cons_inj _).mpr hmain.events).trans hevents

/-- a larger limit gives the same outcome unless the smaller one was met, and in any case the same
events to begin with: for every preparation in every kitchen, and for the recipe -/
theorem prolonged_of_limit_le (r : Recipe) {limit limit' : Nat} (h : limit ≤ limit') :
    (∀ key kitchen,
      (r.runPreparation limit key kitchen).Prolonged (r.runPreparation limit' key kitchen)) ∧
    (r.run limit).Prolonged (r.run limit') :=
  ⟨fun key kitchen => r.prolonged_runPreparation key kitchen h, r.prolonged_run h⟩

theorem prolonged_dough :
    2 ≤ 3 ∧ ((Document.recipe ⟨1, doughMain, []⟩).run 2).Prolonged
      ((Document.recipe ⟨1, doughMain, []⟩).run 3) :=
  ⟨by decide, (prolonged_of_limit_le _ (by decide)).2⟩

end Cookery
