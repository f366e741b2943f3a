import Cookery.Cooking.Run
import Cookery.Proofs.Cooking.Effect
import Mathlib.Logic.Relation

/-!
# Cooking step by step

`follow` gives the end of a run.  Here the same work is cut into single steps, so that every stage
on the way can be spoken of: what is left to do, the bench, and the actions that were completed.

* `Task`, `Task.Step`    a thing to do, and the rules for its first step;
* `Stage`, `Stage.Next`, `Reaches`   the work after some steps, one step more, any number of steps;
* `Task.Step.run_program`   a task is its first step and then what the step leaves to do;
* `outcome_of_reaches`   all stages of a run have the same outcome, the one that `follow` gives;
* `Stage.Halts`, `Task.halts`   no endless chain of steps starts at a stage: every task comes to an
                         end, and hands over to the tasks after it;
* `EndsAt`, `exists_endsAt`   so every run has a last stage, and its bench is the one that `follow`
                         leaves;
* `Preparation.stage`    the first stage of a preparation;
* `Task.Within`          the statements of a task are some of the method;
* `Reaches.holds`        what every step keeps holds at all stages, `error_of_runMethod` of errors.
-/

namespace Cookery

/-! ## tasks -/

/-- follow statements, check a loop before its next pass, or take one away from an ingredient -/
inductive Task where
  | method (statements : List Statement)
  | loop (verb ingredient counter : String) (body : List Statement) (made left : Nat)
  | count (counter : String)
deriving DecidableEq

/-- the whole task -/
def Task.program (limit : Nat) : Task → Cooking Unit
  | .method ss => follow limit ss
  | .loop verb ingredient counter body made left =>
    passes verb ingredient counter (follow limit body) made left
  | .count counter => decrement counter

/-- the action that a task starts with -/
def Task.action? : Task → Option Action
  | .method (.act a :: _) => some a
  | _ => none

def Bench.note (b : Bench) (e : Event) : Bench := { b with log := e :: b.log }

/-- the first step of a task: what is then to do in its place, or why it failed, and the bench -/
inductive Task.Step (limit : Nat) : Task → Bench → Except Error (List Task) → Bench → Prop where
  | done {b : Bench} : Step limit (.method []) b (.ok []) b
  | act {a : Action} {ss : List Statement} {b : Bench} {k : Kitchen}
    (effect : a.effect b.kitchen b.pantry = (.ok (), k)) :
    Step limit (.method (.act a :: ss)) b (.ok [.method ss])
      { b.note (.resolve (.act a)) with kitchen := k }
  | failed {a : Action} {ss : List Statement} {b : Bench} {k : Kitchen} {e : Error}
    (effect : a.effect b.kitchen b.pantry = (.error e, k)) :
    Step limit (.method (.act a :: ss)) b (.error e)
      { b.note (.resolve (.act a)) with kitchen := k }
  | entered {verb ingredient : String} {ss : List Statement} {b : Bench} {cut : LoopCut}
    (found : cutLoop? verb ss = some cut) :
    Step limit (.method (.loopStart verb ingredient :: ss)) b
      (.ok [.loop verb ingredient (cut.until?.getD ingredient) cut.body 0 limit, .method cut.rest])
      (b.note (.resolve (.loopStart verb ingredient)))
  | unclosed {verb ingredient : String} {ss : List Statement} {b : Bench}
    (found : cutLoop? verb ss = none) :
    Step limit (.method (.loopStart verb ingredient :: ss)) b
      (.error (.runtime (.unclosedLoop verb))) (b.note (.resolve (.loopStart verb ingredient)))
  | stray {verbed : String} {ingredient? : Option String} {ss : List Statement} {b : Bench} :
    Step limit (.method (.loopEnd verbed ingredient? :: ss)) b
      (.error (.runtime (.strayLoopEnd verbed))) (b.note (.resolve (.loopEnd verbed ingredient?)))
  | unchecked {verb ingredient counter : String} {body : List Statement} {made left : Nat}
    {b : Bench} {e : Error} (check : loopCheck ingredient b.pantry = .error e) :
    Step limit (.loop verb ingredient counter body made left) b (.error e) b
  | finished {verb ingredient counter : String} {body : List Statement} {made left : Nat}
    {b : Bench} {value : Quantity} (check : loopCheck ingredient b.pantry = .ok value)
    (zero : value.val = 0) :
    Step limit (.loop verb ingredient counter body made left) b (.ok [])
      (b.note (.loopFinished verb ingredient made))
  | usedUp {verb ingredient counter : String} {body : List Statement} {made : Nat} {b : Bench}
    {value : Quantity} (check : loopCheck ingredient b.pantry = .ok value)
    (nonzero : value.val ≠ 0) :
    Step limit (.loop verb ingredient counter body made 0) b (.error (.loopLimit verb made)) b
  | pass {verb ingredient counter : String} {body : List Statement} {made left : Nat} {b : Bench}
    {value : Quantity} (check : loopCheck ingredient b.pantry = .ok value)
    (nonzero : value.val ≠ 0) :
    Step limit (.loop verb ingredient counter body made (left + 1)) b
      (.ok [.method body, .count counter, .loop verb ingredient counter body (made + 1) left])
      (b.note (.pass verb ingredient value (made + 1)))
  | counted {counter : String} {b : Bench} {p : Pantry}
    (count : countDown counter b.pantry = .ok p) :
    Step limit (.count counter) b (.ok []) { b with pantry := p }
  | uncounted {counter : String} {b : Bench} {e : Error}
    (count : countDown counter b.pantry = .error e) : Step limit (.count counter) b (.error e) b

/-- every task has a first step -/
theorem Task.exists_step (limit : Nat) (t : Task) (b : Bench) :
    ∃ r b', t.Step limit b r b' := by
  match t with
  | .method [] => exact ⟨_, _, .done⟩
  | .method (.act a :: ss) =>
    cases heff : a.effect b.kitchen b.pantry with
    | mk r k =>
      cases r with
      | error e => exact ⟨_, _, .failed heff⟩
      | ok u => exact ⟨_, _, .act heff⟩
  | .method (.loopStart verb ingredient :: ss) =>
    cases hc : cutLoop? verb ss with
    | none => exact ⟨_, _, .unclosed hc⟩
    | some cut => exact ⟨_, _, .entered hc⟩
  | .method (.loopEnd verbed ingredient? :: ss) => exact ⟨_, _, .stray⟩
  | .loop verb ingredient counter body made left =>
    cases hcheck : loopCheck ingredient b.pantry with
    | error e => exact ⟨_, _, .unchecked hcheck⟩
    | ok value =>
      by_cases hzero : value.val = 0
      · exact ⟨_, _, .finished hcheck hzero⟩
      · cases left with
        | zero => exact ⟨_, _, .usedUp hcheck hzero⟩
        | succ left => exact ⟨_, _, .pass hcheck hzero⟩
  | .count counter =>
    cases hcount : countDown counter b.pantry with
    | error e => exact ⟨_, _, .uncounted hcount⟩
    | ok p => exact ⟨_, _, .counted hcount⟩

/-- only actions touch the kitchen -/
theorem Task.Step.kitchen_cases {limit : Nat} {t : Task} {b b' : Bench}
    {r : Except Error (List Task)} (h : t.Step limit b r b') :
    (∃ a ss, t = .method (.act a :: ss) ∧
      a.effect b.kitchen b.pantry = (r.map fun _ => (), b'.kitchen)) ∨
    (t.action? = none ∧ b'.kitchen = b.kitchen) := by
  cases h with
  | @act a ss _ k effect => exact .inl ⟨a, ss, rfl, effect⟩
  | @failed a ss _ k e effect => exact .inl ⟨a, ss, rfl, effect⟩
  | _ => exact .inr ⟨rfl, rfl⟩

/-! ## what is left to do, as a program -/

def programs (limit : Nat) (ts : List Task) : Cooking Unit := forM ts (Task.program limit)

theorem programs_nil (limit : Nat) : programs limit [] = pure () := rfl

theorem programs_cons (limit : Nat) (t : Task) (ts : List Task) :
    programs limit (t :: ts) = t.program limit >>= fun _ => programs limit ts :=
  List.forM_cons

theorem programs_singleton (limit : Nat) (t : Task) : programs limit [t] = t.program limit := by
  rw [programs_cons, programs_nil]
  exact bind_pure_unit

theorem programs_append (limit : Nat) (us ts : List Task) :
    programs limit (us ++ ts) = programs limit us >>= fun _ => programs limit ts :=
  List.forM_append

/-- where the work ends when some tasks are left to do, or when it has failed -/
def ending (limit : Nat) (todo : Except Error (List Task)) (b : Bench) :
    Except Error Unit × Bench :=
  match todo with
  | .error e => (.error e, b)
  | .ok ts => (programs limit ts).run.run b

theorem ending_ok (limit : Nat) (ts : List Task) (b : Bench) :
    ending limit (.ok ts) b = (programs limit ts).run.run b := rfl

theorem ending_nil (limit : Nat) (b : Bench) : ending limit (.ok []) b = (.ok (), b) := rfl

/-- a task is its first step, and then what the step leaves to do -/
theorem Task.Step.run_program {limit : Nat} {t : Task} {b b' : Bench} {r : Except Error (List Task)}
    (h : t.Step limit b r b') : (t.program limit).run.run b = ending limit r b' := by
  cases h with
  | done =>
    show (follow limit []).run.run b = _
    rw [follow_nil]
    rfl
  | @act a ss _ k effect =>
    show (follow limit (.act a :: ss)).run.run b = _
    rw [follow_act, run_bind_ok (run_emit _ b), run_bind, run_perform]
    dsimp only
    rw [effect, ending_ok, programs_singleton]
    rfl
  | @failed a ss _ k e effect =>
    show (follow limit (.act a :: ss)).run.run b = _
    rw [follow_act, run_bind_ok (run_emit _ b), run_bind, run_perform]
    dsimp only
    rw [effect]
    rfl
  | @entered verb ingredient ss _ cut found =>
    show (follow limit (.loopStart verb ingredient :: ss)).run.run b = _
    rw [follow_loopStart found, run_bind_ok (run_emit _ b), ending_ok, programs_cons,
      programs_singleton]
    rfl
  | @unclosed verb ingredient ss _ found =>
    show (follow limit (.loopStart verb ingredient :: ss)).run.run b = _
    rw [follow_unclosed found]
    rfl
  | @stray verbed ingredient? ss =>
    show (follow limit (.loopEnd verbed ingredient? :: ss)).run.run b = _
    rw [follow_loopEnd]
    rfl
  | @unchecked verb ingredient counter body made left _ e check =>
    have hvalue := run_loopValue ingredient b
    rw [check] at hvalue
    show (passes verb ingredient counter (follow limit body) made left).run.run b = _
    cases left <;> rw [passes, run_bind_error hvalue] <;> rfl
  | @finished verb ingredient counter body made left _ value check zero =>
    have hvalue := run_loopValue ingredient b
    rw [check] at hvalue
    show (passes verb ingredient counter (follow limit body) made left).run.run b = _
    cases left <;> rw [passes, run_bind_ok hvalue, if_pos zero] <;> rfl
  | @usedUp verb ingredient counter body made _ value check nonzero =>
    have hvalue := run_loopValue ingredient b
    rw [check] at hvalue
    show (passes verb ingredient counter (follow limit body) made 0).run.run b = _
    rw [passes, run_bind_ok hvalue, if_neg nonzero]
    rfl
  | @pass verb ingredient counter body made left _ value check nonzero =>
    have hvalue := run_loopValue ingredient b
    rw [check] at hvalue
    show (passes verb ingredient counter (follow limit body) made (left + 1)).run.run b = _
    rw [passes, run_bind_ok hvalue, if_neg nonzero, run_bind_ok (run_emit _ b), ending_ok,
      programs_cons, programs_cons, programs_singleton]
    rfl
  | @counted counter _ p count =>
    show (decrement counter).run.run b = _
    rw [run_decrement, count]
    rfl
  | @uncounted counter _ e count =>
    show (decrement counter).run.run b = _
    rw [run_decrement, count]
    rfl

/-! ## stages -/

/-- what is left to do, the next task first, or the error that ended the work; the bench; and the
actions completed so far, in their order -/
structure Stage where
  todo : Except Error (List Task)
  bench : Bench
  done : List Action

/-- the stage at the start of a task -/
def Stage.start (t : Task) (b : Bench) : Stage := ⟨.ok [t], b, []⟩

/-- one step more; an action is completed by a step that does not fail -/
inductive Stage.Next (limit : Nat) : Stage → Stage → Prop where
  | goes_on {t : Task} {ts us : List Task} {b b' : Bench} {done : List Action}
    (step : t.Step limit b (.ok us) b') :
    Next limit ⟨.ok (t :: ts), b, done⟩ ⟨.ok (us ++ ts), b', done ++ t.action?.toList⟩
  | stops {t : Task} {ts : List Task} {b b' : Bench} {done : List Action} {e : Error}
    (step : t.Step limit b (.error e) b') :
    Next limit ⟨.ok (t :: ts), b, done⟩ ⟨.error e, b', done⟩

theorem Stage.exists_next (limit : Nat) (t : Task) (ts : List Task) (b : Bench)
    (done : List Action) : ∃ s, Stage.Next limit ⟨.ok (t :: ts), b, done⟩ s := by
  obtain ⟨r, b', step⟩ := t.exists_step limit b
  cases r with
  | error e => exact ⟨_, .stops step⟩
  | ok us => exact ⟨_, .goes_on step⟩

def Reaches (limit : Nat) : Stage → Stage → Prop := Relation.ReflTransGen (Stage.Next limit)

/-- where the work ends, from a stage on -/
def Stage.outcome (limit : Nat) (s : Stage) : Except Error Unit × Bench :=
  ending limit s.todo s.bench

theorem Stage.outcome_start (limit : Nat) (t : Task) (b : Bench) :
    (Stage.start t b).outcome limit = (t.program limit).run.run b := by
  show (programs limit [t]).run.run b = _
  rw [programs_singleton]

theorem Stage.Next.outcome_eq {limit : Nat} {s s' : Stage} (h : s.Next limit s') :
    s'.outcome limit = s.outcome limit := by
  cases h with
  | @goes_on t ts us b b' done step =>
    show ending limit (.ok (us ++ ts)) b' = ending limit (.ok (t :: ts)) b
    rw [ending_ok, ending_ok]
    rw [programs_append, programs_cons, run_bind, run_bind, step.run_program, ending_ok]
  | @stops t ts b b' done e step =>
    show (.error e, b') = (programs limit (t :: ts)).run.run b
    rw [programs_cons, run_bind_error step.run_program]

/-- the stages of a run all lead to the same end -/
theorem outcome_of_reaches {limit : Nat} {s s' : Stage} (h : Reaches limit s s') :
    s'.outcome limit = s.outcome limit := by
  induction h with
  | refl => rfl
  | tail _ next ih => rw [next.outcome_eq, ih]

/-! ## the last stage -/

/-- nothing is left to do -/
def Stage.Over (s : Stage) : Prop := ∀ t ts, s.todo ≠ .ok (t :: ts)

/-- the work from one stage comes to its end at the other one -/
def EndsAt (limit : Nat) (s s' : Stage) : Prop := Reaches limit s s' ∧ s'.Over

theorem Stage.Over.outcome_eq {s : Stage} (h : s.Over) (limit : Nat) :
    s.outcome limit = (s.todo.map fun _ => (), s.bench) := by
  obtain ⟨todo, b, done⟩ := s
  match todo with
  | .error e => rfl
  | .ok [] => rfl
  | .ok (t :: ts) => exact absurd rfl (h t ts)

/-- the last stage of a task has the bench and the error of its program -/
theorem EndsAt.run_program {limit : Nat} {t : Task} {b : Bench} {s : Stage}
    (h : EndsAt limit (.start t b) s) :
    (t.program limit).run.run b = (s.todo.map fun _ => (), s.bench) := by
  rw [← Stage.outcome_start, ← outcome_of_reaches h.1, h.2.outcome_eq]

/-! ## every run halts -/

/-- there is no endless chain of steps from a stage -/
def Stage.Halts (limit : Nat) (s : Stage) : Prop :=
  Acc (fun after before => before.Next limit after) s

theorem Stage.halts_error (limit : Nat) (e : Error) (b : Bench) (done : List Action) :
    Stage.Halts limit ⟨.error e, b, done⟩ :=
  .intro _ nofun

theorem Stage.halts_nil (limit : Nat) (b : Bench) (done : List Action) :
    Stage.Halts limit ⟨.ok [], b, done⟩ :=
  .intro _ nofun

/-- tasks after which the work halts, whatever they leave at the bench -/
def HaltsAfter (limit : Nat) (ts : List Task) : Prop :=
  ∀ b done, Stage.Halts limit ⟨.ok ts, b, done⟩

/-- where the work halts without a task, it halts with the task before it -/
def Task.Halts (limit : Nat) (t : Task) : Prop :=
  ∀ ts, HaltsAfter limit ts → HaltsAfter limit (t :: ts)

theorem haltsAfter_append {limit : Nat} {us ts : List Task} (h : ∀ u ∈ us, u.Halts limit)
    (hts : HaltsAfter limit ts) : HaltsAfter limit (us ++ ts) := by
  induction us with
  | nil => exact hts
  | cons u us ih =>
    obtain ⟨hu, hus⟩ := List.forall_mem_cons.mp h
    exact hu _ (ih hus)

theorem halts_of_step {limit : Nat} {t : Task}
    (h : ∀ b us b', t.Step limit b (.ok us) b' → ∀ u ∈ us, u.Halts limit) : t.Halts limit := by
  intro ts hts b done
  refine .intro _ fun s next => ?_
  cases next with
  | @goes_on _ _ us _ b' _ step => exact haltsAfter_append (h b us b' step) hts _ _
  | stops step => exact Stage.halts_error _ _ _ _

theorem halts_count (limit : Nat) (counter : String) : (Task.count counter).Halts limit := by
  apply halts_of_step
  intro b us b' step
  cases step
  exact List.forall_mem_nil _

/-- by induction on the passes that are left; the amounts in the pantry do not matter -/
theorem halts_loop {limit : Nat} {body : List Statement} (hbody : (Task.method body).Halts limit)
    (verb ingredient counter : String) (left : Nat) :
    ∀ made, (Task.loop verb ingredient counter body made left).Halts limit := by
  induction left with
  | zero =>
    intro made
    apply halts_of_step
    intro b us b' step
    cases step
    exact List.forall_mem_nil _
  | succ left ih =>
    intro made
    apply halts_of_step
    intro b us b' step
    cases step with
    | finished check zero => exact List.forall_mem_nil _
    | pass check nonzero =>
      refine List.forall_mem_cons.mpr ⟨hbody, List.forall_mem_cons.mpr ⟨?_, ?_⟩⟩
      · exact halts_count limit counter
      · exact List.forall_mem_singleton.mpr (ih (made + 1))

/-- by the recursion of `follow`: the body and the rest of a loop are shorter than the method -/
theorem halts_method (limit : Nat) (ss : List Statement) : (Task.method ss).Halts limit := by
  induction ss using follow.induct with
  | case1 =>
    apply halts_of_step
    intro b us b' step
    cases step
    exact List.forall_mem_nil _
  | case2 a ss ih =>
    apply halts_of_step
    intro b us b' step
    cases step
    exact List.forall_mem_singleton.mpr ih
  | case3 verb ingredient ss ihbody ihrest =>
    apply halts_of_step
    intro b us b' step
    cases step with
    | @entered _ _ _ _ cut found =>
      refine List.forall_mem_cons.mpr ⟨?_, List.forall_mem_singleton.mpr (ihrest cut found)⟩
      exact halts_loop (ihbody cut found) verb ingredient _ limit 0
  | case4 verbed ingredient? ss =>
    apply halts_of_step
    intro b us b' step
    cases step

theorem Task.halts (limit : Nat) (t : Task) : t.Halts limit := by
  cases t with
  | method ss => exact halts_method limit ss
  | loop verb ingredient counter body made left =>
    exact halts_loop (halts_method limit body) verb ingredient counter left made
  | count counter => exact halts_count limit counter

theorem Stage.halts_start (limit : Nat) (t : Task) (b : Bench) :
    (Stage.start t b).Halts limit :=
  t.halts limit [] (Stage.halts_nil limit) b []

/-- a stage from which the work halts has a last stage: where a task is left, there is a step -/
theorem Stage.Halts.exists_endsAt {limit : Nat} {s : Stage} (h : s.Halts limit) :
    ∃ s', EndsAt limit s s' := by
  induction h with
  | intro s _ ih =>
    obtain ⟨todo, b, done⟩ := s
    match todo with
    | .error e => exact ⟨_, .refl, nofun⟩
    | .ok [] => exact ⟨_, .refl, nofun⟩
    | .ok (t :: ts) =>
      obtain ⟨s', next⟩ := Stage.exists_next limit t ts b done
      obtain ⟨last, hreaches, hover⟩ := ih s' next
      exact ⟨last, .head next hreaches, hover⟩

theorem exists_endsAt (limit : Nat) (t : Task) (b : Bench) :
    ∃ s, EndsAt limit (.start t b) s :=
  (Stage.halts_start limit t b).exists_endsAt

/-! ## preparations -/

/-- a preparation hands back the first bowl, or an error that says which preparation it was -/
theorem Preparation.run_result (p : Preparation) (limit : Nat) (kitchen : Kitchen) :
    (p.run limit kitchen).result =
      match (runMethod limit p.method kitchen p.ingredients).1 with
      | .ok _ => .ok ((runMethod limit p.method kitchen p.ingredients).2.kitchen.bowl 0)
      | .error e => .error (.inContext e ("in recipe '" ++ p.title ++ "'")) := by
  unfold Preparation.run
  rcases runMethod limit p.method kitchen p.ingredients with ⟨_ | u, b⟩ <;> rfl

/-- a recipe serves after its main method, or fails with it -/
theorem Recipe.run_result {r : Recipe} {main : Preparation} (hmain : r.main? = some main)
    (limit : Nat) :
    (r.run limit).result =
      match runMethod limit main.method .empty main.ingredients with
      | (.error e, _) => .error (.inContext e ("in recipe '" ++ main.title ++ "'"))
      | (.ok _, b) => ((b.kitchen.useBowl 0).serve r.servings).1 := by
  have hprep : r.runPreparation limit mainKey .empty = main.run limit .empty := by
    unfold Recipe.runPreparation
    rw [show r.preparation? mainKey = some main from hmain]
  unfold Recipe.run
  rw [hprep]
  unfold Preparation.run
  rcases runMethod limit main.method .empty main.ingredients with ⟨_ | u, b⟩
  · rfl
  · dsimp only
    unfold Recipe.serveAfter
    rcases (b.kitchen.useBowl 0).serve r.servings with ⟨_ | text, k⟩ <;> rfl

theorem Recipe.run_result_of_none {r : Recipe} (hmain : r.main? = none) (limit : Nat) :
    (r.run limit).result = .error (.runtime (.unknownRecipe mainKey)) := by
  unfold Recipe.run Recipe.runPreparation
  rw [show r.preparation? mainKey = none from hmain]

/-- the stage at which a preparation starts in a kitchen -/
def Preparation.stage (p : Preparation) (kitchen : Kitchen) : Stage :=
  .start (.method p.method) ⟨kitchen, p.ingredients, []⟩

theorem Preparation.endsAt_kitchen {p : Preparation} {limit : Nat} {kitchen : Kitchen} {s : Stage}
    (h : EndsAt limit (p.stage kitchen) s) :
    (p.run limit kitchen).kitchen = s.bench.kitchen ∨
      (p.run limit kitchen).kitchen = s.bench.kitchen.useBowl 0 := by
  have hrun : runMethod limit p.method kitchen p.ingredients = _ := h.run_program
  unfold Preparation.run
  rw [hrun]
  cases s.todo with
  | error e => exact .inl rfl
  | ok ts => exact .inr rfl

/-! ## where the tasks of a run come from -/

/-- the ingredients that a loop may count down from its start or its end -/
def Statement.counters : Statement → List String
  | .act _ => []
  | .loopStart _ ingredient => [ingredient]
  | .loopEnd _ ingredient? => ingredient?.toList

theorem counters_subset {ss : List Statement} :
    ∀ st ∈ ss, st.counters ⊆ ss.flatMap Statement.counters :=
  fun _ hst _ hname => List.mem_flatMap.mpr ⟨_, hst, hname⟩

/-- the parts of a loop are in the method that the loop is in, and the names it goes by among those
of the method -/
theorem subset_of_cutLoop? {ss rest : List Statement} {names : List String}
    (hnames : ∀ st ∈ ss, st.counters ⊆ names) {verb ingredient : String} {cut : LoopCut}
    (found : cutLoop? verb rest = some cut) (hrest : .loopStart verb ingredient :: rest ⊆ ss) :
    cut.body ⊆ ss ∧ cut.rest ⊆ ss ∧ ingredient ∈ names ∧
      cut.until?.getD ingredient ∈ names := by
  obtain ⟨_, verbed, _, rfl⟩ := cutLoop?_eq_some found
  have hstart : ingredient ∈ names := hnames _ (hrest List.mem_cons_self) List.mem_cons_self
  have hend : .loopEnd verbed cut.until? ∈ ss :=
    hrest (List.mem_cons_of_mem _ (List.mem_append_right _ List.mem_cons_self))
  refine ⟨fun st hst => ?_, fun st hst => ?_, hstart, ?_⟩
  · exact hrest (List.mem_cons_of_mem _ (List.mem_append_left _ hst))
  · exact hrest (List.mem_cons_of_mem _ (List.mem_append_right _ (List.mem_cons_of_mem _ hst)))
  · cases hu : cut.until? with
    | none => exact hstart
    | some counter =>
      rw [hu] at hend
      exact hnames _ hend List.mem_cons_self

/-- the statements of a task are some of `ss`, and what it counts down is one of `names` -/
def Task.Within (ss : List Statement) (names : List String) : Task → Prop
  | .method statements => statements ⊆ ss
  | .loop _ _ counter body _ _ => body ⊆ ss ∧ counter ∈ names
  | .count counter => counter ∈ names

theorem Task.Step.within {limit : Nat} {ss : List Statement} {names : List String}
    (hnames : ∀ st ∈ ss, st.counters ⊆ names) {t : Task} {b b' : Bench} {us : List Task}
    (h : t.Step limit b (.ok us) b') (ht : t.Within ss names) : ∀ u ∈ us, u.Within ss names := by
  cases h with
  | done => exact List.forall_mem_nil _
  | act effect =>
    intro u hu
    obtain rfl := List.mem_singleton.mp hu
    exact List.subset_of_cons_subset ht
  | @entered verb ingredient rest _ cut found =>
    obtain ⟨hbody, hrest, _, hcounter⟩ := subset_of_cutLoop? hnames found ht
    intro u hu
    simp only [List.mem_cons, List.not_mem_nil, or_false] at hu
    rcases hu with rfl | rfl
    · exact ⟨hbody, hcounter⟩
    · exact hrest
  | finished check zero => exact List.forall_mem_nil _
  | pass check nonzero =>
    intro u hu
    simp only [List.mem_cons, List.not_mem_nil, or_false] at hu
    rcases hu with rfl | rfl | rfl
    · exact ht.1
    · exact ht.2
    · exact ht
  | counted count => exact List.forall_mem_nil _

/-! ## what holds at all stages -/

/-- the tasks that are left have `T`, the bench and the completed actions `B`, an error `E` -/
structure Stage.Holds (T : Task → Prop) (B : Bench → List Action → Prop) (E : Error → Prop)
    (s : Stage) : Prop where
  tasks : ∀ ts, s.todo = .ok ts → ∀ t ∈ ts, T t
  bench : B s.bench s.done
  error : ∀ e, s.todo = .error e → E e

/-- what a step keeps: if it fails, no action was completed -/
structure KeptBySteps (limit : Nat) (T : Task → Prop) (B : Bench → List Action → Prop)
    (E : Error → Prop) : Prop where
  goes_on : ∀ {t b us b' done}, T t → B b done → t.Step limit b (.ok us) b' →
    (∀ u ∈ us, T u) ∧ B b' (done ++ t.action?.toList)
  stops : ∀ {t b e b' done}, T t → B b done → t.Step limit b (.error e) b' → E e ∧ B b' done

theorem Stage.Next.holds {limit : Nat} {T : Task → Prop} {B : Bench → List Action → Prop}
    {E : Error → Prop} (hkept : KeptBySteps limit T B E) {s s' : Stage} (h : s.Next limit s')
    (hs : s.Holds T B E) : s'.Holds T B E := by
  cases h with
  | @goes_on t ts us b b' done step =>
    have htasks := hs.tasks _ rfl
    obtain ⟨hus, hb'⟩ := hkept.goes_on (htasks t List.mem_cons_self) hs.bench step
    refine ⟨fun vs hvs u hu => ?_, hb', nofun⟩
    obtain rfl := Except.ok.inj hvs
    rcases List.mem_append.mp hu with hu | hu
    · exact hus u hu
    · exact htasks u (List.mem_cons_of_mem _ hu)
  | @stops t ts b b' done e step =>
    obtain ⟨he, hb'⟩ := hkept.stops (hs.tasks _ rfl t List.mem_cons_self) hs.bench step
    refine ⟨nofun, hb', fun e' h' => ?_⟩
    obtain rfl := Except.error.inj h'
    exact he

theorem Reaches.holds {limit : Nat} {T : Task → Prop} {B : Bench → List Action → Prop}
    {E : Error → Prop} (hkept : KeptBySteps limit T B E) {s s' : Stage} (h : Reaches limit s s')
    (hs : s.Holds T B E) : s'.Holds T B E := by
  induction h with
  | refl => exact hs
  | tail _ next ih => exact next.holds hkept ih

theorem Stage.holds_start {T : Task → Prop} {B : Bench → List Action → Prop} {E : Error → Prop}
    {t : Task} {b : Bench} (ht : T t) (hb : B b []) : (Stage.start t b).Holds T B E := by
  refine ⟨fun ts hts u hu => ?_, hb, nofun⟩
  obtain rfl := Except.ok.inj hts
  obtain rfl := List.mem_singleton.mp hu
  exact ht

/-- the error of a method is one that the steps keep to -/
theorem error_of_runMethod {limit : Nat} {T : Task → Prop} {E : Error → Prop}
    (hkept : KeptBySteps limit T (fun _ _ => True) E) {method : List Statement} {kitchen : Kitchen}
    {pantry : Pantry} {e : Error} (ht : T (.method method))
    (h : (runMethod limit method kitchen pantry).1 = .error e) : E e := by
  obtain ⟨s, hend⟩ := exists_endsAt limit (.method method) ⟨kitchen, pantry, []⟩
  have hholds := hend.1.holds hkept (Stage.holds_start ht trivial)
  have hrun : runMethod limit method kitchen pantry = (s.todo.map fun _ => (), s.bench) :=
    hend.run_program
  rw [hrun] at h
  cases htodo : s.todo with
  | ok ts =>
    rw [htodo] at h
    cases h
  | error e' =>
    rw [htodo] at h
    cases h
    exact hholds.error e htodo

end Cookery
