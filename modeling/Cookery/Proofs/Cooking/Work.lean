import Cookery.Proofs.Cooking.Stages
import Cookery.Proofs.Cooking.Trace
import Mathlib.Algebra.Ring.Nat

/-!
# How much work a run is

The steps of a run come to an end, whatever the method and the limit.  The statements that are
carried out on the way are counted here: a loop makes at most `limit` passes each time it is met,
and every loop start of the method may multiply the work of the statements by that.

* `Event.isResolve`, `Statement.isLoopStart`   what is counted;
* `workBound`               `n * (limit + 1) ^ d` for `n` statements with `d` loop starts;
* `MethodTold.work_le`      events that are told by a method keep to it;
* `run_work_le`             methods and loops that are run come to an end and keep to it.
-/

namespace Cookery

/-! ## the statements that are carried out -/

/-- does an event report that a statement is carried out? -/
def Event.isResolve : Event → Bool
  | .resolve _ => true
  | _ => false

def Statement.isLoopStart : Statement → Bool
  | .loopStart _ _ => true
  | _ => false

/-- how many statements a run carried out -/
def work (es : List Event) : Nat := es.countP Event.isResolve

/-- how many statements a method may carry out -/
def workBound (limit : Nat) (ss : List Statement) : Nat :=
  ss.length * (limit + 1) ^ ss.countP Statement.isLoopStart

theorem work_append (es es' : List Event) : work (es ++ es') = work es + work es' :=
  List.countP_append

theorem work_resolve (st : Statement) (es : List Event) : work (.resolve st :: es) = work es + 1 :=
  List.countP_cons_of_pos rfl

theorem work_pass (verb ingredient : String) (value : Quantity) (n : Nat) (es : List Event) :
    work (.pass verb ingredient value n :: es) = work es :=
  List.countP_cons_of_neg nofun

theorem work_loopFinished (verb ingredient : String) (n : Nat) (es : List Event) :
    work (.loopFinished verb ingredient n :: es) = work es :=
  List.countP_cons_of_neg nofun

/-- a statement before a method: itself, and then the work of the method -/
theorem workBound_cons (limit : Nat) (st : Statement) (ss : List Statement) :
    workBound limit ss + 1 ≤ workBound limit (st :: ss) := by
  have hone : 1 ≤ (limit + 1) ^ ss.countP Statement.isLoopStart := Nat.one_le_pow _ _ (by omega)
  have hpow : (limit + 1) ^ ss.countP Statement.isLoopStart ≤
      (limit + 1) ^ (st :: ss).countP Statement.isLoopStart := by
    apply Nat.pow_le_pow_right (by omega)
    rw [List.countP_cons]
    omega
  calc workBound limit ss + 1
      ≤ ss.length * (limit + 1) ^ ss.countP Statement.isLoopStart +
          (limit + 1) ^ ss.countP Statement.isLoopStart := Nat.add_le_add_left hone _
    _ = (st :: ss).length * (limit + 1) ^ ss.countP Statement.isLoopStart :=
        (Nat.succ_mul _ _).symm
    _ ≤ workBound limit (st :: ss) := Nat.mul_le_mul_left _ hpow

/-- `limit` times a body of `n` statements with `d` loop starts, then a rest of `m` with `d'`, and a
statement more: the loop around the body is one more loop start -/
theorem loop_factor_le (limit n m d d' : Nat) :
    limit * (n * (limit + 1) ^ d) + m * (limit + 1) ^ d' + 1 ≤
      (n + (m + 1) + 1) * (limit + 1) ^ (d + d' + 1) := by
  have hbody : limit * (n * (limit + 1) ^ d) ≤ n * (limit + 1) ^ (d + d' + 1) := by
    calc limit * (n * (limit + 1) ^ d)
        = n * (limit * (limit + 1) ^ d) := Nat.mul_left_comm _ _ _
      _ ≤ n * ((limit + 1) * (limit + 1) ^ d) :=
          Nat.mul_le_mul_left _ (Nat.mul_le_mul_right _ (Nat.le_succ limit))
      _ = n * (limit + 1) ^ (d + 1) := by rw [Nat.pow_succ']
      _ ≤ n * (limit + 1) ^ (d + d' + 1) :=
          Nat.mul_le_mul_left _ (Nat.pow_le_pow_right (by omega) (by omega))
  have hrest : m * (limit + 1) ^ d' ≤ m * (limit + 1) ^ (d + d' + 1) :=
    Nat.mul_le_mul_left _ (Nat.pow_le_pow_right (by omega) (by omega))
  have hone : 1 ≤ (limit + 1) ^ (d + d' + 1) := Nat.one_le_pow _ _ (by omega)
  calc limit * (n * (limit + 1) ^ d) + m * (limit + 1) ^ d' + 1
      ≤ n * (limit + 1) ^ (d + d' + 1) + m * (limit + 1) ^ (d + d' + 1) +
          (limit + 1) ^ (d + d' + 1) := by omega
    _ = (n + m + 1) * (limit + 1) ^ (d + d' + 1) := by rw [Nat.add_mul, Nat.add_mul, Nat.one_mul]
    _ ≤ (n + (m + 1) + 1) * (limit + 1) ^ (d + d' + 1) := Nat.mul_le_mul_right _ (by omega)

/-- a loop start, all the passes that its loop may make, and then the rest of the method -/
theorem workBound_loop (limit : Nat) {verb : String} (ingredient : String) {ss : List Statement}
    {cut : LoopCut} (found : cutLoop? verb ss = some cut) :
    limit * workBound limit cut.body + workBound limit cut.rest + 1 ≤
      workBound limit (.loopStart verb ingredient :: ss) := by
  obtain ⟨_, verbed, _, rfl⟩ := cutLoop?_eq_some found
  have hend : ¬ (Statement.loopEnd verbed cut.until?).isLoopStart = true := nofun
  unfold workBound
  rw [List.countP_cons_of_pos rfl, List.countP_append, List.countP_cons_of_neg hend,
    List.length_cons, List.length_append, List.length_cons]
  exact loop_factor_le limit _ _ _ _

section
variable {limit bound : Nat} {verb ingredient counter : String} {body : Account}

theorem PassesTold.work_le {n : Nat} {es : List Event} {s m : Scene}
    (h : PassesTold verb ingredient counter body s n es m)
    (hbody : ∀ s es r s', body s es r s' → work es ≤ bound) : work es ≤ n * bound := by
  induction h with
  | none => exact Nat.zero_le _
  | more before amount nonzero once count ih =>
    rw [work_append, work_pass, Nat.succ_mul]
    exact Nat.add_le_add ih (hbody _ _ _ _ once)

/-- a loop of which the last pass is cut off has made one whole pass less than it may -/
theorem LoopTold.work_le {es : List Event} {s s' : Scene} {r : Except Error Unit}
    (h : LoopTold limit verb ingredient counter body s es r s')
    (hbody : ∀ s es r s', body s es r s' → work es ≤ bound) : work es ≤ limit * bound := by
  cases h with
  | finished passes few amount zero =>
    rw [work_append, work_loopFinished]
    exact Nat.le_trans (passes.work_le hbody) (Nat.mul_le_mul_right _ few)
  | unchecked passes few check =>
    exact Nat.le_trans (passes.work_le hbody) (Nat.mul_le_mul_right _ few)
  | usedUp passes amount nonzero => exact passes.work_le hbody
  | broken passes few amount nonzero once =>
    rw [work_append, work_pass]
    refine Nat.le_trans ?_ (Nat.mul_le_mul_right _ few)
    rw [Nat.succ_mul]
    exact Nat.add_le_add (passes.work_le hbody) (hbody _ _ _ _ once)
  | uncounted passes few amount nonzero once count =>
    rw [work_append, work_pass]
    refine Nat.le_trans ?_ (Nat.mul_le_mul_right _ few)
    rw [Nat.succ_mul]
    exact Nat.add_le_add (passes.work_le hbody) (hbody _ _ _ _ once)

end

theorem MethodTold.work_le {limit : Nat} {ss : List Statement} {es : List Event} {s s' : Scene}
    {r : Except Error Unit} (h : MethodTold limit ss s es r s') : work es ≤ workBound limit ss := by
  induction h with
  | done => exact Nat.zero_le _
  | @act a ss es s m s' r effect next ih =>
    have hcons := workBound_cons limit (.act a) ss
    rw [work_resolve]
    omega
  | @failed a ss s s' e effect =>
    have hcons := workBound_cons limit (.act a) ss
    rw [work_resolve]
    exact Nat.le_trans (Nat.le_add_left _ _) hcons
  | @loop verb ingredient ss cut body es es' s m s' r found inside entry next ihbody ihrest =>
    have hloop := workBound_loop limit ingredient found
    have hentry := entry.work_le ihbody
    rw [work_resolve, work_append]
    omega
  | @loopFailed verb ingredient ss cut body es s s' e found inside entry ihbody =>
    have hloop := workBound_loop limit ingredient found
    have hentry := entry.work_le ihbody
    rw [work_resolve]
    omega
  | @unclosed verb ingredient ss s found =>
    have hcons := workBound_cons limit (.loopStart verb ingredient) ss
    rw [work_resolve]
    exact Nat.le_trans (Nat.le_add_left _ _) hcons
  | @stray verbed ingredient? ss s =>
    have hcons := workBound_cons limit (.loopEnd verbed ingredient?) ss
    rw [work_resolve]
    exact Nat.le_trans (Nat.le_add_left _ _) hcons

/-! ## runs of methods and of loops -/

theorem work_reverse (es : List Event) : work es.reverse = work es := List.countP_reverse

/-- a method comes to an end after finitely many steps, where it has its result, and so does every
loop around it; both carry out no more statements than the bound allows, also when they fail -/
theorem run_work_le (limit : Nat) (ss : List Statement) (kitchen : Kitchen) (pantry : Pantry) :
    ((Stage.start (.method ss) ⟨kitchen, pantry, []⟩).Halts limit ∧
      (∃ s, EndsAt limit (.start (.method ss) ⟨kitchen, pantry, []⟩) s ∧
        runMethod limit ss kitchen pantry = (s.todo.map fun _ => (), s.bench)) ∧
      (runMethod limit ss kitchen pantry).2.log.countP Event.isResolve ≤
        ss.length * (limit + 1) ^ ss.countP Statement.isLoopStart) ∧
    ∀ (verb ingredient : String) (until? : Option String),
      (Stage.start (.loop verb ingredient (until?.getD ingredient) ss 0 limit)
        ⟨kitchen, pantry, []⟩).Halts limit ∧
      (∃ s, EndsAt limit (.start (.loop verb ingredient (until?.getD ingredient) ss 0 limit)
          ⟨kitchen, pantry, []⟩) s ∧
        runLoop limit verb ingredient until? ss kitchen pantry =
          (s.todo.map fun _ => (), s.bench)) ∧
      (runLoop limit verb ingredient until? ss kitchen pantry).2.log.countP Event.isResolve ≤
        limit * (ss.length * (limit + 1) ^ ss.countP Statement.isLoopStart) := by
  refine ⟨⟨Stage.halts_start limit _ _, ?_, ?_⟩, fun verb ingredient until? =>
    ⟨Stage.halts_start limit _ _, ?_, ?_⟩⟩
  · obtain ⟨s, hend⟩ := exists_endsAt limit (.method ss) ⟨kitchen, pantry, []⟩
    exact ⟨s, hend, hend.run_program⟩
  · obtain ⟨es, hlog, htold⟩ := follow_tells limit ss ⟨kitchen, pantry, []⟩
    show work ((follow limit ss).run.run ⟨kitchen, pantry, []⟩).2.log ≤ workBound limit ss
    rw [hlog, List.append_nil, work_reverse]
    exact htold.work_le
  · obtain ⟨s, hend⟩ := exists_endsAt limit
      (.loop verb ingredient (until?.getD ingredient) ss 0 limit) ⟨kitchen, pantry, []⟩
    exact ⟨s, hend, hend.run_program⟩
  · obtain ⟨es, hlog, htold⟩ := tells_passes (follow_tells limit ss) ⟨kitchen, pantry, []⟩
    show work ((passes verb ingredient (until?.getD ingredient) (follow limit ss) 0 limit).run.run
      ⟨kitchen, pantry, []⟩).2.log ≤ limit * workBound limit ss
    rw [hlog, List.append_nil, work_reverse]
    exact htold.work_le fun _ _ _ _ hbody => hbody.work_le

end Cookery
