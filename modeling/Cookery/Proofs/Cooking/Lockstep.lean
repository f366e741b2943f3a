import Cookery.Proofs.Cooking.Stages

/-!
# Two runs side by side

A method and a changed copy of it are carried out at two benches that are related.  If each single
step keeps the relation, the two go on together: the copy meets the same loops, makes the same
passes and fails where the method fails.

* `Together`, `Lockstep`   two ends that belong together, and programs that come to such ends;
* `Lockstep.bind`          programs one after the other;
* `Statement.map`          a statement with another action and other names; its loop words stay;
* `cutLoop?_map`           so the loops are cut in the same way;
* `Simulation`             what has to be known of the single steps;
* `Simulation.follow`      then a method and its copy go on together.
-/

namespace Cookery

/-! ## programs in lockstep -/

/-- two ends: the same value at benches that have `R`, or two errors that have `E` with the benches
they leave -/
inductive Together {α : Type} (R : Bench → Bench → Prop)
    (E : Error × Bench → Error × Bench → Prop) :
    Except Error α × Bench → Except Error α × Bench → Prop where
  | ok {a : α} {b b' : Bench} (related : R b b') : Together R E (.ok a, b) (.ok a, b')
  | error {e e' : Error} {b b' : Bench} (related : E (e, b) (e', b')) :
    Together R E (.error e, b) (.error e', b')

/-- two programs at benches that have `R` -/
def Lockstep {α : Type} (R : Bench → Bench → Prop) (E : Error × Bench → Error × Bench → Prop)
    (m m' : Cooking α) : Prop :=
  ∀ b b', R b b' → Together R E (m.run.run b) (m'.run.run b')

section
variable {α β : Type} {R : Bench → Bench → Prop} {E : Error × Bench → Error × Bench → Prop}

theorem lockstep_pure (a : α) : Lockstep R E (pure a) (pure a) := fun _ _ h => .ok h

theorem lockstep_throw {e e' : Error} (h : ∀ b b', R b b' → E (e, b) (e', b')) :
    Lockstep R E (throw e : Cooking α) (throw e') :=
  fun b b' hb => .error (h b b' hb)

theorem lockstep_emit {e e' : Event} (h : ∀ b b', R b b' → R (b.note e) (b'.note e')) :
    Lockstep R E (emit e) (emit e') :=
  fun b b' hb => .ok (h b b' hb)

theorem Lockstep.bind {m m' : Cooking α} {f f' : α → Cooking β} (hm : Lockstep R E m m')
    (hf : ∀ a, Lockstep R E (f a) (f' a)) : Lockstep R E (m >>= f) (m' >>= f') := by
  intro b b' hb
  have hfirst := hm b b' hb
  rw [run_bind, run_bind]
  generalize m.run.run b = o at hfirst
  generalize m'.run.run b' = o' at hfirst
  cases hfirst with
  | @ok a b₁ b₁' related => exact hf a b₁ b₁' related
  | error related => exact .error related

/-- the passes of two loops of one verb: they begin with the same amounts -/
theorem lockstep_passes {verb ingredient ingredient' counter counter' : String}
    {body body' : Cooking Unit} (hbody : Lockstep R E body body')
    (hcheck : Lockstep R E (loopValue ingredient) (loopValue ingredient'))
    (hcount : Lockstep R E (decrement counter) (decrement counter'))
    (hpass : ∀ value n, Lockstep R E (emit (.pass verb ingredient value n))
      (emit (.pass verb ingredient' value n)))
    (hfinished : ∀ n, Lockstep R E (emit (.loopFinished verb ingredient n))
      (emit (.loopFinished verb ingredient' n)))
    (hlimit : ∀ n, Lockstep R E (throw (.loopLimit verb n) : Cooking Unit)
      (throw (.loopLimit verb n))) (left : Nat) :
    ∀ made, Lockstep R E (passes verb ingredient counter body made left)
      (passes verb ingredient' counter' body' made left) := by
  induction left with
  | zero =>
    intro made
    rw [passes, passes]
    refine hcheck.bind fun value => ?_
    by_cases hzero : value.val = 0
    · rw [if_pos hzero, if_pos hzero]
      exact hfinished made
    · rw [if_neg hzero, if_neg hzero]
      exact hlimit made
  | succ left ih =>
    intro made
    rw [passes, passes]
    refine hcheck.bind fun value => ?_
    by_cases hzero : value.val = 0
    · rw [if_pos hzero, if_pos hzero]
      exact hfinished made
    · rw [if_neg hzero, if_neg hzero]
      refine (hpass value (made + 1)).bind fun _ => hbody.bind fun _ => ?_
      exact hcount.bind fun _ => ih (made + 1)

end

/-! ## changed copies of a method -/

section
variable (act : Action → Action) (rename : String → String)

/-- a statement with another action, or with other names of ingredients -/
def Statement.map : Statement → Statement
  | .act a => .act (act a)
  | .loopStart verb ingredient => .loopStart verb (rename ingredient)
  | .loopEnd verbed ingredient? => .loopEnd verbed (ingredient?.map rename)

def LoopCut.map (cut : LoopCut) : LoopCut where
  body := cut.body.map (Statement.map act rename)
  until? := cut.until?.map rename
  rest := cut.rest.map (Statement.map act rename)

/-- what the copy reports where the method reports an event -/
def Event.map : Event → Event
  | .resolve st => .resolve (st.map act rename)
  | .pass verb ingredient value n => .pass verb (rename ingredient) value n
  | .loopFinished verb ingredient n => .loopFinished verb (rename ingredient) n
  | e => e

theorem cutLoop?_map (verb : String) (ss : List Statement) :
    cutLoop? verb (ss.map (Statement.map act rename)) =
      (cutLoop? verb ss).map (LoopCut.map act rename) := by
  induction ss with
  | nil => rfl
  | cons st ss ih =>
    have hsame : (st.map act rename).closes verb = st.closes verb := by
      cases st <;> rfl
    rw [List.map_cons]
    cases hclose : st.closes verb with
    | false =>
      rw [cutLoop?_cons_of_open hclose, cutLoop?_cons_of_open (hsame.trans hclose), ih,
        Option.map_map, Option.map_map]
      rfl
    | true =>
      cases st with
      | act a => cases hclose
      | loopStart verb' ingredient => cases hclose
      | loopEnd verbed ingredient? =>
        have hpast : isPastTense verbed verb = true := hclose
        rw [Statement.map, cutLoop?, cutLoop?, if_pos hpast, if_pos hpast]
        rfl

/-- an error that the loops themselves give, whatever is in the kitchen and in the table -/
def Error.OfNesting : Error → Prop
  | .runtime (.unclosedLoop _) => True
  | .runtime (.strayLoopEnd _) => True
  | .loopLimit _ _ => True
  | _ => False

/-- every step of a method with these statements goes together with the step of the copy -/
structure Simulation (R : Bench → Bench → Prop) (E : Error × Bench → Error × Bench → Prop)
    (ss : List Statement) : Prop where
  note : ∀ e b b', R b b' → R (b.note e) (b'.note (e.map act rename))
  perform : ∀ a, .act a ∈ ss → Lockstep R E a.perform (act a).perform
  check : ∀ name ∈ ss.flatMap Statement.counters,
    Lockstep R E (loopValue name) (loopValue (rename name))
  count : ∀ name ∈ ss.flatMap Statement.counters,
    Lockstep R E (decrement name) (decrement (rename name))
  fail : ∀ e, e.OfNesting → ∀ b b', R b b' → E (e, b) (e, b')

end

section
variable {act : Action → Action} {rename : String → String} {R : Bench → Bench → Prop}
  {E : Error × Bench → Error × Bench → Prop} {all : List Statement}

theorem Simulation.emit (h : Simulation act rename R E all) (e : Event) :
    Lockstep R E (Cookery.emit e) (Cookery.emit (e.map act rename)) :=
  lockstep_emit (h.note e)

theorem Simulation.throw (h : Simulation act rename R E all) {e : Error} (he : e.OfNesting) :
    Lockstep R E (MonadExcept.throw e : Cooking Unit) (MonadExcept.throw e) :=
  lockstep_throw (h.fail e he)

/-- by the recursion of `follow`: a loop is cut at the same place in the copy -/
theorem Simulation.follow (h : Simulation act rename R E all) (limit : Nat) (ss : List Statement)
    (hss : ss ⊆ all) :
    Lockstep R E (Cookery.follow limit ss)
      (Cookery.follow limit (ss.map (Statement.map act rename))) := by
  induction ss using follow.induct with
  | case1 =>
    rw [List.map_nil, follow_nil]
    exact lockstep_pure ()
  | case2 a ss ih =>
    rw [List.map_cons, Statement.map, follow_act, follow_act]
    refine (h.emit (.resolve (.act a))).bind fun _ => ?_
    refine (h.perform a (hss List.mem_cons_self)).bind fun _ => ?_
    exact ih (List.subset_of_cons_subset hss)
  | case3 verb ingredient ss ihbody ihrest =>
    have hcopy := cutLoop?_map act rename verb ss
    rw [List.map_cons, Statement.map]
    cases hc : cutLoop? verb ss with
    | none =>
      rw [hc] at hcopy
      rw [follow_unclosed hc, follow_unclosed hcopy]
      exact (h.emit (.resolve (.loopStart verb ingredient))).bind fun _ => h.throw trivial
    | some cut =>
      rw [hc] at hcopy
      rw [follow_loopStart hc, follow_loopStart hcopy]
      obtain ⟨hbody, hrest, hstart, hcounter⟩ := subset_of_cutLoop? counters_subset hc hss
      refine (h.emit (.resolve (.loopStart verb ingredient))).bind fun _ => ?_
      refine Lockstep.bind ?_ fun _ => ihrest cut hc hrest
      have huntil : (LoopCut.map act rename cut).until?.getD (rename ingredient) =
          rename (cut.until?.getD ingredient) := by
        cases hu : cut.until? <;> simp only [LoopCut.map, hu] <;> rfl
      rw [huntil]
      exact lockstep_passes (ihbody cut hc hbody) (h.check _ hstart) (h.count _ hcounter)
        (fun value n => h.emit (.pass verb ingredient value n))
        (fun n => h.emit (.loopFinished verb ingredient n)) (fun n => h.throw trivial) limit 0
  | case4 verbed ingredient? ss =>
    rw [List.map_cons, Statement.map, follow_loopEnd, follow_loopEnd]
    exact (h.emit (.resolve (.loopEnd verbed ingredient?))).bind fun _ => h.throw trivial

end

end Cookery
