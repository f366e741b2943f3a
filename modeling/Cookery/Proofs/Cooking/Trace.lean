import Cookery.Proofs.Cooking.Countdown
import Cookery.Proofs.Cooking.Limits
import Cookery.Proofs.Cooking.Structured

/-!
# What a run reports

The events of a run are told by rules that follow the method: an action reports itself, a loop
reports its start, then each pass with its number and with the amount that was found, then the
events of the body, and at last that it is finished.  A run that fails reports all of this up to
the point where it fails.

* `PassesTold`      whole passes of a loop, numbered from one;
* `LoopTold`        one entry of a loop, to its end or to the point where it fails;
* `MethodTold`      a method, whether its loops are well nested or not;
* `Tells`           the events that a program adds to the log are told by an account of them;
* `follow_tells`    methods are told by these rules;
* `LoopEndLast`     a loop end is reported by the last event of a failing run at most;
* `LoopTold.finished_iff`   an entry reports that its loop is finished iff it is completed;
* `run_events_told` all of it, for preparations.
-/

namespace Cookery

/-! ## the rules -/

/-- from a scene, the events that are reported, a result and a scene afterwards -/
abbrev Account : Type := Scene → List Event → Except Error Unit → Scene → Prop

/-- the first `n` passes of a loop: each one is reported with its number and the amount at its
start, which is not zero, then come the events of the body, and the counter is counted down -/
inductive PassesTold (verb ingredient counter : String) (body : Account) (s : Scene) :
    Nat → List Event → Scene → Prop where
  | none : PassesTold verb ingredient counter body s 0 [] s
  | more {n : Nat} {es es' : List Event} {m m' : Scene} {value : Quantity} {p : Pantry}
    (before : PassesTold verb ingredient counter body s n es m)
    (amount : Pantry.amount? m.2 ingredient = some value) (nonzero : value.val ≠ 0)
    (once : body m es' (.ok ()) m') (count : countDown counter m'.2 = .ok p) :
    PassesTold verb ingredient counter body s (n + 1)
      (es ++ .pass verb ingredient value (n + 1) :: es') (m'.1, p)

/-- one entry of a loop, after its start was reported: `n` whole passes, and then the end of the
loop, or why there is none -/
inductive LoopTold (limit : Nat) (verb ingredient counter : String) (body : Account) : Account where
  | finished {n : Nat} {es : List Event} {s m : Scene} {value : Quantity}
    (passes : PassesTold verb ingredient counter body s n es m) (few : n ≤ limit)
    (amount : Pantry.amount? m.2 ingredient = some value) (zero : value.val = 0) :
    LoopTold limit verb ingredient counter body s (es ++ [.loopFinished verb ingredient n])
      (.ok ()) m
  | unchecked {n : Nat} {es : List Event} {s m : Scene} {e : Error}
    (passes : PassesTold verb ingredient counter body s n es m) (few : n ≤ limit)
    (check : loopCheck ingredient m.2 = .error e) :
    LoopTold limit verb ingredient counter body s es (.error e) m
  | usedUp {es : List Event} {s m : Scene} {value : Quantity}
    (passes : PassesTold verb ingredient counter body s limit es m)
    (amount : Pantry.amount? m.2 ingredient = some value) (nonzero : value.val ≠ 0) :
    LoopTold limit verb ingredient counter body s es (.error (.loopLimit verb limit)) m
  | broken {n : Nat} {es es' : List Event} {s m s' : Scene} {value : Quantity} {e : Error}
    (passes : PassesTold verb ingredient counter body s n es m) (few : n + 1 ≤ limit)
    (amount : Pantry.amount? m.2 ingredient = some value) (nonzero : value.val ≠ 0)
    (once : body m es' (.error e) s') :
    LoopTold limit verb ingredient counter body s
      (es ++ .pass verb ingredient value (n + 1) :: es') (.error e) s'
  | uncounted {n : Nat} {es es' : List Event} {s m s' : Scene} {value : Quantity} {e : Error}
    (passes : PassesTold verb ingredient counter body s n es m) (few : n + 1 ≤ limit)
    (amount : Pantry.amount? m.2 ingredient = some value) (nonzero : value.val ≠ 0)
    (once : body m es' (.ok ()) s') (count : countDown counter s'.2 = .error e) :
    LoopTold limit verb ingredient counter body s
      (es ++ .pass verb ingredient value (n + 1) :: es') (.error e) s'

/-- the statements of a method in order; a loop that has an end is told by its entry, where what is
told of a pass is told by the rules of the loop's body -/
inductive MethodTold (limit : Nat) : List Statement → Account where
  | done {s : Scene} : MethodTold limit [] s [] (.ok ()) s
  | act {a : Action} {ss : List Statement} {es : List Event} {s m s' : Scene}
    {r : Except Error Unit} (effect : a.Does s (.ok ()) m) (next : MethodTold limit ss m es r s') :
    MethodTold limit (.act a :: ss) s (.resolve (.act a) :: es) r s'
  | failed {a : Action} {ss : List Statement} {s s' : Scene} {e : Error}
    (effect : a.Does s (.error e) s') :
    MethodTold limit (.act a :: ss) s [.resolve (.act a)] (.error e) s'
  | loop {verb ingredient : String} {ss : List Statement} {cut : LoopCut} {body : Account}
    {es es' : List Event} {s m s' : Scene} {r : Except Error Unit}
    (found : cutLoop? verb ss = some cut)
    (inside : ∀ s es r s', body s es r s' → MethodTold limit cut.body s es r s')
    (entry : LoopTold limit verb ingredient (cut.until?.getD ingredient) body s es (.ok ()) m)
    (next : MethodTold limit cut.rest m es' r s') :
    MethodTold limit (.loopStart verb ingredient :: ss) s
      (.resolve (.loopStart verb ingredient) :: (es ++ es')) r s'
  | loopFailed {verb ingredient : String} {ss : List Statement} {cut : LoopCut} {body : Account}
    {es : List Event} {s s' : Scene} {e : Error} (found : cutLoop? verb ss = some cut)
    (inside : ∀ s es r s', body s es r s' → MethodTold limit cut.body s es r s')
    (entry : LoopTold limit verb ingredient (cut.until?.getD ingredient) body s es (.error e) s') :
    MethodTold limit (.loopStart verb ingredient :: ss) s
      (.resolve (.loopStart verb ingredient) :: es) (.error e) s'
  | unclosed {verb ingredient : String} {ss : List Statement} {s : Scene}
    (found : cutLoop? verb ss = none) :
    MethodTold limit (.loopStart verb ingredient :: ss) s [.resolve (.loopStart verb ingredient)]
      (.error (.runtime (.unclosedLoop verb))) s
  | stray {verbed : String} {ingredient? : Option String} {ss : List Statement} {s : Scene} :
    MethodTold limit (.loopEnd verbed ingredient? :: ss) s [.resolve (.loopEnd verbed ingredient?)]
      (.error (.runtime (.strayLoopEnd verbed))) s

/-! ## programs and what they report -/

/-- at this bench, the program adds events to the log that have `P` together with the result of the
program and the scene that it leaves -/
def Reports (m : Cooking Unit) (b : Bench)
    (P : List Event → Except Error Unit → Scene → Prop) : Prop :=
  ∃ es, (m.run.run b).2.log = es.reverse ++ b.log ∧ P es (m.run.run b).1 (m.run.run b).2.scene

/-- whatever the bench, what the program reports is told by `A` -/
def Tells (m : Cooking Unit) (A : Account) : Prop := ∀ b, Reports m b (A b.scene)

theorem run_emit_bind (e : Event) (m : Cooking Unit) (b : Bench) :
    (emit e >>= fun _ => m).run.run b = m.run.run (b.note e) :=
  run_bind_ok (run_emit e b) _

/-- events after one that was noted before -/
theorem log_note {b b' : Bench} {e : Event} {es : List Event}
    (h : b'.log = es.reverse ++ (b.note e).log) : b'.log = (e :: es).reverse ++ b.log := by
  rw [h, List.reverse_cons, List.append_assoc]
  rfl

section
variable {limit : Nat} {verb ingredient counter : String} {m : Cooking Unit} {body : Account}

/-- the check at the start of a pass, and what follows if the amount is not zero -/
theorem reports_checked {b : Bench} {s : Scene} {made : Nat} {es : List Event}
    {k : Quantity → Cooking Unit}
    (hpasses : PassesTold verb ingredient counter body s made es b.scene) (hfew : made ≤ limit)
    (hk : ∀ value, Pantry.amount? b.pantry ingredient = some value → value.val ≠ 0 →
      Reports (k value) b fun es' => LoopTold limit verb ingredient counter body s (es ++ es')) :
    Reports (loopValue ingredient >>= fun value =>
        if value.val = 0 then emit (.loopFinished verb ingredient made) else k value) b
      fun es' => LoopTold limit verb ingredient counter body s (es ++ es') := by
  have hrun := run_loopValue ingredient b
  unfold Reports
  cases check : loopCheck ingredient b.pantry with
  | error e =>
    rw [check] at hrun
    rw [run_bind_error hrun]
    refine ⟨[], rfl, ?_⟩
    show LoopTold limit verb ingredient counter body s (es ++ []) (.error e) b.scene
    rw [List.append_nil]
    exact .unchecked hpasses hfew check
  | ok value =>
    rw [check] at hrun
    rw [run_bind_ok hrun]
    have hamount := loopCheck_eq_ok_iff.mp check
    by_cases hzero : value.val = 0
    · rw [if_pos hzero, run_emit]
      exact ⟨[.loopFinished verb ingredient made], rfl, .finished hpasses hfew hamount hzero⟩
    · rw [if_neg hzero]
      exact hk value hamount hzero

/-- by induction on the passes that are left; those made so far are told already -/
theorem reports_passes (hm : Tells m body) (left : Nat) :
    ∀ {made : Nat} {b : Bench} {s : Scene} {es : List Event}, made + left = limit →
      PassesTold verb ingredient counter body s made es b.scene →
      Reports (passes verb ingredient counter m made left) b
        fun es' => LoopTold limit verb ingredient counter body s (es ++ es') := by
  induction left with
  | zero =>
    intro made b s es hlimit hpasses
    obtain rfl : made = limit := hlimit
    refine reports_checked hpasses (Nat.le_refl _) fun value hamount hnonzero => ⟨[], rfl, ?_⟩
    show LoopTold made verb ingredient counter body s (es ++ []) (.error (.loopLimit verb made)) _
    rw [List.append_nil]
    exact .usedUp hpasses hamount hnonzero
  | succ left ih =>
    intro made b s es hlimit hpasses
    refine reports_checked hpasses (by omega) fun value hamount hnonzero => ?_
    unfold Reports
    rw [run_emit_bind]
    obtain ⟨es₁, hlog₁, honce⟩ := hm (b.note (.pass verb ingredient value (made + 1)))
    cases hbody : m.run.run (b.note (.pass verb ingredient value (made + 1))) with
    | mk result b₁ =>
      rw [hbody] at hlog₁ honce
      cases result with
      | error e =>
        rw [run_bind_error hbody]
        exact ⟨_, log_note hlog₁, .broken hpasses (by omega) hamount hnonzero honce⟩
      | ok u =>
        rw [run_bind_ok hbody]
        have hdown := run_decrement counter b₁
        cases hcount : countDown counter b₁.pantry with
        | error e =>
          rw [hcount] at hdown
          rw [run_bind_error hdown]
          exact ⟨_, log_note hlog₁, .uncounted hpasses (by omega) hamount hnonzero honce hcount⟩
        | ok p =>
          rw [hcount] at hdown
          rw [run_bind_ok hdown]
          have hmore := PassesTold.more hpasses hamount hnonzero honce hcount
          obtain ⟨es₂, hlog₂, htold⟩ := @ih (made + 1) { b₁ with pantry := p } _ _ (by omega) hmore
          refine ⟨.pass verb ingredient value (made + 1) :: es₁ ++ es₂, ?_, ?_⟩
          · rw [hlog₂, List.reverse_append, List.append_assoc, ← log_note hlog₁]
          · show LoopTold limit verb ingredient counter body s (es ++ (_ :: es₁ ++ es₂)) _ _
            rw [← List.append_assoc]
            exact htold

theorem tells_passes (hm : Tells m body) :
    Tells (passes verb ingredient counter m 0 limit)
      (LoopTold limit verb ingredient counter body) :=
  fun _ => reports_passes hm limit (Nat.zero_add limit) .none

end

/-- by the recursion of `follow`: the passes of a loop are told by the rules of its body -/
theorem follow_tells (limit : Nat) (ss : List Statement) :
    Tells (follow limit ss) (MethodTold limit ss) := by
  induction ss using follow.induct with
  | case1 =>
    intro b
    rw [follow_nil]
    exact ⟨[], rfl, .done⟩
  | case2 action ss ih =>
    intro b
    unfold Reports
    rw [follow_act, run_emit_bind]
    have hrun := run_perform action (b.note (.resolve (.act action)))
    cases heff : action.effect (b.note (.resolve (.act action))).kitchen
        (b.note (.resolve (.act action))).pantry with
    | mk result k =>
      rw [heff] at hrun
      have hdoes : action.Does b.scene result (k, b.pantry) := ⟨heff, rfl⟩
      cases result with
      | error e =>
        rw [run_bind_error hrun]
        exact ⟨[.resolve (.act action)], rfl, .failed hdoes⟩
      | ok u =>
        rw [run_bind_ok hrun]
        obtain ⟨es, hlog, htold⟩ := ih { b.note (.resolve (.act action)) with kitchen := k }
        exact ⟨.resolve (.act action) :: es, log_note hlog, .act hdoes htold⟩
  | case3 verb ingredient ss ihbody ihrest =>
    intro b
    unfold Reports
    cases hc : cutLoop? verb ss with
    | none =>
      rw [follow_unclosed hc]
      exact ⟨[.resolve (.loopStart verb ingredient)], rfl, .unclosed hc⟩
    | some cut =>
      rw [follow_loopStart hc, run_emit_bind]
      have hloop : Tells (passes verb ingredient (cut.until?.getD ingredient)
          (follow limit cut.body) 0 limit) _ := tells_passes (ihbody cut hc)
      obtain ⟨es, hlog, hentry⟩ := hloop (b.note (.resolve (.loopStart verb ingredient)))
      cases hrun : (passes verb ingredient (cut.until?.getD ingredient) (follow limit cut.body) 0
          limit).run.run (b.note (.resolve (.loopStart verb ingredient))) with
      | mk result b₁ =>
        rw [hrun] at hlog hentry
        cases result with
        | error e =>
          rw [run_bind_error hrun]
          exact ⟨_, log_note hlog, .loopFailed hc (fun _ _ _ _ h => h) hentry⟩
        | ok u =>
          rw [run_bind_ok hrun]
          obtain ⟨es', hlog', hrest⟩ := ihrest cut hc b₁
          refine ⟨.resolve (.loopStart verb ingredient) :: (es ++ es'), ?_,
            .loop hc (fun _ _ _ _ h => h) hentry hrest⟩
          rw [hlog', log_note hlog, ← List.cons_append, List.reverse_append, List.append_assoc]
  | case4 verbed ingredient? ss =>
    intro b
    rw [follow_loopEnd]
    exact ⟨[.resolve (.loopEnd verbed ingredient?)], rfl, .stray⟩

/-! ## loop ends -/

/-- does an event report a loop end? -/
def Event.isLoopEnd : Event → Bool
  | .resolve (.loopEnd _ _) => true
  | _ => false

def NoLoopEnd (es : List Event) : Prop := ∀ e ∈ es, e.isLoopEnd = false

/-- only the last event of a run that fails may report a loop end -/
inductive LoopEndLast : List Event → Except Error Unit → Prop where
  | never {es : List Event} {r : Except Error Unit} (none : NoLoopEnd es) : LoopEndLast es r
  | last {es : List Event} {x : Event} {e : Error} (none : NoLoopEnd es) :
    LoopEndLast (es ++ [x]) (.error e)

theorem noLoopEnd_nil : NoLoopEnd [] := List.forall_mem_nil _

theorem NoLoopEnd.cons {e : Event} {es : List Event} (he : e.isLoopEnd = false)
    (h : NoLoopEnd es) : NoLoopEnd (e :: es) :=
  List.forall_mem_cons.mpr ⟨he, h⟩

theorem NoLoopEnd.append {es es' : List Event} (h : NoLoopEnd es) (h' : NoLoopEnd es') :
    NoLoopEnd (es ++ es') :=
  List.forall_mem_append.mpr ⟨h, h'⟩

/-- what ends well reports no loop end -/
theorem LoopEndLast.noLoopEnd {es : List Event} (h : LoopEndLast es (.ok ())) : NoLoopEnd es := by
  cases h with
  | never none => exact none

theorem LoopEndLast.after {es es' : List Event} {r : Except Error Unit} (h : NoLoopEnd es)
    (h' : LoopEndLast es' r) : LoopEndLast (es ++ es') r := by
  cases h' with
  | never none => exact .never (h.append none)
  | last none =>
    rw [← List.append_assoc]
    exact .last (h.append none)

theorem LoopEndLast.cons {e : Event} {es : List Event} {r : Except Error Unit}
    (he : e.isLoopEnd = false) (h : LoopEndLast es r) : LoopEndLast (e :: es) r :=
  .after (noLoopEnd_nil.cons he) h

/-- where a loop end is reported, nothing comes after it and the run has failed -/
theorem LoopEndLast.eq_last {es before after : List Event} {r : Except Error Unit} {x : Event}
    (h : LoopEndLast es r) (hes : es = before ++ x :: after) (hx : x.isLoopEnd = true) :
    after = [] ∧ ∃ e, r = .error e := by
  have hmem : ∀ front : List Event, ¬ NoLoopEnd (before ++ x :: front) := by
    intro front hnone
    have hfalse := hnone x (List.mem_append_right _ List.mem_cons_self)
    rw [hx] at hfalse
    cases hfalse
  cases h with
  | never none => exact absurd (hes ▸ none) (hmem after)
  | @last es y e none =>
    refine ⟨?_, e, rfl⟩
    rcases List.eq_nil_or_concat after with hafter | ⟨front, z, rfl⟩
    · exact hafter
    -- otherwise the loop end stands among the events before the last one
    · have hcut : es ++ [y] = (before ++ x :: front) ++ [z] := by
        rw [hes, List.concat_eq_append, List.append_assoc, List.cons_append]
      exact absurd ((List.append_inj' hcut rfl).1 ▸ none) (hmem front)

section
variable {limit : Nat} {verb ingredient counter : String} {body : Account}

theorem PassesTold.noLoopEnd {n : Nat} {es : List Event} {s m : Scene}
    (h : PassesTold verb ingredient counter body s n es m)
    (hbody : ∀ s es r s', body s es r s' → LoopEndLast es r) : NoLoopEnd es := by
  induction h with
  | none => exact noLoopEnd_nil
  | more before amount nonzero once count ih =>
    exact ih.append (.cons rfl (hbody _ _ _ _ once).noLoopEnd)

theorem LoopTold.loopEndLast {es : List Event} {s s' : Scene} {r : Except Error Unit}
    (h : LoopTold limit verb ingredient counter body s es r s')
    (hbody : ∀ s es r s', body s es r s' → LoopEndLast es r) : LoopEndLast es r := by
  cases h with
  | finished passes few amount zero =>
    exact .never ((passes.noLoopEnd hbody).append (.cons rfl noLoopEnd_nil))
  | unchecked passes few check => exact .never (passes.noLoopEnd hbody)
  | usedUp passes amount nonzero => exact .never (passes.noLoopEnd hbody)
  | broken passes few amount nonzero once =>
    exact .after (passes.noLoopEnd hbody) (.cons rfl (hbody _ _ _ _ once))
  | uncounted passes few amount nonzero once count =>
    have honce := (hbody _ _ _ _ once).noLoopEnd
    exact .never ((passes.noLoopEnd hbody).append (.cons rfl honce))

end

theorem MethodTold.loopEndLast {limit : Nat} {ss : List Statement} {es : List Event} {s s' : Scene}
    {r : Except Error Unit} (h : MethodTold limit ss s es r s') : LoopEndLast es r := by
  induction h with
  | done => exact .never noLoopEnd_nil
  | act effect next ih => exact .cons rfl ih
  | failed effect => exact .never (.cons rfl noLoopEnd_nil)
  | loop found inside entry next ihbody ihrest =>
    exact .cons rfl (.after (entry.loopEndLast ihbody).noLoopEnd ihrest)
  | loopFailed found inside entry ihbody => exact .cons rfl (entry.loopEndLast ihbody)
  | unclosed found => exact .never (.cons rfl noLoopEnd_nil)
  | stray => exact LoopEndLast.last noLoopEnd_nil

/-! ## loops that are finished -/

/-- the event reports that a loop of this verb is finished -/
def Event.Finishes (verb : String) : Event → Prop
  | .loopFinished verb' _ _ => verb' = verb
  | _ => False

section
variable {limit : Nat} {verb ingredient counter : String} {body : Account} {P : Event → Prop}

theorem PassesTold.forall_mem {n : Nat} {es : List Event} {s m : Scene}
    (h : PassesTold verb ingredient counter body s n es m)
    (hpass : ∀ value k, P (.pass verb ingredient value k))
    (hbody : ∀ s es r s', body s es r s' → ∀ e ∈ es, P e) : ∀ e ∈ es, P e := by
  induction h with
  | none => exact List.forall_mem_nil _
  | more before amount nonzero once count ih =>
    refine List.forall_mem_append.mpr ⟨ih, ?_⟩
    exact List.forall_mem_cons.mpr ⟨hpass _ _, hbody _ _ _ _ once⟩

/-- what holds of the events of the body and of those of the loop itself -/
theorem LoopTold.forall_mem {es : List Event} {s s' : Scene} {r : Except Error Unit}
    (h : LoopTold limit verb ingredient counter body s es r s')
    (hpass : ∀ value k, P (.pass verb ingredient value k))
    (hbody : ∀ s es r s', body s es r s' → ∀ e ∈ es, P e)
    (hfinished : r = .ok () → ∀ n, P (.loopFinished verb ingredient n)) : ∀ e ∈ es, P e := by
  cases h with
  | @finished n _ _ _ _ passes few amount zero =>
    have hlast := List.forall_mem_singleton.mpr (hfinished rfl n)
    exact List.forall_mem_append.mpr ⟨passes.forall_mem hpass hbody, hlast⟩
  | unchecked passes few check => exact passes.forall_mem hpass hbody
  | usedUp passes amount nonzero => exact passes.forall_mem hpass hbody
  | broken passes few amount nonzero once =>
    refine List.forall_mem_append.mpr ⟨passes.forall_mem hpass hbody, ?_⟩
    exact List.forall_mem_cons.mpr ⟨hpass _ _, hbody _ _ _ _ once⟩
  | uncounted passes few amount nonzero once count =>
    refine List.forall_mem_append.mpr ⟨passes.forall_mem hpass hbody, ?_⟩
    exact List.forall_mem_cons.mpr ⟨hpass _ _, hbody _ _ _ _ once⟩

end

/-- a verb whose loops are not closed in a list of statements has no loop that is cut out of it -/
theorem ne_of_cutLoop? {verb verb' : String} {ss : List Statement} {cut : LoopCut}
    (hopen : ∀ st ∈ ss, st.closes verb = false) (found : cutLoop? verb' ss = some cut) :
    verb' ≠ verb ∧ (∀ st ∈ cut.body, st.closes verb = false) ∧
      ∀ st ∈ cut.rest, st.closes verb = false := by
  obtain ⟨_, verbed, hpast, rfl⟩ := cutLoop?_eq_some found
  obtain ⟨hbody, hend⟩ := List.forall_mem_append.mp hopen
  obtain ⟨hclose, hrest⟩ := List.forall_mem_cons.mp hend
  refine ⟨?_, hbody, hrest⟩
  rintro rfl
  have hfalse : isPastTense verbed verb' = false := hclose
  rw [hpast] at hfalse
  cases hfalse

/-- a loop that is not closed by one of the statements is not finished by them either -/
theorem MethodTold.not_finishes {limit : Nat} {ss : List Statement} {es : List Event} {s s' : Scene}
    {r : Except Error Unit} (h : MethodTold limit ss s es r s') {verb : String}
    (hopen : ∀ st ∈ ss, st.closes verb = false) : ∀ e ∈ es, ¬ e.Finishes verb := by
  induction h with
  | done => exact List.forall_mem_nil _
  | act effect next ih =>
    exact List.forall_mem_cons.mpr ⟨id, ih (List.forall_mem_cons.mp hopen).2⟩
  | failed effect => exact List.forall_mem_singleton.mpr id
  | loop found inside entry next ihbody ihrest =>
    obtain ⟨hverb, hbody, hrest⟩ := ne_of_cutLoop? (List.forall_mem_cons.mp hopen).2 found
    have hentry := entry.forall_mem (P := fun e => ¬ e.Finishes verb) (fun _ _ => id)
      (fun s es r s' h => ihbody s es r s' h hbody) (fun _ _ => hverb)
    exact List.forall_mem_cons.mpr ⟨id, List.forall_mem_append.mpr ⟨hentry, ihrest hrest⟩⟩
  | loopFailed found inside entry ihbody =>
    obtain ⟨hverb, hbody, hrest⟩ := ne_of_cutLoop? (List.forall_mem_cons.mp hopen).2 found
    have hentry := entry.forall_mem (P := fun e => ¬ e.Finishes verb) (fun _ _ => id)
      (fun s es r s' h => ihbody s es r s' h hbody) (fun _ _ => hverb)
    exact List.forall_mem_cons.mpr ⟨id, hentry⟩
  | unclosed found => exact List.forall_mem_singleton.mpr id
  | stray => exact List.forall_mem_singleton.mpr id

/-- an entry of a loop reports that the loop is finished iff it is completed; inside the loop no
other loop of its verb can end -/
theorem LoopTold.finished_iff {limit : Nat} {verb ingredient counter : String}
    {ss : List Statement} {cut : LoopCut} (found : cutLoop? verb ss = some cut) {es : List Event}
    {s s' : Scene} {r : Except Error Unit}
    (h : LoopTold limit verb ingredient counter (MethodTold limit cut.body) s es r s') :
    r = .ok () ↔ ∃ n, .loopFinished verb ingredient n ∈ es := by
  constructor
  · intro hr
    cases h with
    | @finished n _ _ _ _ passes few amount zero =>
      exact ⟨n, List.mem_append_right _ List.mem_cons_self⟩
    | unchecked passes few check => cases hr
    | usedUp passes amount nonzero => cases hr
    | broken passes few amount nonzero once => cases hr
    | uncounted passes few amount nonzero once count => cases hr
  · rintro ⟨n, hmem⟩
    cases r with
    | ok u => rfl
    | error e =>
      have hbody := (cutLoop?_eq_some found).1
      have hnone := h.forall_mem (P := fun e => ¬ e.Finishes verb) (fun _ _ => id)
        (fun _ _ _ _ once => once.not_finishes hbody) nofun
      exact absurd rfl (hnone _ hmem)

/-! ## preparations -/

/-- the events of a preparation are told by its method, and its result is that of the method; a loop
end is reported by the last event of a failing run at most, and an entry of a loop reports that the
loop is finished iff it is completed -/
theorem run_events_told (p : Preparation) (limit : Nat) (kitchen : Kitchen) :
    (∃ r s, MethodTold limit p.method (kitchen, p.ingredients) (p.run limit kitchen).events r s ∧
      (p.run limit kitchen).result =
        match r with
        | .ok _ => .ok (s.1.bowl 0)
        | .error e => .error (.inContext e ("in recipe '" ++ p.title ++ "'"))) ∧
    (∀ before verbed ingredient? after,
      (p.run limit kitchen).events = before ++ .resolve (.loopEnd verbed ingredient?) :: after →
        after = [] ∧ ∃ e, (p.run limit kitchen).result = .error e) ∧
    ∀ verb ingredient ss cut, cutLoop? verb ss = some cut → ∀ s es r s',
      LoopTold limit verb ingredient (cut.until?.getD ingredient) (MethodTold limit cut.body)
        s es r s' →
      (r = .ok () ↔ ∃ n, .loopFinished verb ingredient n ∈ es) := by
  obtain ⟨es, hlog, htold⟩ := follow_tells limit p.method ⟨kitchen, p.ingredients, []⟩
  have hevents : (p.run limit kitchen).events = es := by
    rw [p.run_events]
    show (follow limit p.method).run.run _ |>.2.log.reverse = es
    rw [hlog, List.append_nil, List.reverse_reverse]
  refine ⟨⟨_, _, hevents ▸ htold, p.run_result limit kitchen⟩,
    fun before verbed ingredient? after hcut => ?_, ?_⟩
  · obtain ⟨hafter, e, he⟩ := htold.loopEndLast.eq_last (hevents.symm.trans hcut) rfl
    refine ⟨hafter, .inContext e ("in recipe '" ++ p.title ++ "'"), ?_⟩
    rw [p.run_result]
    show (match ((follow limit p.method).run.run ⟨kitchen, p.ingredients, []⟩).1 with
      | .ok _ => _
      | .error e => _) = _
    rw [he]
  · intro verb ingredient ss cut found s es r s' h
    exact h.finished_iff found

/-- eggs beaten until the rounds are used up, and then an end without a loop -/
def meringue : Preparation where
  title := "Meringue"
  ingredients := Table.ofList [("eggs", ⟨"eggs", Quantity.ofInt? 4, .liquid⟩),
    ("rounds", ⟨"rounds", Quantity.ofInt? 2, .either⟩)]
  method := [.loopStart "Beat" "rounds", .act (.put "eggs" 0), .loopEnd "beated" none,
    .loopEnd "baked" (some "eggs")]
  oven := none

/-- two passes are reported, with the rounds that are left at each; the stray loop end comes last -/
theorem run_meringue_events :
    (∃ two one : Quantity, two.val = 2 ∧ one.val = 1 ∧
      (meringue.run 5 .empty).events =
        [.resolve (.loopStart "Beat" "rounds"), .pass "Beat" "rounds" two 1,
          .resolve (.act (.put "eggs" 0)), .pass "Beat" "rounds" one 2,
          .resolve (.act (.put "eggs" 0)), .loopFinished "Beat" "rounds" 2,
          .resolve (.loopEnd "baked" (some "eggs"))]) ∧
    ∃ e, (meringue.run 5 .empty).result = .error e := by
  have hevents : (meringue.run 5 .empty).events =
      [.resolve (.loopStart "Beat" "rounds"), .pass "Beat" "rounds" ⟨2, by decide, by decide⟩ 1,
        .resolve (.act (.put "eggs" 0)), .pass "Beat" "rounds" ⟨1, by decide, by decide⟩ 2,
        .resolve (.act (.put "eggs" 0)), .loopFinished "Beat" "rounds" 2] ++
        .resolve (.loopEnd "baked" (some "eggs")) :: [] := by decide +kernel
  exact ⟨⟨_, _, rfl, rfl, hevents⟩, ((run_events_told meringue 5 .empty).2.1 _ _ _ _ hevents).2⟩

end Cookery
