import Cookery.Proofs.Cooking.Lockstep

/-!
# Methods with some of their actions replaced

A method is reworked: here and there some actions in a row are replaced by others, or left out, and
everything else stays.  Actions neither start nor end a loop, so the reworked method has the same
loops, though all places in it may have moved.  If the replaced actions and the new ones go together
from benches that are related, so do the two methods.

* `performAll`          some actions in a row, with their events;
* `Reworked swap`       a method and a reworked one, where `swap` says what may be replaced by what;
* `Reworked.cutLoop?`   the loops of both are cut at the same loop end;
* `Bench.Beside`        two benches with one table, and related kitchens and logs;
* `Reworking`           what has to be known of the single steps and of the replaced actions;
* `Reworked.follow`, `Reworked.runMethod`   then the two methods go together;
* `Recipe.rework`       a recipe with another method for its main preparation.
-/

namespace Cookery

/-! ## actions in a row -/

/-- some actions one after the other, each of them noted before it is done -/
def performAll (actions : List Action) : Cooking Unit :=
  forM actions fun a => emit (.resolve (.act a)) >>= fun _ => a.perform

theorem performAll_nil : performAll [] = pure () := rfl

theorem performAll_cons (a : Action) (as : List Action) :
    performAll (a :: as) =
      (emit (.resolve (.act a)) >>= fun _ => a.perform) >>= fun _ => performAll as :=
  List.forM_cons

theorem follow_acts_append (limit : Nat) (as : List Action) (ss : List Statement) :
    follow limit (as.map .act ++ ss) = performAll as >>= fun _ => follow limit ss := by
  induction as with
  | nil =>
    rw [performAll_nil, pure_bind]
    rfl
  | cons a as ih =>
    rw [List.map_cons, List.cons_append, follow_act, ih, performAll_cons, bind_assoc, bind_assoc]

theorem cutLoop?_acts_append (verb : String) (as : List Action) (ss : List Statement) :
    cutLoop? verb (as.map .act ++ ss) =
      (cutLoop? verb ss).map fun cut => { cut with body := as.map .act ++ cut.body } := by
  induction as with
  | nil => exact Option.map_id'.symm
  | cons a as ih =>
    have hopen : (Statement.act a).closes verb = false := rfl
    rw [List.map_cons, List.cons_append, cutLoop?_cons_of_open hopen, ih, Option.map_map]
    rfl

/-! ## reworked methods -/

/-- a method and a reworked one: at least one action is replaced, by any number of others -/
inductive Reworked (swap : List Action → List Action → Prop) :
    List Statement → List Statement → Prop where
  | nil : Reworked swap [] []
  | keep {ss ss' : List Statement} (st : Statement) (rest : Reworked swap ss ss') :
    Reworked swap (st :: ss) (st :: ss')
  | replace {a : Action} {as as' : List Action} {ss ss' : List Statement}
    (swapped : swap (a :: as) as') (rest : Reworked swap ss ss') :
    Reworked swap ((a :: as).map .act ++ ss) (as'.map .act ++ ss')

section
variable {swap : List Action → List Action → Prop} {ss ss' : List Statement}

theorem Reworked.refl (swap : List Action → List Action → Prop) (ss : List Statement) :
    Reworked swap ss ss := by
  induction ss with
  | nil => exact .nil
  | cons st ss ih => exact .keep st ih

theorem Reworked.append_left (before : List Statement) (h : Reworked swap ss ss') :
    Reworked swap (before ++ ss) (before ++ ss') := by
  induction before with
  | nil => exact h
  | cons st before ih => exact .keep st ih

/-- two cuts of a loop: both have the same loop end, and their parts are reworked -/
structure LoopCut.Reworked (swap : List Action → List Action → Prop) (cut cut' : LoopCut) :
    Prop where
  body : Cookery.Reworked swap cut.body cut'.body
  until_eq : cut'.until? = cut.until?
  rest : Cookery.Reworked swap cut.rest cut'.rest

/-- the loops of a reworked method are cut at the same loop end, or have none -/
theorem Reworked.cutLoop? (h : Reworked swap ss ss') (verb : String) :
    (cutLoop? verb ss = none ∧ cutLoop? verb ss' = none) ∨
      ∃ cut cut', cutLoop? verb ss = some cut ∧ cutLoop? verb ss' = some cut' ∧
        cut.Reworked swap cut' := by
  induction h with
  | nil => exact .inl ⟨rfl, rfl⟩
  | @keep ss ss' st rest ih =>
    cases hclose : st.closes verb with
    | false =>
      rw [cutLoop?_cons_of_open hclose, cutLoop?_cons_of_open hclose]
      rcases ih with ⟨hnone, hnone'⟩ | ⟨cut, cut', hcut, hcut', hparts⟩
      · rw [hnone, hnone']
        exact .inl ⟨rfl, rfl⟩
      · rw [hcut, hcut']
        exact .inr ⟨_, _, rfl, rfl, .keep st hparts.body, hparts.until_eq, hparts.rest⟩
    | true =>
      cases st with
      | act a => cases hclose
      | loopStart verb' ingredient => cases hclose
      | loopEnd verbed ingredient? =>
        have hpast : isPastTense verbed verb = true := hclose
        rw [Cookery.cutLoop?, Cookery.cutLoop?, if_pos hpast, if_pos hpast]
        exact .inr ⟨_, _, rfl, rfl, .nil, rfl, rest⟩
  | @replace a as as' ss ss' swapped rest ih =>
    rw [cutLoop?_acts_append, cutLoop?_acts_append]
    rcases ih with ⟨hnone, hnone'⟩ | ⟨cut, cut', hcut, hcut', hparts⟩
    · rw [hnone, hnone']
      exact .inl ⟨rfl, rfl⟩
    · rw [hcut, hcut']
      exact .inr ⟨_, _, rfl, rfl, .replace swapped hparts.body, hparts.until_eq, hparts.rest⟩

end

/-! ## side by side -/

/-- two benches with the same table, and with kitchens and logs that are related -/
structure Bench.Beside (K : Kitchen → Kitchen → Prop) (L : List Event → List Event → Prop)
    (b b' : Bench) : Prop where
  kitchen : K b.kitchen b'.kitchen
  pantry : b.pantry = b'.pantry
  log : L b.log b'.log

/-- logs stay related when an event is noted, kitchens when an action is done, which has the same
result in both; replaced actions and their replacements go together; and one error at benches beside
each other is always in `E` -/
structure Reworking (swap : List Action → List Action → Prop) (K : Kitchen → Kitchen → Prop)
    (L : List Event → List Event → Prop) (E : Error × Bench → Error × Bench → Prop) : Prop where
  note : ∀ e l l', L l l' → L (e :: l) (e :: l')
  effect : ∀ (a : Action) p k k', K k k' →
    (a.effect k p).1 = (a.effect k' p).1 ∧ K (a.effect k p).2 (a.effect k' p).2
  fail : ∀ e b b', Bench.Beside K L b b' → E (e, b) (e, b')
  replaced : ∀ as as', swap as as' →
    Lockstep (Bench.Beside K L) E (performAll as) (performAll as')

namespace Reworking

variable {swap : List Action → List Action → Prop} {K : Kitchen → Kitchen → Prop}
  {L : List Event → List Event → Prop} {E : Error × Bench → Error × Bench → Prop}

theorem emit (h : Reworking swap K L E) (e : Event) :
    Lockstep (Bench.Beside K L) E (Cookery.emit e) (Cookery.emit e) :=
  lockstep_emit fun _ _ hb => ⟨hb.kitchen, hb.pantry, h.note e _ _ hb.log⟩

theorem throw (h : Reworking swap K L E) (e : Error) :
    Lockstep (Bench.Beside K L) E (MonadExcept.throw e : Cooking Unit) (MonadExcept.throw e) :=
  lockstep_throw (h.fail e)

theorem perform (h : Reworking swap K L E) (a : Action) :
    Lockstep (Bench.Beside K L) E a.perform a.perform := by
  intro b b' hb
  obtain ⟨hresult, hkitchen⟩ := h.effect a b'.pantry _ _ hb.kitchen
  rw [run_perform, run_perform, hb.pantry, hresult]
  have hafter : Bench.Beside K L
      { b with kitchen := (a.effect b.kitchen b'.pantry).2, pantry := b'.pantry }
      { b' with kitchen := (a.effect b'.kitchen b'.pantry).2 } := ⟨hkitchen, rfl, hb.log⟩
  cases (a.effect b'.kitchen b'.pantry).1 with
  | error e => exact .error (h.fail e _ _ hafter)
  | ok u => exact .ok hafter

theorem loopValue (h : Reworking swap K L E) (name : String) :
    Lockstep (Bench.Beside K L) E (Cookery.loopValue name) (Cookery.loopValue name) := by
  intro b b' hb
  rw [run_loopValue, run_loopValue, hb.pantry]
  cases loopCheck name b'.pantry with
  | error e => exact .error (h.fail e b b' hb)
  | ok value => exact .ok hb

theorem decrement (h : Reworking swap K L E) (name : String) :
    Lockstep (Bench.Beside K L) E (Cookery.decrement name) (Cookery.decrement name) := by
  intro b b' hb
  rw [run_decrement, run_decrement, hb.pantry]
  cases countDown name b'.pantry with
  | error e => exact .error (h.fail e b b' hb)
  | ok p => exact .ok ⟨hb.kitchen, rfl, hb.log⟩

theorem passes (h : Reworking swap K L E) {body body' : Cooking Unit}
    (hbody : Lockstep (Bench.Beside K L) E body body') (verb ingredient counter : String)
    (made left : Nat) :
    Lockstep (Bench.Beside K L) E (Cookery.passes verb ingredient counter body made left)
      (Cookery.passes verb ingredient counter body' made left) :=
  lockstep_passes hbody (h.loopValue ingredient) (h.decrement counter)
    (fun value n => h.emit (.pass verb ingredient value n))
    (fun n => h.emit (.loopFinished verb ingredient n)) (fun n => h.throw (.loopLimit verb n)) left
    made

end Reworking

section
variable {swap : List Action → List Action → Prop} {K : Kitchen → Kitchen → Prop}
  {L : List Event → List Event → Prop} {E : Error × Bench → Error × Bench → Prop}

/-- a method and a reworked one go together, by induction on the length: what follows a statement
and the parts of a loop are shorter -/
theorem Reworked.follow (h : Reworking swap K L E) (limit : Nat) {ss ss' : List Statement}
    (hss : Reworked swap ss ss') :
    Lockstep (Bench.Beside K L) E (Cookery.follow limit ss) (Cookery.follow limit ss') := by
  induction hn : ss.length using Nat.strongRecOn generalizing ss ss' with
  | ind n ih =>
    subst hn
    cases hss with
    | nil =>
      rw [follow_nil]
      exact lockstep_pure ()
    | @keep ss ss' st rest =>
      cases st with
      | act a =>
        rw [follow_act, follow_act]
        refine (h.emit _).bind fun _ => (h.perform a).bind fun _ => ?_
        exact ih ss.length (Nat.lt_succ_self _) rest rfl
      | loopStart verb ingredient =>
        rcases rest.cutLoop? verb with ⟨hnone, hnone'⟩ | ⟨cut, cut', hcut, hcut', hparts⟩
        · rw [follow_unclosed hnone, follow_unclosed hnone']
          exact (h.emit _).bind fun _ => h.throw _
        · have hlength := length_of_cutLoop? hcut
          rw [follow_loopStart hcut, follow_loopStart hcut', hparts.until_eq]
          refine (h.emit _).bind fun _ => Lockstep.bind ?_ fun _ => ?_
          · refine h.passes (ih cut.body.length ?_ hparts.body rfl) _ _ _ _ _
            rw [List.length_cons]
            omega
          · refine ih cut.rest.length ?_ hparts.rest rfl
            rw [List.length_cons]
            omega
      | loopEnd verbed ingredient? =>
        rw [follow_loopEnd, follow_loopEnd]
        exact (h.emit _).bind fun _ => h.throw _
    | @replace a as as' ss ss' swapped rest =>
      rw [follow_acts_append, follow_acts_append]
      refine (h.replaced _ _ swapped).bind fun _ => ih ss.length ?_ rest rfl
      rw [List.length_append, List.length_map, List.length_cons]
      omega

/-- the same from two kitchens, with one table and nothing in the logs -/
theorem Reworked.runMethod (h : Reworking swap K L E) {ss ss' : List Statement}
    (hss : Reworked swap ss ss') (limit : Nat) {k k' : Kitchen} (hk : K k k') (hlog : L [] [])
    (p : Pantry) :
    Together (Bench.Beside K L) E (Cookery.runMethod limit ss k p)
      (Cookery.runMethod limit ss' k' p) :=
  hss.follow h limit ⟨k, p, []⟩ ⟨k', p, []⟩ ⟨hk, rfl, hlog⟩

end

/-! ## recipes -/

/-- the recipe with another method for its main preparation -/
def Recipe.rework (r : Recipe) (f : List Statement → List Statement) : Recipe :=
  { r with
    preparations := r.preparations.modify mainKey fun p => { p with method := f p.method } }

theorem Recipe.main?_rework (r : Recipe) (f : List Statement → List Statement) :
    (r.rework f).main? = r.main?.map fun p => { p with method := f p.method } := by
  show (r.preparations.modify mainKey _).find? mainKey = _
  rw [Table.find?_modify, if_pos rfl]
  rfl

end Cookery
