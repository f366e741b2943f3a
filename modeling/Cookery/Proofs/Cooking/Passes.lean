import Cookery.Proofs.Cooking.Countdown
import Cookery.Proofs.Cooking.Lockstep
import Cookery.Proofs.Cooking.Structured
import Cookery.Proofs.Tables

/-!
# A loop makes as many passes as its ingredient says

A loop that counts down its own ingredient, around a body that does not, is its body done that many
times.  A pass is described by the scene alone: the body from a kitchen and a table, whatever was
noted before, and then one less of the ingredient.

* `onScene_follow`         a method does the same at two benches with the same scene;
* `passOnce`, `passTimes`  one pass, and some one after the other;
* `Pantry.Holds`, `holds_of_passTimes`   each pass finds one less than the one before it;
* `rounds_of_passTimes`    these passes are the rounds of a loop, up to its limit;
* `runLoop_eq_passTimes`   so they are what a loop does.
-/

namespace Cookery

/-! ## the log plays no part -/

/-- a result with the scene it leaves -/
def onScene (o : Except Error Unit × Bench) : Except Error Unit × Scene := (o.1, o.2.scene)

/-- two benches with the same kitchen and the same table -/
def SameScene (b b' : Bench) : Prop := b.scene = b'.scene

/-- the same error in the same scene -/
def SameFailure (f f' : Error × Bench) : Prop := f.1 = f'.1 ∧ SameScene f.2 f'.2

theorem Statement.map_id (st : Statement) : st.map id id = st := by
  cases st with
  | act a => rfl
  | loopStart verb ingredient => rfl
  | loopEnd verbed ingredient? => exact congrArg _ Option.map_id'

theorem scene_simulation (ss : List Statement) :
    Simulation id id SameScene SameFailure ss where
  note _ _ _ h := h
  perform a _ b b' h := by
    obtain ⟨hk, hp⟩ := Prod.mk.inj h
    show Together _ _ (a.perform.run.run b) (a.perform.run.run b')
    rw [run_perform, run_perform, hk, hp]
    cases a.effect b'.kitchen b'.pantry with
    | mk r k =>
      cases r with
      | ok u => exact .ok rfl
      | error e => exact .error ⟨rfl, rfl⟩
  check name _ b b' h := by
    obtain ⟨-, hp⟩ := Prod.mk.inj h
    show Together _ _ ((loopValue name).run.run b) ((loopValue name).run.run b')
    rw [run_loopValue, run_loopValue, hp]
    cases loopCheck name b'.pantry with
    | ok q => exact .ok h
    | error e => exact .error ⟨rfl, h⟩
  count name _ b b' h := by
    obtain ⟨hk, hp⟩ := Prod.mk.inj h
    show Together _ _ ((decrement name).run.run b) ((decrement name).run.run b')
    rw [run_decrement, run_decrement, hp]
    cases countDown name b'.pantry with
    | ok p => exact .ok (congrArg (·, p) hk)
    | error e => exact .error ⟨rfl, h⟩
  fail _ _ _ _ h := ⟨rfl, h⟩

/-- a method is a copy of itself, so it does the same whatever is in the log -/
theorem onScene_follow (limit : Nat) (ss : List Statement) {b b' : Bench}
    (h : b.scene = b'.scene) :
    onScene ((follow limit ss).run.run b) = onScene ((follow limit ss).run.run b') := by
  have hcopy : ss.map (Statement.map id id) = ss := by
    have hid : Statement.map id id = id := funext Statement.map_id
    rw [hid, List.map_id]
  have htogether := (scene_simulation ss).follow limit ss (List.Subset.refl ss) b b' h
  rw [hcopy] at htogether
  generalize (follow limit ss).run.run b = o at htogether ⊢
  generalize (follow limit ss).run.run b' = o' at htogether ⊢
  cases htogether with
  | ok related => exact Prod.ext rfl related
  | error related => exact Prod.ext (congrArg Except.error related.1) related.2

/-- what a method does to a scene -/
def MethodDoes (limit : Nat) (ss : List Statement) : Effect := fun s r s' =>
  onScene (runMethod limit ss s.1 s.2) = (r, s')

theorem realizes_follow (limit : Nat) (ss : List Statement) :
    Realizes (follow limit ss) (MethodDoes limit ss) := by
  intro b r s
  have hsame : onScene (runMethod limit ss b.kitchen b.pantry) =
      onScene ((follow limit ss).run.run b) := onScene_follow limit ss rfl
  show onScene (runMethod limit ss b.kitchen b.pantry) = (r, s) ↔ _
  rw [hsame]
  exact Prod.ext_iff

/-! ## passes -/

/-- one less of an ingredient -/
def Pantry.lessOne (p : Pantry) (x : String) : Pantry :=
  p.modify x fun i => { i with value := i.value.bind Quantity.pred? }

/-- one pass: the body, and one less of the ingredient if the body ends well -/
def passOnce (limit : Nat) (x : String) (body : List Statement) (s : Scene) :
    Except Error Unit × Scene :=
  match runMethod limit body s.1 s.2 with
  | (.ok _, b) => (.ok (), (b.kitchen, b.pantry.lessOne x))
  | (.error e, b) => (.error e, b.scene)

/-- passes one after the other, up to the first one that fails -/
def passTimes (limit : Nat) (x : String) (body : List Statement) :
    Nat → Scene → Except Error Unit × Scene
  | 0, s => (.ok (), s)
  | n + 1, s =>
    match passOnce limit x body s with
    | (.ok _, s') => passTimes limit x body n s'
    | failed => failed

/-- an amount of an ingredient in the table -/
def Pantry.Holds (p : Pantry) (x : String) (v : Int) : Prop :=
  ∃ q, Pantry.amount? p x = some q ∧ q.val = v

/-- to count an ingredient down is to have one less of it -/
theorem lessOne_of_countDown {p p' : Pantry} {x : String} (h : countDown x p = .ok p') :
    p' = p.lessOne x := by
  obtain ⟨i, q, less, hi, hvalue, hless, rfl⟩ := countDown_eq_ok h
  apply Table.ext_find?
  intro key
  unfold Pantry.lessOne
  rw [Table.find?_modify, Table.find?_modify]
  by_cases hkey : key = x
  · rw [if_pos hkey, if_pos hkey, hkey, hi, Option.map_some, Option.map_some, hvalue,
      Option.bind_some, hless]
  · rw [if_neg hkey, if_neg hkey]

/-- there is one less of something that there is -/
theorem countDown_eq_lessOne {p : Pantry} {x : String} {v : Int} (h : p.Holds x v) (hv : 0 < v) :
    countDown x p = .ok (p.lessOne x) ∧ (p.lessOne x).Holds x (v - 1) := by
  obtain ⟨q, hq, rfl⟩ := h
  obtain ⟨i, hi, hvalue⟩ := Option.bind_eq_some_iff.mp hq
  obtain ⟨less, hless⟩ : ∃ less, q.pred? = some less := by
    have hle := q.most
    exact ⟨⟨q.val - 1, by omega, by omega⟩, Quantity.ofInt?_eq_some_iff.mpr rfl⟩
  have hcount : countDown x p = .ok (p.modify x ({ · with value := some less })) := by
    unfold countDown
    rw [hi]
    dsimp only
    rw [hvalue]
    dsimp only
    rw [hless]
  rw [lessOne_of_countDown hcount] at hcount
  refine ⟨hcount, less, ?_, Quantity.val_of_pred? hless⟩
  unfold Pantry.amount? Pantry.lessOne
  rw [Table.find?_modify, if_pos rfl, hi, Option.map_some, Option.bind_some, hvalue]
  exact hless

section
variable (limit : Nat) {x : String} {body : List Statement}

/-- the body of a loop leaves the ingredient of the loop as it is if no loop inside counts it -/
theorem holds_of_runMethod (hbody : ∀ st ∈ body, x ∉ st.counters) {s : Scene} {v : Int}
    (hv : Pantry.Holds s.2 x v) :
    Pantry.Holds (runMethod limit body s.1 s.2).2.pantry x v := by
  have hnot : x ∉ body.flatMap Statement.counters := by
    intro hmem
    obtain ⟨st, hst, hx⟩ := List.mem_flatMap.mp hmem
    exact hbody st hst hx
  obtain ⟨q, hq, rfl⟩ := hv
  refine ⟨q, ?_, rfl⟩
  have hkept := (follow_countedDown limit body ⟨s.1, s.2, []⟩).others x hnot
  unfold Pantry.amount? at hq ⊢
  rw [← hq]
  exact congrArg (·.bind Ingredient.value) hkept

/-- one pass: either the body fails, or it ends well and the count goes on by one -/
theorem passOnce_cases (hbody : ∀ st ∈ body, x ∉ st.counters) {s : Scene} {v : Int}
    (hv : Pantry.Holds s.2 x v) (hpos : 0 < v) :
    (∃ e s', passOnce limit x body s = (.error e, s') ∧ MethodDoes limit body s (.error e) s') ∨
      ∃ m, MethodDoes limit body s (.ok ()) m ∧ countDown x m.2 = .ok (Pantry.lessOne m.2 x) ∧
        passOnce limit x body s = (.ok (), (m.1, Pantry.lessOne m.2 x)) ∧
        Pantry.Holds (Pantry.lessOne m.2 x) x (v - 1) := by
  have hkept := holds_of_runMethod limit hbody hv
  unfold passOnce MethodDoes
  cases hrun : runMethod limit body s.1 s.2 with
  | mk r b =>
    rw [hrun] at hkept
    cases r with
    | error e => exact .inl ⟨e, b.scene, rfl, rfl⟩
    | ok u =>
      obtain ⟨hcount, hless⟩ := countDown_eq_lessOne hkept hpos
      exact .inr ⟨b.scene, rfl, hcount, rfl, hless⟩

theorem passTimes_succ_of_ok {s s' : Scene} (h : passOnce limit x body s = (.ok (), s')) (n : Nat) :
    passTimes limit x body (n + 1) s = passTimes limit x body n s' := by
  rw [passTimes, h]

theorem passTimes_succ_of_error {s s' : Scene} {e : Error}
    (h : passOnce limit x body s = (.error e, s')) (n : Nat) :
    passTimes limit x body (n + 1) s = (.error e, s') := by
  rw [passTimes, h]

/-- after each pass there is one less, by induction on the passes -/
theorem holds_of_passTimes (hbody : ∀ st ∈ body, x ∉ st.counters) (n : Nat) :
    ∀ {s s' : Scene} {v : Int}, Pantry.Holds s.2 x v → (n : Int) ≤ v →
      passTimes limit x body n s = (.ok (), s') → Pantry.Holds s'.2 x (v - n) := by
  induction n with
  | zero =>
    intro s s' v hv _ h
    obtain ⟨_, rfl⟩ := Prod.mk.inj h
    rw [Int.natCast_zero, Int.sub_zero]
    exact hv
  | succ n ih =>
    intro s s' v hv hn h
    rcases passOnce_cases limit hbody hv (by omega) with
      ⟨e, s₁, honce, -⟩ | ⟨m, -, -, honce, hless⟩
    · rw [passTimes_succ_of_error limit honce] at h
      cases h
    · rw [passTimes_succ_of_ok limit honce] at h
      have hlast := ih hless (by omega) h
      have hsame : v - 1 - n = v - (n + 1 : Nat) := by omega
      rw [← hsame]
      exact hlast

end

/-! ## loops -/

/-- what a loop makes of its passes: it ends well if there is nothing left to count, and goes over
its limit otherwise -/
def afterPasses (limit : Nat) (verb : String) (left : Int) :
    Except Error Unit → Except Error Unit
  | .ok _ => if left = 0 then .ok () else .error (.loopLimit verb limit)
  | .error e => .error e

/-- the rounds of a loop after `made` of them are its passes: as many as there are to count, or as
many as the limit leaves.  By induction on the passes. -/
theorem rounds_of_passTimes {limit : Nat} {x : String} {body : List Statement} (verb : String)
    (hbody : ∀ st ∈ body, x ∉ st.counters) (n : Nat) :
    ∀ {made : Nat} {s s' : Scene} {v : Int} {r : Except Error Unit}, Pantry.Holds s.2 x v →
      (n : Int) ≤ v → made + n ≤ limit → (v = n ∨ made + n = limit) →
      passTimes limit x body n s = (r, s') →
      Rounds limit verb x x (MethodDoes limit body) made s (afterPasses limit verb (v - n) r)
        s' := by
  induction n with
  | zero =>
    intro made s s' v r hv hn hmade hend h
    obtain ⟨rfl, rfl⟩ := Prod.mk.inj h
    obtain ⟨q, hq, rfl⟩ := hv
    have hcheck := loopCheck_eq_ok_iff.mpr hq
    -- nothing is left to count, or no pass is left to make
    unfold afterPasses
    by_cases hzero : q.val = 0
    · rw [if_pos (by omega)]
      exact .stop hcheck hzero
    · rw [if_neg (by omega)]
      exact .usedUp hcheck hzero (by omega)
  | succ n ih =>
    intro made s s' v r hv hn hmade hend h
    have hpos : 0 < v := by omega
    have honce := passOnce_cases limit hbody hv hpos
    obtain ⟨q, hq, rfl⟩ := hv
    have hcheck := loopCheck_eq_ok_iff.mpr hq
    have hnonzero : q.val ≠ 0 := by omega
    rcases honce with ⟨e, s₁, honce, hdoes⟩ | ⟨m, hdoes, hcount, honce, hless⟩
    · rw [passTimes_succ_of_error limit honce] at h
      obtain ⟨rfl, rfl⟩ := Prod.mk.inj h
      exact .broken hcheck hnonzero (by omega) hdoes
    · rw [passTimes_succ_of_ok limit honce] at h
      have hrest := @ih (made + 1) _ _ _ _ hless (by omega) (by omega) (by omega) h
      have hsame : q.val - 1 - n = q.val - (n + 1 : Nat) := by omega
      rw [hsame] at hrest
      exact .again hcheck hnonzero (by omega) hdoes hcount hrest

theorem afterPasses_zero (limit : Nat) (verb : String) (r : Except Error Unit) :
    afterPasses limit verb 0 r = r := by
  cases r with
  | ok u => rfl
  | error e => rfl

/-- a loop does what its rounds are -/
theorem onScene_runLoop {limit : Nat} {verb x : String} {until? : Option String}
    (hcounter : until?.getD x = x) {body : List Statement} {s s' : Scene} {r : Except Error Unit}
    (h : Rounds limit verb x x (MethodDoes limit body) 0 s r s') :
    onScene (runLoop limit verb x until? body s.1 s.2) = (r, s') := by
  have hrealizes : Realizes (passes verb x x (follow limit body) 0 limit)
      (Rounds limit verb x x (MethodDoes limit body) 0) :=
    realizes_passes (realizes_follow limit body) limit 0 (Nat.zero_add limit)
  obtain ⟨hresult, hscene⟩ := (hrealizes ⟨s.1, s.2, []⟩ r s').mp h
  unfold runLoop
  rw [hcounter]
  exact Prod.ext hresult hscene

/-- a loop over `x` that counts `x` down, around a body that does not: each pass finds one less; up
to the limit the loop is as many passes as there is of `x`; beyond it the loop fails after as many
passes as the limit allows; and below zero it never ends well -/
theorem runLoop_eq_passTimes (limit : Nat) (verb : String) {x : String} {until? : Option String}
    (huntil : until? = none ∨ until? = some x) {body : List Statement}
    (hbody : ∀ st ∈ body, x ∉ st.counters) {s : Scene} {v : Int} (hv : Pantry.Holds s.2 x v) :
    (∀ (n : Nat) s', (n : Int) ≤ v → passTimes limit x body n s = (.ok (), s') →
      Pantry.Holds s'.2 x (v - n)) ∧
    (0 ≤ v → v ≤ limit →
      onScene (runLoop limit verb x until? body s.1 s.2) = passTimes limit x body v.toNat s) ∧
    (limit < v →
      (∀ s', passTimes limit x body limit s = (.ok (), s') →
        onScene (runLoop limit verb x until? body s.1 s.2) =
          (.error (.loopLimit verb limit), s')) ∧
      ∀ e s', passTimes limit x body limit s = (.error e, s') →
        onScene (runLoop limit verb x until? body s.1 s.2) = (.error e, s')) ∧
    (v < 0 → ∀ s', onScene (runLoop limit verb x until? body s.1 s.2) ≠ (.ok (), s')) := by
  have hcounter : until?.getD x = x := by
    rcases huntil with rfl | rfl <;> rfl
  have hloop : ∀ (n : Nat) {r : Except Error Unit} {s' : Scene}, (n : Int) ≤ v → n ≤ limit →
      (v = n ∨ n = limit) → passTimes limit x body n s = (r, s') →
        onScene (runLoop limit verb x until? body s.1 s.2) =
          (afterPasses limit verb (v - n) r, s') := by
    intro n r s' hn hfew hend h
    exact onScene_runLoop hcounter
      (rounds_of_passTimes verb hbody n hv hn (by omega) (by omega) h)
  refine ⟨fun n s' hn h => holds_of_passTimes limit hbody n hv hn h, fun hnonneg hle => ?_,
    fun hlt => ⟨fun s' h => ?_, fun e s' h => ?_⟩, fun hneg s' h => ?_⟩
  · have hall := hloop v.toNat (by omega) (by omega) (by omega) rfl
    have hzero : v - v.toNat = 0 := by omega
    rw [hzero, afterPasses_zero] at hall
    exact hall
  · have hmost := hloop limit (by omega) (Nat.le_refl limit) (.inr rfl) h
    have hmore : v - limit ≠ 0 := by omega
    rw [hmost, afterPasses, if_neg hmore]
  · exact hloop limit (by omega) (Nat.le_refl limit) (.inr rfl) h
  · obtain ⟨q, hq, rfl⟩ := hv
    obtain ⟨e, b', hfails⟩ :=
      passes_fails_of_negative limit verb (until?.getD x) body 0 limit (b := ⟨s.1, s.2, []⟩) hq hneg
    unfold runLoop at h
    rw [hfails] at h
    cases h

/-- two rows are kneaded in two passes, four go over a limit of three, and a row owed is never made
up for -/
theorem runLoop_kneaded_rows :
    onScene (runLoop 3 "Knead" "rows" none [.act (.put "rows" 0)] .empty (rowsPantry 2)) =
        passTimes 3 "rows" [.act (.put "rows" 0)] 2 (.empty, rowsPantry 2) ∧
    (∃ s', onScene (runLoop 3 "Knead" "rows" none [.act (.put "rows" 0)] .empty (rowsPantry 4)) =
        (.error (.loopLimit "Knead" 3), s') ∧ Pantry.Holds s'.2 "rows" 1) ∧
    ∀ s', onScene (runLoop 3 "Knead" "rows" none [.act (.put "rows" 0)] .empty (rowsPantry (-1))) ≠
        (.ok (), s') := by
  have hbody : ∀ st ∈ [Statement.act (.put "rows" 0)], "rows" ∉ st.counters := by decide
  have htwo : Pantry.Holds (rowsPantry 2) "rows" 2 := ⟨⟨2, by decide, by decide⟩, by decide, rfl⟩
  have hfour : Pantry.Holds (rowsPantry 4) "rows" 4 := ⟨⟨4, by decide, by decide⟩, by decide, rfl⟩
  have howed : Pantry.Holds (rowsPantry (-1)) "rows" (-1) :=
    ⟨⟨-1, by decide, by decide⟩, by decide, rfl⟩
  obtain ⟨_, hok⟩ := exists_ok_of_isOk (x := (passTimes 3 "rows" [.act (.put "rows" 0)] 3
    (.empty, rowsPantry 4)).1) (by decide +kernel)
  have hthree : passTimes 3 "rows" [.act (.put "rows" 0)] 3 (.empty, rowsPantry 4) =
      (.ok (), (passTimes 3 "rows" [.act (.put "rows" 0)] 3 (.empty, rowsPantry 4)).2) :=
    Prod.ext hok rfl
  have hover := runLoop_eq_passTimes 3 "Knead" (.inl rfl) hbody (s := (.empty, rowsPantry 4)) hfour
  refine ⟨?_, ⟨_, (hover.2.2.1 (by decide)).1 _ hthree, hover.1 3 _ (by decide) hthree⟩, ?_⟩
  · exact (runLoop_eq_passTimes 3 "Knead" (.inl rfl) hbody (s := (.empty, rowsPantry 2)) htwo).2.1
      (by decide) (by decide)
  · exact (runLoop_eq_passTimes 3 "Knead" (.inl rfl) hbody
      (s := (.empty, rowsPantry (-1))) howed).2.2.2 (by decide)

end Cookery
