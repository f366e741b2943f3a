import Cookery.Proofs.Cooking.Stages
import Cookery.Proofs.Lists

/-!
# The working table only counts down

Whatever a method does, and wherever it stops, the working table keeps its keys, names and kinds,
and no amount in it grows.  So a loop that ends well started from an amount that was not negative,
and a loop whose ingredient is below zero never ends well.

* `Ingredient.Lowered`, `Pantry.CountedDown`   what counting down leaves as it is;
* `Task.countedDown`     a task only counts down, `follow_countedDown` a method;
* `Laps`, `laps_of_passes`   the passes that a loop has made when it ends well;
* `LoopDone`             how such a loop starts and ends;
* `fails_of_negative_check`   below zero there is no good end;
* `runMethod_countedDown`    all of it, for methods and loops.
-/

namespace Cookery

/-! ## values that may be missing -/

section
variable {α : Type} {R : α → α → Prop} {x y z : Option α}

theorem optionRel_refl (hR : ∀ a, R a a) (x : Option α) : Option.Rel R x x := by
  cases x with
  | none => exact .none
  | some a => exact .some (hR a)

theorem optionRel_trans (hR : ∀ a b c, R a b → R b c → R a c) (h : Option.Rel R x y)
    (h' : Option.Rel R y z) : Option.Rel R x z := by
  cases h with
  | none => exact h'
  | some hab =>
    cases h' with
    | some hbc => exact .some (hR _ _ _ hab hbc)

end

/-! ## counting down -/

/-- the same ingredient with no larger amount; there is one afterwards iff there was one before -/
structure Ingredient.Lowered (i i' : Ingredient) : Prop where
  name : i'.name = i.name
  kind : i'.kind = i.kind
  value : Option.Rel (fun q q' : Quantity => q'.val ≤ q.val) i.value i'.value

theorem Ingredient.Lowered.refl (i : Ingredient) : i.Lowered i :=
  ⟨rfl, rfl, optionRel_refl (fun q => Int.le_refl q.val) i.value⟩

theorem Ingredient.Lowered.trans {i j k : Ingredient} (h : i.Lowered j) (h' : j.Lowered k) :
    i.Lowered k := by
  refine ⟨h'.name.trans h.name, h'.kind.trans h.kind, optionRel_trans ?_ h.value h'.value⟩
  intro q q' q'' hle hle'
  exact Int.le_trans hle' hle

/-- the table after some of `names` were counted down -/
structure Pantry.CountedDown (names : List String) (p p' : Pantry) : Prop where
  keys : p'.keys = p.keys
  entries : ∀ key, Option.Rel Ingredient.Lowered (p.find? key) (p'.find? key)
  others : ∀ key, key ∉ names → p'.find? key = p.find? key

theorem Pantry.CountedDown.refl (names : List String) (p : Pantry) :
    Pantry.CountedDown names p p :=
  ⟨rfl, fun key => optionRel_refl Ingredient.Lowered.refl (p.find? key), fun _ _ => rfl⟩

theorem Pantry.CountedDown.trans {names : List String} {p p' p'' : Pantry}
    (h : Pantry.CountedDown names p p') (h' : Pantry.CountedDown names p' p'') :
    Pantry.CountedDown names p p'' := by
  refine ⟨h'.keys.trans h.keys, fun key => ?_, fun key hkey => ?_⟩
  · exact optionRel_trans (fun _ _ _ => Ingredient.Lowered.trans) (h.entries key) (h'.entries key)
  · rw [h'.others key hkey, h.others key hkey]

/-- what is in the table now was in it before -/
theorem Pantry.CountedDown.exists_find? {names : List String} {p p' : Pantry}
    (h : Pantry.CountedDown names p p') {key : String} {i' : Ingredient}
    (hi : p'.find? key = some i') : ∃ i, p.find? key = some i ∧ i.Lowered i' := by
  have hentry := h.entries key
  rw [hi] at hentry
  generalize p.find? key = v at hentry ⊢
  cases hentry with
  | some hlow => exact ⟨_, rfl, hlow⟩

theorem Quantity.val_of_pred? {q less : Quantity} (h : q.pred? = some less) :
    less.val = q.val - 1 :=
  Quantity.ofInt?_eq_some_iff.mp h

theorem countedDown_of_countDown {counter : String} {names : List String} {p p' : Pantry}
    (h : countDown counter p = .ok p') (hcounter : counter ∈ names) :
    Pantry.CountedDown names p p' := by
  obtain ⟨i, q, less, hi, hv, hless, rfl⟩ := countDown_eq_ok h
  refine ⟨Table.keys_modify _ _ _, fun key => ?_, fun key hkey => ?_⟩
  · rw [Table.find?_modify]
    by_cases hk : key = counter
    · have hle : less.val ≤ q.val := by
        have := Quantity.val_of_pred? hless
        omega
      rw [if_pos hk, hk, hi]
      refine .some ⟨rfl, rfl, ?_⟩
      rw [hv]
      exact .some hle
    · rw [if_neg hk]
      exact optionRel_refl Ingredient.Lowered.refl _
  · have hk : key ≠ counter := fun he => hkey (he ▸ hcounter)
    rw [Table.find?_modify, if_neg hk]

/-! ## tasks count down -/

theorem Task.Step.countedDown {limit : Nat} {ss : List Statement} {names : List String} {t : Task}
    {b b' : Bench} {r : Except Error (List Task)} (h : t.Step limit b r b')
    (ht : t.Within ss names) : Pantry.CountedDown names b.pantry b'.pantry := by
  cases h with
  | counted count => exact countedDown_of_countDown count ht
  | _ => exact .refl _ _

theorem countedDown_keptBySteps (limit : Nat) {ss : List Statement} {names : List String}
    (hnames : ∀ st ∈ ss, st.counters ⊆ names) (p : Pantry) :
    KeptBySteps limit (Task.Within ss names) (fun b _ => Pantry.CountedDown names p b.pantry)
      (fun _ => True) where
  goes_on ht hb step := ⟨step.within hnames ht, hb.trans (step.countedDown ht)⟩
  stops ht hb step := ⟨trivial, hb.trans (step.countedDown ht)⟩

/-- a task only counts down, whether it ends well or not -/
theorem Task.countedDown {limit : Nat} {ss : List Statement} {names : List String}
    (hnames : ∀ st ∈ ss, st.counters ⊆ names) {t : Task} (ht : t.Within ss names) (b : Bench) :
    Pantry.CountedDown names b.pantry ((t.program limit).run.run b).2.pantry := by
  obtain ⟨s, hend⟩ := exists_endsAt limit t b
  have hkept := countedDown_keptBySteps limit hnames b.pantry
  have hholds := hend.1.holds hkept (Stage.holds_start ht (.refl _ _))
  rw [hend.run_program]
  exact hholds.bench

theorem follow_countedDown (limit : Nat) (ss : List Statement) (b : Bench) :
    Pantry.CountedDown (ss.flatMap Statement.counters) b.pantry
      ((follow limit ss).run.run b).2.pantry :=
  Task.countedDown counters_subset (t := .method ss) (List.Subset.refl ss) b

/-! ## amounts -/

/-- how much of an ingredient is in the table -/
def Pantry.amount? (p : Pantry) (name : String) : Option Quantity :=
  (p.find? name).bind Ingredient.value

theorem loopCheck_eq_ok_iff {ingredient : String} {p : Pantry} {q : Quantity} :
    loopCheck ingredient p = .ok q ↔ Pantry.amount? p ingredient = some q := by
  unfold loopCheck Pantry.amount?
  cases p.find? ingredient with
  | none => exact ⟨nofun, nofun⟩
  | some i =>
    dsimp only [Option.bind_some]
    cases i.value with
    | none => exact ⟨nofun, nofun⟩
    | some v => rw [Except.ok.injEq, Option.some.injEq]

theorem Pantry.CountedDown.amount_le {names : List String} {p p' : Pantry}
    (h : Pantry.CountedDown names p p') {name : String} {q : Quantity}
    (hq : Pantry.amount? p' name = some q) :
    ∃ q₀, Pantry.amount? p name = some q₀ ∧ q.val ≤ q₀.val := by
  unfold Pantry.amount? at hq ⊢
  obtain ⟨i', hi', hq'⟩ := Option.bind_eq_some_iff.mp hq
  obtain ⟨i, hi, hlow⟩ := h.exists_find? hi'
  have hvalue := hlow.value
  rw [hq'] at hvalue
  rw [hi]
  show ∃ q₀, i.value = some q₀ ∧ q.val ≤ q₀.val
  generalize i.value = x at hvalue ⊢
  cases hvalue with
  | some hle => exact ⟨_, rfl, hle⟩

/-- what is counted down was one more before -/
theorem amount_of_countDown {counter : String} {p p' : Pantry} (h : countDown counter p = .ok p')
    {q : Quantity} (hq : Pantry.amount? p' counter = some q) :
    ∃ q₀, Pantry.amount? p counter = some q₀ ∧ q.val = q₀.val - 1 := by
  obtain ⟨i, q₀, less, hi, hv, hless, rfl⟩ := countDown_eq_ok h
  unfold Pantry.amount? at hq ⊢
  rw [Table.find?_modify, if_pos rfl, hi] at hq
  obtain rfl : less = q := Option.some.inj hq
  rw [hi]
  exact ⟨q₀, hv, Quantity.val_of_pred? hless⟩

/-! ## passes of a loop -/

/-- `n` passes of a loop after `made` of them: each finds an amount that is not zero, notes itself,
does the body and counts down -/
inductive Laps (verb ingredient counter : String) (body : Cooking Unit) :
    (made n : Nat) → Bench → Bench → Prop where
  | none {made : Nat} {b : Bench} : Laps verb ingredient counter body made 0 b b
  | more {made n : Nat} {b b₁ b' : Bench} {value : Quantity} {p : Pantry}
    (check : Pantry.amount? b.pantry ingredient = some value) (nonzero : value.val ≠ 0)
    (once : body.run.run (b.note (.pass verb ingredient value (made + 1))) = (.ok (), b₁))
    (count : countDown counter b₁.pantry = .ok p)
    (rest : Laps verb ingredient counter body (made + 1) n { b₁ with pantry := p } b') :
    Laps verb ingredient counter body made (n + 1) b b'

/-- one step of a loop that ends well -/
theorem passes_eq_ok {limit : Nat} {verb ingredient counter : String} {body : List Statement}
    {made left : Nat} {b b' : Bench}
    (h : (passes verb ingredient counter (follow limit body) made left).run.run b = (.ok (), b')) :
    ∃ value, Pantry.amount? b.pantry ingredient = some value ∧
      ((value.val = 0 ∧ b' = b.note (.loopFinished verb ingredient made)) ∨
        (value.val ≠ 0 ∧ ∃ more b₁ p, left = more + 1 ∧
          (follow limit body).run.run (b.note (.pass verb ingredient value (made + 1))) =
            (.ok (), b₁) ∧
          countDown counter b₁.pantry = .ok p ∧
          (passes verb ingredient counter (follow limit body) (made + 1) more).run.run
            { b₁ with pantry := p } = (.ok (), b'))) := by
  obtain ⟨r, b₁, step⟩ := (Task.loop verb ingredient counter body made left).exists_step limit b
  have hrun : ending limit r b₁ = (.ok (), b') := step.run_program.symm.trans h
  cases step with
  | unchecked check => cases hrun
  | usedUp check nonzero => cases hrun
  | finished check zero =>
    rw [ending_nil] at hrun
    exact ⟨_, loopCheck_eq_ok_iff.mp check, .inl ⟨zero, (Prod.mk.inj hrun).2.symm⟩⟩
  | @pass _ _ _ _ _ more _ value check nonzero =>
    rw [ending_ok, programs_cons, programs_cons, programs_singleton] at hrun
    obtain ⟨_, b₂, once, hrun⟩ := run_bind_eq_ok hrun
    obtain ⟨_, b₃, hcount, hrun⟩ := run_bind_eq_ok hrun
    have hdown : (decrement counter).run.run b₂ = (.ok (), b₃) := hcount
    rw [run_decrement] at hdown
    split at hdown
    · cases hdown
    · rename_i p count
      obtain ⟨_, rfl⟩ := Prod.mk.inj hdown
      refine ⟨value, loopCheck_eq_ok_iff.mp check, .inr ?_⟩
      exact ⟨nonzero, more, b₂, p, rfl, once, count, hrun⟩

/-- a loop that ends well has made some passes, and then its ingredient is zero; by induction on the
passes that were left -/
theorem laps_of_passes {limit : Nat} {verb ingredient counter : String} {body : List Statement}
    {made left : Nat} {b b' : Bench}
    (h : (passes verb ingredient counter (follow limit body) made left).run.run b = (.ok (), b')) :
    ∃ n b₁, Laps verb ingredient counter (follow limit body) made n b b₁ ∧
      (∃ last, Pantry.amount? b₁.pantry ingredient = some last ∧ last.val = 0) ∧
      b' = b₁.note (.loopFinished verb ingredient (made + n)) := by
  induction left using Nat.strongRecOn generalizing made b with
  | ind left ih =>
    obtain ⟨value, check, ⟨zero, rfl⟩ | ⟨nonzero, more, b₁, p, rfl, once, count, hrest⟩⟩ :=
      passes_eq_ok h
    · exact ⟨0, b, .none, ⟨value, check, zero⟩, rfl⟩
    · obtain ⟨n, b₂, hlaps, hlast, rfl⟩ := ih more (Nat.lt_succ_self more) hrest
      refine ⟨n + 1, b₂, .more check nonzero once count hlaps, hlast, ?_⟩
      rw [Nat.add_assoc, Nat.add_comm 1 n]

/-- passes take away from the ingredient of a loop, and at least one each if it is the counter -/
theorem Laps.amount_le {limit : Nat} {verb ingredient counter : String} {body : List Statement}
    {made n : Nat} {b b' : Bench} (h : Laps verb ingredient counter (follow limit body) made n b b')
    {last : Quantity} (hlast : Pantry.amount? b'.pantry ingredient = some last) :
    ∃ start, Pantry.amount? b.pantry ingredient = some start ∧ last.val ≤ start.val ∧
      (counter = ingredient → last.val + n ≤ start.val) := by
  induction h with
  | none => exact ⟨last, hlast, Int.le_refl _, fun _ => by omega⟩
  | @more made n b b₁ b' value p check nonzero once count rest ih =>
    obtain ⟨q, hq, hle, hown⟩ := ih hlast
    have hdown : Pantry.CountedDown [counter] b₁.pantry p :=
      countedDown_of_countDown count List.mem_cons_self
    obtain ⟨q₁, hq₁, hle₁⟩ := hdown.amount_le hq
    have hbody := follow_countedDown limit body (b.note (.pass verb ingredient value (made + 1)))
    rw [once] at hbody
    obtain ⟨q₀, hq₀, hle₀⟩ := hbody.amount_le hq₁
    refine ⟨q₀, hq₀, by omega, fun he => ?_⟩
    have hcounted : q.val = q₁.val - 1 := by
      subst he
      obtain ⟨q₂, hq₂, hval⟩ := amount_of_countDown count hq
      rw [hq₁] at hq₂
      cases hq₂
      exact hval
    have hlate := hown he
    push_cast
    omega

/-! ## loops that end well, and loops below zero -/

/-- a loop from a bench to its good end: the amount `q` of its ingredient is not negative at the
start and zero at the end, and if the loop counts it down, the passes were at most `q` -/
structure LoopDone (limit : Nat) (verb ingredient counter : String) (body : List Statement)
    (b b' : Bench) (q : Quantity) (n : Nat) : Prop where
  start : Pantry.amount? b.pantry ingredient = some q
  nonneg : 0 ≤ q.val
  last : ∃ zero, Pantry.amount? b'.pantry ingredient = some zero ∧ zero.val = 0
  laps : ∃ b₁, Laps verb ingredient counter (follow limit body) 0 n b b₁ ∧
    b' = b₁.note (.loopFinished verb ingredient n)
  few : counter = ingredient → (n : Int) ≤ q.val

theorem loopDone_of_passes {limit : Nat} {verb ingredient counter : String} {body : List Statement}
    {left : Nat} {b b' : Bench}
    (h : (passes verb ingredient counter (follow limit body) 0 left).run.run b = (.ok (), b')) :
    ∃ q n, LoopDone limit verb ingredient counter body b b' q n := by
  obtain ⟨n, b₁, hlaps, ⟨last, hlast, hzero⟩, rfl⟩ := laps_of_passes h
  obtain ⟨q, hq, hle, hown⟩ := hlaps.amount_le hlast
  refine ⟨q, n, hq, by omega, ⟨last, hlast, hzero⟩, ⟨b₁, hlaps, by rw [Nat.zero_add]⟩, fun he => ?_⟩
  have hn := hown he
  omega

/-- the next thing to do is the check of a loop, and its ingredient is below zero -/
def Stage.AtNegativeCheck (s : Stage) : Prop :=
  ∃ verb ingredient counter body made left ts q,
    s.todo = .ok (.loop verb ingredient counter body made left :: ts) ∧
    Pantry.amount? s.bench.pantry ingredient = some q ∧ q.val < 0

theorem passes_fails_of_negative (limit : Nat) (verb counter : String) (body : List Statement)
    (made left : Nat) {ingredient : String} {b : Bench} {q : Quantity}
    (hq : Pantry.amount? b.pantry ingredient = some q) (hneg : q.val < 0) :
    ∃ e b', (passes verb ingredient counter (follow limit body) made left).run.run b =
      (.error e, b') := by
  cases hrun : (passes verb ingredient counter (follow limit body) made left).run.run b with
  | mk r b' =>
    cases r with
    | error e => exact ⟨e, b', rfl⟩
    | ok u =>
      -- the amount would have to come back up to zero
      obtain ⟨n, b₁, hlaps, ⟨last, hlast, hzero⟩, _⟩ := laps_of_passes hrun
      obtain ⟨q₀, hq₀, hle, _⟩ := hlaps.amount_le hlast
      rw [hq] at hq₀
      cases hq₀
      omega

/-- a run in which a loop is checked below zero ends in an error -/
theorem fails_of_negative_check {limit : Nat} {t : Task} {b : Bench} {s : Stage}
    (h : Reaches limit (.start t b) s) (hs : s.AtNegativeCheck) :
    ∃ e, ((t.program limit).run.run b).1 = .error e := by
  obtain ⟨verb, ingredient, counter, body, made, left, ts, q, htodo, hq, hneg⟩ := hs
  obtain ⟨e, b', hfails⟩ := passes_fails_of_negative limit verb counter body made left hq hneg
  have hloop : (Task.program limit (.loop verb ingredient counter body made left)).run.run s.bench =
      (.error e, b') := hfails
  refine ⟨e, ?_⟩
  rw [← Stage.outcome_start, ← outcome_of_reaches h]
  unfold Stage.outcome
  rw [htodo, ending_ok, programs_cons, run_bind_error hloop]

/-! ## methods and loops -/

/-- carry out a loop with all its passes still to make -/
def runLoop (limit : Nat) (verb ingredient : String) (until? : Option String)
    (body : List Statement) (kitchen : Kitchen) (pantry : Pantry) : Except Error Unit × Bench :=
  (passes verb ingredient (until?.getD ingredient) (follow limit body) 0 limit).run.run
    ⟨kitchen, pantry, []⟩

/-- a method only counts its table down, whatever comes of it; so a loop around it ends well only
from an amount that is not negative, and not once an amount is checked below zero -/
theorem runMethod_countedDown (limit : Nat) (method : List Statement) (kitchen : Kitchen)
    (pantry : Pantry) :
    Pantry.CountedDown (method.flatMap Statement.counters) pantry
      (runMethod limit method kitchen pantry).2.pantry ∧
    ∀ (verb ingredient : String) (until? : Option String),
      (∀ b, runLoop limit verb ingredient until? method kitchen pantry = (.ok (), b) →
        ∃ q n, LoopDone limit verb ingredient (until?.getD ingredient) method
          ⟨kitchen, pantry, []⟩ b q n) ∧
      ∀ s, Reaches limit
          (.start (.loop verb ingredient (until?.getD ingredient) method 0 limit)
            ⟨kitchen, pantry, []⟩) s →
        s.AtNegativeCheck →
          ∃ e, (runLoop limit verb ingredient until? method kitchen pantry).1 = .error e := by
  refine ⟨follow_countedDown limit method ⟨kitchen, pantry, []⟩, fun verb ingredient until? => ?_⟩
  refine ⟨fun b h => loopDone_of_passes h, fun s hreaches hs => ?_⟩
  exact fails_of_negative_check hreaches hs

def rowsPantry (n : Int) : Pantry := Table.ofList [("rows", ⟨"rows", Quantity.ofInt? n, .dry⟩)]

/-- two rows are kneaded in two passes; a row owed is never made up for -/
theorem runLoop_rowsPantry :
    (∃ b q n, runLoop 5 "Knead" "rows" none [.act (.put "rows" 0)] .empty (rowsPantry 2) =
        (.ok (), b) ∧
      LoopDone 5 "Knead" "rows" "rows" [.act (.put "rows" 0)] ⟨.empty, rowsPantry 2, []⟩ b q n) ∧
    ∃ e, (runLoop 5 "Knead" "rows" none [.act (.put "rows" 0)] .empty (rowsPantry (-1))).1 =
      .error e := by
  obtain ⟨_, hok⟩ := exists_ok_of_isOk (x := (runLoop 5 "Knead" "rows" none
    [.act (.put "rows" 0)] .empty (rowsPantry 2)).1) (by decide +kernel)
  have htwo := runMethod_countedDown 5 [.act (.put "rows" 0)] .empty (rowsPantry 2)
  have hrun : runLoop 5 "Knead" "rows" none [.act (.put "rows" 0)] .empty (rowsPantry 2) =
      (.ok (), (runLoop 5 "Knead" "rows" none [.act (.put "rows" 0)] .empty (rowsPantry 2)).2) :=
    Prod.ext hok rfl
  obtain ⟨q, n, hdone⟩ := (htwo.2 "Knead" "rows" none).1 _ hrun
  have hless := runMethod_countedDown 5 [.act (.put "rows" 0)] .empty (rowsPantry (-1))
  refine ⟨⟨_, q, n, hrun, hdone⟩, (hless.2 "Knead" "rows" none).2 _ .refl ?_⟩
  exact ⟨"Knead", "rows", "rows", _, 0, 5, [], ⟨-1, by decide, by decide⟩, rfl, by decide,
    by decide⟩

end Cookery
