import Cookery.Proofs.Cooking.Passes
import Mathlib.Logic.Function.Basic

/-!
# What a run that fails has done

A run that fails stops where it is.  What it has done by then are single deeds: an ingredient pushed
into a bowl, a bowl liquefied, poured out or stirred, an ingredient counted down.  Done again from
the start, in their order, these deeds give what is in the containers and in the table when the run
has failed; the step that failed has no part in it.

* `Stock`                the contents of all containers, and the table; a container that is not
                         there counts as an empty one;
* `Deed`, `Deed.apply`, `replay`   the deeds, one of them done, and some of them one after another;
* `Action.deed?`, `Task.deed?`     the deed of an action and of the first step of a task;
* `Performs`             the steps made so far, with their deeds;
* `Task.Step.stock_of_ok`, `Task.Step.stock_of_error`   a step is its deed, and nothing if it fails;
* `Performs.stock_eq`    any number of steps are their deeds;
* `FailsAfter`           steps up to one that fails;
* `runMethod_replay`     a method that fails is the deeds before the step that failed.
-/

namespace Cookery

/-! ## deeds -/

/-- what lies in the bowls and dishes, and the working table -/
@[ext] structure Stock where
  bowls : Nat → Container
  dishes : Nat → Container
  pantry : Pantry

/-- containers that are not there count as empty -/
def Kitchen.stock (k : Kitchen) (p : Pantry) : Stock := ⟨k.bowl, k.dish, p⟩

def Bench.stock (b : Bench) : Stock := b.kitchen.stock b.pantry

inductive Deed where
  /-- an ingredient of the table, or what was made by combining one -/
  | push (bowl : Nat) (ingredient : Ingredient)
  | liquefy (bowl : Nat)
  | pour (bowl dish : Nat)
  | stir (bowl minutes : Nat)
  | countDown (name : String)
deriving DecidableEq

namespace Stock

def changeBowl (s : Stock) (n : Nat) (f : Container → Container) : Stock :=
  { s with bowls := Function.update s.bowls n (f (s.bowls n)) }

def changeDish (s : Stock) (n : Nat) (f : Container → Container) : Stock :=
  { s with dishes := Function.update s.dishes n (f (s.dishes n)) }

end Stock

def Deed.apply (s : Stock) : Deed → Stock
  | .push n i => s.changeBowl n (·.push i)
  | .liquefy n => s.changeBowl n .liquefy
  | .pour bowl dish => s.changeDish dish (s.bowls bowl).pourOnto
  | .stir n minutes => s.changeBowl n (·.stir minutes)
  | .countDown name => { s with pantry := s.pantry.lessOne name }

/-- some deeds one after another -/
def replay (deeds : List Deed) (s : Stock) : Stock := deeds.foldl Deed.apply s

theorem replay_append (ds ds' : List Deed) (s : Stock) :
    replay (ds ++ ds') s = replay ds' (replay ds s) :=
  List.foldl_append

/-! ## kitchens by their stock -/

namespace Kitchen

theorem stock_changeBowl (k : Kitchen) (p : Pantry) (n : Nat) (f : Container → Container) :
    (k.changeBowl n f).stock p = (k.stock p).changeBowl n f := by
  refine Stock.ext (funext fun m => ?_) rfl rfl
  show (k.changeBowl n f).bowl m = Function.update k.bowl n (f (k.bowl n)) m
  rw [bowl_changeBowl, Function.update_apply]

theorem stock_changeDish (k : Kitchen) (p : Pantry) (n : Nat) (f : Container → Container) :
    (k.changeDish n f).stock p = (k.stock p).changeDish n f := by
  refine Stock.ext rfl (funext fun m => ?_) rfl
  show (k.changeDish n f).dish m = Function.update k.dish n (f (k.dish n)) m
  rw [dish_changeDish, Function.update_apply]

/-- a bowl that comes into being is empty, as it was before -/
theorem stock_useBowl (k : Kitchen) (p : Pantry) (n : Nat) :
    (k.useBowl n).stock p = k.stock p :=
  Stock.ext (funext fun m => k.bowl_useBowl n m) rfl rfl

theorem stock_pour (k : Kitchen) (p : Pantry) (bowl dish : Nat) :
    (k.pour bowl dish).stock p = (k.stock p).changeDish dish (k.bowl bowl).pourOnto := by
  unfold pour
  rw [stock_changeDish, stock_useBowl]

end Kitchen

/-! ## the deed of a step -/

/-- the deed of an action, if it is not going to fail -/
def Action.deed? (k : Kitchen) (p : Pantry) : Action → Option Deed
  | .put name n => (p.find? name).map (.push n)
  | .combine name n => do
    let named ← p.find? name
    let factor ← named.value
    let i ← (combined named factor n (k.bowl n)).toOption
    some (.push n i)
  | .liquefy n => some (.liquefy n)
  | .pour bowl dish => some (.pour bowl dish)
  | .stir n minutes => some (.stir n minutes)

/-- the deed of the first step of a task; most steps only decide what is to do next -/
def Task.deed? (b : Bench) : Task → Option Deed
  | .method (.act a :: _) => a.deed? b.kitchen b.pantry
  | .count counter => (countDown counter b.pantry).toOption.map fun _ => .countDown counter
  | _ => none

/-- an action that is done does one deed -/
theorem Action.stock_of_effect_ok {a : Action} {k k' : Kitchen} {p : Pantry}
    (h : a.effect k p = (.ok (), k')) :
    k'.stock p = replay (a.deed? k p).toList (k.stock p) := by
  rcases Action.effect_ok h with ⟨name, n, i, rfl, hi, rfl⟩ |
    ⟨name, n, i, j, factor, rfl, hi, hv, hj, rfl⟩ | ⟨n, rfl, rfl⟩ | ⟨bowl, dish, rfl, rfl⟩ |
    ⟨n, minutes, rfl, rfl⟩
  · have hdeed : (Action.put name n).deed? k p = some (.push n i) := by
      rw [deed?, hi]
      rfl
    rw [hdeed, Kitchen.stock_changeBowl]
    rfl
  · have hdeed : (Action.combine name n).deed? k p = some (.push n j) := by
      rw [deed?, hi]
      dsimp only [Option.bind_eq_bind, Option.bind_some]
      rw [hv]
      dsimp only [Option.bind_some]
      rw [hj]
      rfl
    rw [hdeed, Kitchen.stock_changeBowl, Kitchen.stock_useBowl]
    rfl
  · exact k.stock_changeBowl p n _
  · exact k.stock_pour p bowl dish
  · exact k.stock_changeBowl p n _

/-- an action that fails does nothing, though it may have named a bowl for the first time -/
theorem Action.stock_of_effect_error {a : Action} {k k' : Kitchen} {p : Pantry} {e : Error}
    (h : a.effect k p = (.error e, k')) : k'.stock p = k.stock p := by
  obtain ⟨_, _, ⟨_, rfl, _⟩ | ⟨n, _, _, _, ⟨_, rfl, _⟩ | ⟨_, _, _, _, rfl, _⟩⟩⟩ :=
    Action.effect_error h
  · rfl
  · rfl
  · exact k.stock_useBowl p n

namespace Task.Step

variable {limit : Nat} {t : Task} {b b' : Bench}

/-- a step that goes well is its deed -/
theorem stock_of_ok {us : List Task} (h : t.Step limit b (.ok us) b') :
    b'.stock = replay (t.deed? b).toList b.stock := by
  cases h with
  | act effect => exact Action.stock_of_effect_ok effect
  | @counted counter _ p count =>
    have hdeed : (Task.count counter).deed? b = some (.countDown counter) := by
      rw [deed?, count]
      rfl
    obtain rfl := lessOne_of_countDown count
    rw [hdeed]
    rfl
  | done => rfl
  | entered found => rfl
  | finished check zero => rfl
  | pass check nonzero => rfl

/-- a step that fails changes nothing: a put or a combine, the search for the end of a loop, the
check of a loop and of its limit, a stray loop end, or a count -/
theorem stock_of_error {e : Error} (h : t.Step limit b (.error e) b') : b'.stock = b.stock := by
  cases h with
  | failed effect => exact Action.stock_of_effect_error effect
  | unclosed found => rfl
  | stray => rfl
  | unchecked check => rfl
  | usedUp check nonzero => rfl
  | uncounted count => rfl

end Task.Step

/-! ## runs -/

/-- from a task at a bench on: the deeds of the steps made so far, none of which has failed, the
tasks that are left, and the bench -/
inductive Performs (limit : Nat) (t : Task) (b : Bench) : List Deed → List Task → Bench → Prop where
  | start : Performs limit t b [] [t] b
  | step {ds : List Deed} {u : Task} {us ts : List Task} {m m' : Bench}
    (before : Performs limit t b ds (u :: ts) m) (next : u.Step limit m (.ok us) m') :
    Performs limit t b (ds ++ (u.deed? m).toList) (us ++ ts) m'

/-- the steps made so far are their deeds, by induction on the steps -/
theorem Performs.stock_eq {limit : Nat} {t : Task} {b m : Bench} {ds : List Deed} {ts : List Task}
    (h : Performs limit t b ds ts m) : m.stock = replay ds b.stock := by
  induction h with
  | start => rfl
  | step before next ih => rw [replay_append, ← ih, next.stock_of_ok]

/-- every stage of a run comes after such steps; if the run has failed, after one more step -/
theorem performs_of_reaches {limit : Nat} {t : Task} {b : Bench} {s : Stage}
    (h : Reaches limit (.start t b) s) :
    (∀ ts, s.todo = .ok ts → ∃ ds, Performs limit t b ds ts s.bench) ∧
      ∀ e, s.todo = .error e → ∃ ds u us m,
        Performs limit t b ds (u :: us) m ∧ u.Step limit m (.error e) s.bench := by
  induction h with
  | refl =>
    refine ⟨fun ts hts => ⟨[], ?_⟩, nofun⟩
    obtain rfl := Except.ok.inj hts
    exact .start
  | tail _ next ih =>
    cases next with
    | @goes_on u ts us m m' done step =>
      obtain ⟨ds, hds⟩ := ih.1 _ rfl
      refine ⟨fun vs hvs => ?_, nofun⟩
      obtain rfl := Except.ok.inj hvs
      exact ⟨_, hds.step step⟩
    | @stops u ts m m' done e step =>
      obtain ⟨ds, hds⟩ := ih.1 _ rfl
      refine ⟨nofun, fun e' he => ?_⟩
      obtain rfl := Except.error.inj he
      exact ⟨ds, u, ts, m, hds, step⟩

/-- the stage of a run after such steps -/
theorem Performs.reaches {limit : Nat} {t : Task} {b m : Bench} {ds : List Deed} {ts : List Task}
    (h : Performs limit t b ds ts m) : ∃ done, Reaches limit (.start t b) ⟨.ok ts, m, done⟩ := by
  induction h with
  | start => exact ⟨[], .refl⟩
  | step before next ih =>
    obtain ⟨done, hreaches⟩ := ih
    exact ⟨_, hreaches.tail (.goes_on next)⟩

/-- some steps with their deeds, up to a bench at which the next step fails: the error, and the
bench that it leaves -/
def FailsAfter (limit : Nat) (t : Task) (b : Bench) (ds : List Deed) (m : Bench) (e : Error)
    (b' : Bench) : Prop :=
  ∃ u us, Performs limit t b ds (u :: us) m ∧ u.Step limit m (.error e) b'

/-- the error and the bench are those of the whole task -/
theorem FailsAfter.run_program {limit : Nat} {t : Task} {b m b' : Bench} {ds : List Deed}
    {e : Error} (h : FailsAfter limit t b ds m e b') :
    (t.program limit).run.run b = (.error e, b') := by
  obtain ⟨u, us, hds, hfails⟩ := h
  obtain ⟨done, hreaches⟩ := hds.reaches
  have hend : EndsAt limit (.start t b) ⟨.error e, b', done⟩ :=
    ⟨hreaches.tail (.stops hfails), nofun⟩
  exact hend.run_program

theorem FailsAfter.stock_eq {limit : Nat} {t : Task} {b m b' : Bench} {ds : List Deed} {e : Error}
    (h : FailsAfter limit t b ds m e b') :
    b'.stock = m.stock ∧ m.stock = replay ds b.stock := by
  obtain ⟨u, us, hds, hfails⟩ := h
  exact ⟨hfails.stock_of_error, hds.stock_eq⟩

/-- a task that fails does so after some steps -/
theorem exists_failsAfter {limit : Nat} {t : Task} {b b' : Bench} {e : Error}
    (h : (t.program limit).run.run b = (.error e, b')) :
    ∃ ds m, FailsAfter limit t b ds m e b' := by
  obtain ⟨s, hend⟩ := exists_endsAt limit t b
  rw [hend.run_program] at h
  obtain ⟨hresult, rfl⟩ := Prod.mk.inj h
  cases htodo : s.todo with
  | ok ts =>
    rw [htodo] at hresult
    cases hresult
  | error e' =>
    rw [htodo] at hresult
    cases hresult
    obtain ⟨ds, u, us, m, hds, hfails⟩ := (performs_of_reaches hend.1).2 e htodo
    exact ⟨ds, m, u, us, hds, hfails⟩

/-- a method that fails has made steps that went well, and then one that failed; and whichever steps
these are, what is in the containers and in the table when it has failed is what the deeds of the
steps that went well make of the start, done again in their order, and the step that failed has
changed nothing -/
theorem runMethod_replay {limit : Nat} {method : List Statement} {kitchen : Kitchen}
    {pantry : Pantry} {e : Error} {b : Bench}
    (h : runMethod limit method kitchen pantry = (.error e, b)) :
    (∃ deeds m, FailsAfter limit (.method method) ⟨kitchen, pantry, []⟩ deeds m e b) ∧
    ∀ deeds m e' b',
      FailsAfter limit (.method method) ⟨kitchen, pantry, []⟩ deeds m e' b' →
        e' = e ∧ b' = b ∧ m.stock = replay deeds (kitchen.stock pantry) ∧ b.stock = m.stock := by
  refine ⟨exists_failsAfter h, fun deeds m e' b' hfails => ?_⟩
  have hrun := hfails.run_program.symm.trans h
  obtain ⟨hresult, rfl⟩ := Prod.mk.inj hrun
  obtain ⟨hlast, hbefore⟩ := hfails.stock_eq
  exact ⟨Except.error.inj hresult, rfl, hbefore, hlast⟩

/-- rows are put into the first bowl and combined into the eighth, where there is nothing: the
eighth bowl comes into being, and yet the deeds that went well make the stock that is left -/
theorem runMethod_replay_rows :
    ∃ e b, runMethod 3 [.loopStart "Knead" "rows", .act (.put "rows" 0), .act (.combine "rows" 7),
        .loopEnd "kneaded" none] .empty (rowsPantry 2) = (.error e, b) ∧
      b.kitchen.bowls.contains 7 = true ∧
      ∃ deeds, b.stock = replay deeds (Kitchen.empty.stock (rowsPantry 2)) := by
  obtain ⟨e, he⟩ := exists_error_of_isOk (x := (runMethod 3 [.loopStart "Knead" "rows",
    .act (.put "rows" 0), .act (.combine "rows" 7), .loopEnd "kneaded" none] .empty
    (rowsPantry 2)).1) (by decide +kernel)
  have hrun : runMethod 3 [.loopStart "Knead" "rows", .act (.put "rows" 0),
      .act (.combine "rows" 7), .loopEnd "kneaded" none] .empty (rowsPantry 2) = (.error e, _) :=
    Prod.ext he rfl
  obtain ⟨⟨deeds, m, hfails⟩, hall⟩ := runMethod_replay hrun
  obtain ⟨-, -, hbefore, hlast⟩ := hall deeds m e _ hfails
  exact ⟨e, _, hrun, by decide +kernel, deeds, hlast.trans hbefore⟩

end Cookery
