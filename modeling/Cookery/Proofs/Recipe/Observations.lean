import Cookery.Proofs.Cooking.Reworking
import Cookery.Proofs.Kitchen.Similarity

/-!
# Whether an empty container is there cannot be observed

Containers come into being when they are named, also by a step that fails.  So two runs soon differ
in which containers are there.  None of what can be asked of a kitchen tells an empty container from
one that is not there.

* `Kitchen.Similar`          the same contents, where a container that is not there counts as empty;
* `Preparation.run_alike`    a preparation has the same result and the same events in both;
* `Request`, `Kitchen.answer`   what can be asked of a kitchen: to run a preparation, to serve, to
                             push, pop, liquefy, stir, look or pour;
* `Similar.answer`, `Similar.answerAll`   one request, and any number of them one after another;
* `similar_kitchens_answer`  similar kitchens give the same answers and stay similar.
-/

namespace Cookery

/-! ## preparations -/

/-- benches with kitchens that are alike, and with the same table and the same log -/
def Bench.Alike (seen : Nat → Prop) : Bench → Bench → Prop := Bench.Beside (·.Alike seen ·) (· = ·)

/-- the same error, at benches that are alike -/
def FailAlike (seen : Nat → Prop) (f f' : Error × Bench) : Prop := f.1 = f'.1 ∧ f.2.Alike seen f'.2

/-- here no action is replaced -/
theorem alike_reworking (seen : Nat → Prop) :
    Reworking (fun _ _ => False) (·.Alike seen ·) (· = ·) (FailAlike seen) where
  note e _ _ h := congrArg (e :: ·) h
  effect a p _ _ h := h.effect a p
  fail _ _ _ h := ⟨rfl, h⟩
  replaced _ _ h := h.elim

section
variable {seen : Nat → Prop} {k k' : Kitchen}

theorem Preparation.run_alike (p : Preparation) (limit : Nat) (h : k.Alike seen k') :
    (p.run limit k).result = (p.run limit k').result ∧
      (p.run limit k).events = (p.run limit k').events ∧
      (p.run limit k).kitchen.Alike seen (p.run limit k').kitchen := by
  have htogether : Together (Bench.Alike seen) (FailAlike seen)
      (runMethod limit p.method k p.ingredients) (runMethod limit p.method k' p.ingredients) :=
    (Reworked.refl _ p.method).runMethod (alike_reworking seen) limit h rfl p.ingredients
  unfold Preparation.run
  generalize runMethod limit p.method k p.ingredients = o at htogether
  generalize runMethod limit p.method k' p.ingredients = o' at htogether
  cases htogether with
  | ok related =>
    refine ⟨?_, congrArg List.reverse related.log, related.kitchen.useBowl 0⟩
    exact congrArg Except.ok (related.kitchen.bowl_eq 0)
  | @error e e' b b' related =>
    obtain ⟨he, hbench⟩ := related
    obtain rfl : e = e' := he
    exact ⟨rfl, congrArg List.reverse hbench.log, hbench.kitchen⟩

theorem Recipe.runPreparation_alike (r : Recipe) (limit : Nat) (key : String)
    (h : k.Alike seen k') :
    (r.runPreparation limit key k).result = (r.runPreparation limit key k').result ∧
      (r.runPreparation limit key k).events = (r.runPreparation limit key k').events ∧
      (r.runPreparation limit key k).kitchen.Alike seen
        (r.runPreparation limit key k').kitchen := by
  unfold Recipe.runPreparation
  split
  · exact ⟨rfl, rfl, h⟩
  · rename_i p _
    exact p.run_alike limit h

end

/-! ## requests -/

inductive Vessel where
  | bowl (n : Nat)
  | dish (n : Nat)
deriving DecidableEq

/-- what can be done to one container -/
inductive Handling where
  | push (i : Ingredient)
  | pop
  | liquefy
  | stir (minutes : Nat)
  | look
deriving DecidableEq

/-- the ingredient that is taken off or seen on top, and the container afterwards -/
def Handling.apply (c : Container) : Handling → Option Ingredient × Container
  | .push i => (none, c.push i)
  | .pop => (c.top?, c.pop)
  | .liquefy => (none, c.liquefy)
  | .stir minutes => (none, c.stir minutes)
  | .look => (c.top?, c)

inductive Request where
  | run (r : Recipe) (limit : Nat) (key : String)
  | serve (servings : Nat)
  | handle (vessel : Vessel) (handling : Handling)
  | pour (bowl dish : Nat)

/-- what is told: results and events, and the containers that were named as they are afterwards -/
inductive Reply where
  | run (result : Except Error Container) (events : List Event)
  | serve (result : Except Error String)
  | handle (top? : Option Ingredient) (container : Container)
  | pour (bowl dish : Container)

namespace Kitchen

def answer (k : Kitchen) : Request → Reply × Kitchen
  | .run r limit key =>
    let o := r.runPreparation limit key k
    (.run o.result o.events, o.kitchen)
  | .serve servings =>
    let o := k.serve servings
    (.serve o.1, o.2)
  | .handle (.bowl n) handling =>
    let o := handling.apply (k.bowl n)
    (.handle o.1 o.2, k.changeBowl n fun _ => o.2)
  | .handle (.dish n) handling =>
    let o := handling.apply (k.dish n)
    (.handle o.1 o.2, k.changeDish n fun _ => o.2)
  | .pour bowl dish =>
    let k := k.pour bowl dish
    (.pour (k.bowl bowl) (k.dish dish), k)

/-- requests one after another, also after a request that has failed -/
def answerAll (k : Kitchen) : List Request → List Reply × Kitchen
  | [] => ([], k)
  | q :: qs =>
    let o := k.answer q
    let o' := o.2.answerAll qs
    (o.1 :: o'.1, o'.2)

/-- the same contents in every bowl and every dish; what is not there counts as empty -/
structure Similar (k k' : Kitchen) : Prop where
  bowls : ∀ n, k.bowl n = k'.bowl n
  dishes : ∀ n, k.dish n = k'.dish n

variable {k k' : Kitchen}

theorem Similar.alike (h : k.Similar k') : k.Alike (fun _ => True) k' :=
  ⟨h.bowls, fun n _ => h.dishes n⟩

theorem Alike.similar (h : k.Alike (fun _ => True) k') : k.Similar k' :=
  ⟨h.bowl_eq, fun n => h.dish_eq n trivial⟩

theorem Similar.serve (h : k.Similar k') (servings : Nat) :
    (k.serve servings).1 = (k'.serve servings).1 ∧
      (k.serve servings).2.Similar (k'.serve servings).2 := by
  have hserve := h.alike.serve fun n (_ : n < servings) => trivial
  exact ⟨hserve.1, hserve.2.similar⟩

/-- one request -/
theorem Similar.answer (h : k.Similar k') (q : Request) :
    (k.answer q).1 = (k'.answer q).1 ∧ (k.answer q).2.Similar (k'.answer q).2 := by
  match q with
  | .run r limit key =>
    obtain ⟨hresult, hevents, hkitchen⟩ := r.runPreparation_alike limit key h.alike
    refine ⟨?_, hkitchen.similar⟩
    simp only [Kitchen.answer]
    rw [hresult, hevents]
  | .serve servings =>
    obtain ⟨hresult, hkitchen⟩ := h.serve servings
    exact ⟨congrArg Reply.serve hresult, hkitchen⟩
  | .handle (.bowl n) handling =>
    have hsame : handling.apply (k.bowl n) = handling.apply (k'.bowl n) := by rw [h.bowls]
    simp only [Kitchen.answer]
    rw [hsame]
    exact ⟨rfl, (h.alike.changeBowl rfl).similar⟩
  | .handle (.dish n) handling =>
    have hsame : handling.apply (k.dish n) = handling.apply (k'.dish n) := by rw [h.dishes]
    simp only [Kitchen.answer]
    rw [hsame]
    exact ⟨rfl, (h.alike.changeDish fun _ => rfl).similar⟩
  | .pour bowl dish =>
    have hpour := (h.alike.pour bowl dish).similar
    refine ⟨?_, hpour⟩
    simp only [Kitchen.answer]
    rw [hpour.bowls, hpour.dishes]

/-- any number of requests, by induction: each one leaves similar kitchens to the next -/
theorem Similar.answerAll (h : k.Similar k') (qs : List Request) :
    (k.answerAll qs).1 = (k'.answerAll qs).1 ∧
      (k.answerAll qs).2.Similar (k'.answerAll qs).2 := by
  induction qs generalizing k k' with
  | nil => exact ⟨rfl, h⟩
  | cons q qs ih =>
    obtain ⟨hfirst, hnext⟩ := h.answer q
    obtain ⟨hothers, hlast⟩ := ih hnext
    refine ⟨?_, hlast⟩
    simp only [Kitchen.answerAll]
    rw [hfirst, hothers]

end Kitchen

/-- in similar kitchens every preparation of every recipe has the same result and the same events,
every serving gives the same result, any sequence of requests gets the same answers, and the
kitchens are similar afterwards -/
theorem similar_kitchens_answer {k k' : Kitchen} (h : k.Similar k') :
    (∀ (r : Recipe) (limit : Nat) (key : String),
      (r.runPreparation limit key k).result = (r.runPreparation limit key k').result ∧
      (r.runPreparation limit key k).events = (r.runPreparation limit key k').events ∧
      (r.runPreparation limit key k).kitchen.Similar (r.runPreparation limit key k').kitchen) ∧
    (∀ servings, (k.serve servings).1 = (k'.serve servings).1 ∧
      (k.serve servings).2.Similar (k'.serve servings).2) ∧
    ∀ requests, (k.answerAll requests).1 = (k'.answerAll requests).1 ∧
      (k.answerAll requests).2.Similar (k'.answerAll requests).2 := by
  refine ⟨fun r limit key => ?_, h.serve, h.answerAll⟩
  obtain ⟨hresult, hevents, hkitchen⟩ := r.runPreparation_alike limit key h.alike
  exact ⟨hresult, hevents, hkitchen.similar⟩

/-- a bowl and a dish were named, and nothing is in them -/
def laidOut : Kitchen := (Kitchen.empty.useBowl 3).useDish 2

theorem laidOut_answers :
    Kitchen.empty ≠ laidOut ∧ Kitchen.empty.Similar laidOut ∧
      (seasoning.run 5 laidOut).result = (seasoning.run 5 .empty).result ∧
      (laidOut.serve 4).1 = (Kitchen.empty.serve 4).1 ∧
      (laidOut.answerAll [.handle (.dish 2) .pop, .pour 3 2, .serve 3]).1 =
        (Kitchen.empty.answerAll [.handle (.dish 2) .pop, .pour 3 2, .serve 3]).1 := by
  have hsimilar : Kitchen.empty.Similar laidOut := by
    refine ⟨fun n => ?_, fun n => ?_⟩
    · exact (Kitchen.empty.bowl_useBowl 3 n).symm
    · show Container.empty = (Kitchen.empty.changeDish 2 id).dish n
      rw [Kitchen.dish_changeDish]
      split <;> rfl
  obtain ⟨hrun, hserve, hrequests⟩ := similar_kitchens_answer hsimilar
  have hkey : (Document.recipe ⟨1, seasoning, []⟩).preparation? mainKey = some seasoning := rfl
  refine ⟨by decide, hsimilar, ?_, (hserve 4).1.symm, (hrequests _).1.symm⟩
  have hseasoning := (hrun (Document.recipe ⟨1, seasoning, []⟩) 5 mainKey).1
  simp only [Recipe.runPreparation, hkey] at hseasoning
  exact hseasoning.symm

end Cookery
