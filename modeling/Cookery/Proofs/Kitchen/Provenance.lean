import Cookery.Proofs.Cooking.Countdown
import Cookery.Proofs.Kitchen.Contents

/-!
# Where the contents of a kitchen come from

Each ingredient in a bowl or a dish was made of one that the preparation declares: it may have been
multiplied and liquefied, and the table that it was taken from counted down, but it has a declared
name, and an amount iff there was one.

* `Ingredient.MadeOf`, `Ingredient.DeclaredIn`   what is kept of a declared ingredient;
* `declaredIn_of_countedDown`   what the working table gives was declared;
* `declared_keptBySteps`        the working table and the kitchen, step by step;
* `run_declaredIn`              every stage of a run in an empty kitchen, and its end.
-/

namespace Cookery

/-! ## ingredients -/

/-- `i` may come of what is declared as `d`, with another amount if that has one; an amount fits into
64 bits with a sign -/
structure Ingredient.MadeOf (d i : Ingredient) : Prop where
  name : i.name = d.name
  kind : i.kind = d.kind ∨ i.kind = .liquid
  value : i.value.isSome = d.value.isSome
  fits : ∀ q, i.value = some q → -0x8000000000000000 ≤ q.val ∧ q.val ≤ 0x7FFFFFFFFFFFFFFF

namespace Ingredient.MadeOf

variable {d i : Ingredient}

theorem of_lowered (h : d.Lowered i) : d.MadeOf i := by
  refine ⟨h.name, .inl h.kind, ?_, fun q _ => ⟨q.least, q.most⟩⟩
  have hvalue := h.value
  generalize d.value = v at hvalue ⊢
  generalize i.value = w at hvalue ⊢
  cases hvalue with
  | none => rfl
  | some _ => rfl

theorem liquefied (h : d.MadeOf i) : d.MadeOf i.liquefied :=
  ⟨h.name, .inr rfl, h.value, h.fits⟩

theorem revalued (h : d.MadeOf i) (hi : i.value ≠ none) (q : Quantity) :
    d.MadeOf { i with value := some q } := by
  refine ⟨h.name, h.kind, ?_, fun q _ => ⟨q.least, q.most⟩⟩
  rw [← h.value]
  exact (Option.isSome_iff_ne_none.mpr hi).symm

end Ingredient.MadeOf

/-- the table declares what the ingredient was made of -/
def Ingredient.DeclaredIn (declared : Pantry) (i : Ingredient) : Prop :=
  ∃ d, declared.find? i.name = some d ∧ d.MadeOf i

namespace Ingredient.DeclaredIn

variable {declared : Pantry} {i : Ingredient}

theorem liquefied (h : i.DeclaredIn declared) : i.liquefied.DeclaredIn declared := by
  obtain ⟨d, hd, hmade⟩ := h
  exact ⟨d, hd, hmade.liquefied⟩

theorem revalued (h : i.DeclaredIn declared) (hi : i.value ≠ none) (q : Quantity) :
    { i with value := some q }.DeclaredIn declared := by
  obtain ⟨d, hd, hmade⟩ := h
  exact ⟨d, hd, hmade.revalued hi q⟩

end Ingredient.DeclaredIn

/-! ## runs -/

/-- every ingredient is stored under its own name -/
def Pantry.Stored (p : Pantry) : Prop := ∀ key i, p.find? key = some i → i.name = key

theorem Pantry.stored_iff {p : Pantry} : Pantry.Stored p ↔ ∀ e ∈ p.entries, e.2.name = e.1 := by
  constructor
  · intro h e he
    exact h e.1 e.2 ((p.mem_entries_iff e.1 e.2).mp he)
  · intro h key i hi
    exact h (key, i) ((p.mem_entries_iff key i).mpr hi)

instance (p : Pantry) : Decidable (Pantry.Stored p) := decidable_of_iff' _ Pantry.stored_iff

theorem declaredIn_of_countedDown {declared p : Pantry} {names : List String}
    (hstored : Pantry.Stored declared) (hdown : Pantry.CountedDown names declared p)
    {key : String} {i : Ingredient} (hi : p.find? key = some i) : i.DeclaredIn declared := by
  obtain ⟨d, hd, hlow⟩ := hdown.exists_find? hi
  have hname : i.name = key := hlow.name.trans (hstored key d hd)
  refine ⟨d, ?_, .of_lowered hlow⟩
  rw [hname]
  exact hd

/-- what one step does to the kitchen, whether it fails or not -/
theorem Task.Step.declaredIn {declared : Pantry} {names : List String} {limit : Nat} {t : Task}
    {b b' : Bench} {r : Except Error (List Task)} (h : t.Step limit b r b')
    (hstored : Pantry.Stored declared) (hdown : Pantry.CountedDown names declared b.pantry)
    (hall : b.kitchen.All (Ingredient.DeclaredIn declared)) :
    b'.kitchen.All (Ingredient.DeclaredIn declared) := by
  rcases h.kitchen_cases with ⟨a, ss, _, heff⟩ | ⟨_, hsame⟩
  · refine hall.effect (fun _ hi => hi.liquefied) (fun name _ i hi => ?_) heff
    have hdeclared := declaredIn_of_countedDown hstored hdown hi
    exact ⟨hdeclared, fun q hvalue => hdeclared.revalued hvalue q⟩
  · rw [hsame]
    exact hall

/-- the kitchen alone is no invariant: what is put into it comes from the working table, and this
holds what was declared only as long as it is counted down -/
theorem declared_keptBySteps (limit : Nat) (method : List Statement) {declared : Pantry}
    (hstored : Pantry.Stored declared) :
    KeptBySteps limit (Task.Within method (method.flatMap Statement.counters))
      (fun b _ => Pantry.CountedDown (method.flatMap Statement.counters) declared b.pantry ∧
        b.kitchen.All (Ingredient.DeclaredIn declared))
      (fun _ => True) where
  goes_on ht hb step :=
    ⟨step.within counters_subset ht,
      hb.1.trans (step.countedDown ht), step.declaredIn hstored hb.1 hb.2⟩
  stops ht hb step :=
    ⟨trivial, hb.1.trans (step.countedDown ht), step.declaredIn hstored hb.1 hb.2⟩

theorem Reaches.declaredIn {p : Preparation} (hstored : Pantry.Stored p.ingredients) {limit : Nat}
    {s : Stage} (h : Reaches limit (p.stage .empty) s) :
    s.bench.kitchen.All (Ingredient.DeclaredIn p.ingredients) := by
  have hstart : Pantry.CountedDown (p.method.flatMap Statement.counters) p.ingredients
      p.ingredients := .refl _ _
  have hholds := h.holds (declared_keptBySteps limit p.method hstored)
    (Stage.holds_start (List.Subset.refl _) ⟨hstart, Kitchen.All.empty _⟩)
  exact hholds.bench.2

/-- all that lies in the kitchen was declared, at every stage of a run that starts with nothing in
it and in the kitchen that the run leaves, even if it fails -/
theorem run_declaredIn {p : Preparation} (hstored : Pantry.Stored p.ingredients) (limit : Nat) :
    (∀ s, Reaches limit (p.stage .empty) s →
      s.bench.kitchen.All (Ingredient.DeclaredIn p.ingredients)) ∧
    (p.run limit .empty).kitchen.All (Ingredient.DeclaredIn p.ingredients) := by
  refine ⟨fun s hs => hs.declaredIn hstored, ?_⟩
  obtain ⟨s, hend⟩ := exists_endsAt limit (.method p.method) ⟨.empty, p.ingredients, []⟩
  have hall := hend.1.declaredIn hstored
  rcases Preparation.endsAt_kitchen hend with hk | hk
  · rw [hk]
    exact hall
  -- a run that ends well hands back the first bowl, which may come into being with nothing in it
  · rw [hk]
    exact hall.useBowl 0

/-- sugar whisked until the rounds are used up, for a cake that is not there -/
def glaze : Preparation where
  title := "Glaze"
  ingredients := Table.ofList [("sugar", ⟨"sugar", Quantity.ofInt? 3, .dry⟩),
    ("rounds", ⟨"rounds", Quantity.ofInt? 2, .either⟩)]
  method := [.act (.put "sugar" 0), .loopStart "Whisk" "rounds", .act (.combine "rounds" 0),
    .act (.liquefy 0), .loopEnd "whisked" none, .act (.pour 0 0), .act (.put "cake" 0)]
  oven := none

/-- the run fails with three ingredients in the first dish, all of them declared -/
theorem run_glaze_declaredIn :
    Pantry.Stored glaze.ingredients ∧ (∃ e, (glaze.run 5 .empty).result = .error e) ∧
    ((glaze.run 5 .empty).kitchen.dish 0).size = 3 ∧
    (∀ s, Reaches 5 (glaze.stage .empty) s →
      s.bench.kitchen.All (Ingredient.DeclaredIn glaze.ingredients)) ∧
    (glaze.run 5 .empty).kitchen.All (Ingredient.DeclaredIn glaze.ingredients) := by
  have hstored : Pantry.Stored glaze.ingredients := by decide
  have hfails : (glaze.run 5 .empty).result.isOk = false := by decide +kernel
  exact ⟨hstored, exists_error_of_isOk hfails, by decide +kernel, run_declaredIn hstored 5⟩

end Cookery
