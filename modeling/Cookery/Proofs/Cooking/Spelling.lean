import Cookery.Cooking.Run
import Cookery.Proofs.Cooking.Effect
import Cookery.Proofs.Kitchen.Serving
import Cookery.Proofs.Reading.PlainWords

/-!
# Bowls that spell a text

A bowl spells a text if its ingredients, from the top, are the characters of the text.  A recipe in
plain words is cooked by following what its steps do to the spelling of the bowl; what the bowl
spells in the end is poured out and served.

* `Container.Spells`     with what putting, combining, stirring and liquefying do to a spelling;
* `Turns p steps P Q`    with the table `p`, the steps turn a first bowl with `P` into one with `Q`,
                         and leave the dishes alone; `Turns.append` for steps after other steps;
* `turns_put`, `turns_put_liquefy`, `turns_combine`, `turns_stir`   the steps of the recipes below;
* `cook_plainRecipe`     a recipe whose steps spell a text gives that text.
-/

namespace Cookery

/-! ## spellings -/

/-- the ingredients, from the top, are the characters of the text -/
def Container.Spells (c : Container) (text : List Char) : Prop :=
  c.topDown.map Ingredient.toChar = text.map .ok

namespace Container.Spells

variable {c : Container} {text : List Char} {x : Char} {i : Ingredient}

theorem empty : Container.empty.Spells [] := rfl

theorem push (h : c.Spells text) (hi : i.toChar = .ok x) : (c.push i).Spells (x :: text) := by
  show i.toChar :: c.topDown.map Ingredient.toChar = .ok x :: text.map .ok
  rw [hi, h]

/-- what spells a text is liquid already -/
theorem liquefy (h : c.Spells text) : c.liquefy.Spells text := by
  have hsame : ∀ i ∈ c.topDown, i.liquefied = i := by
    intro i hi
    have hmem : i.toChar ∈ text.map .ok := h ▸ List.mem_map_of_mem hi
    obtain ⟨x, _, hx⟩ := List.mem_map.mp hmem
    have hkind := (Ingredient.toChar_eq_ok_iff.mp hx.symm).1
    cases i
    cases hkind
    rfl
  have hlist : c.topDown.map Ingredient.liquefied = c.topDown := by
    have hmap := List.map_congr_left hsame
    rw [List.map_id'] at hmap
    exact hmap
  show (c.topDown.map Ingredient.liquefied).map Ingredient.toChar = text.map .ok
  rw [hlist, h]

theorem push_liquefy (h : c.Spells text) (hi : i.liquefied.toChar = .ok x) :
    (c.push i).liquefy.Spells (x :: text) :=
  h.liquefy.push hi

theorem topDown_eq (h : c.Spells (x :: text)) :
    ∃ top below, c.topDown = top :: below ∧ top.toChar = .ok x ∧
      below.map Ingredient.toChar = text.map .ok := by
  unfold Container.Spells at h
  cases htop : c.topDown with
  | nil =>
    rw [htop] at h
    cases h
  | cons top below =>
    rw [htop, List.map_cons, List.map_cons, List.cons.injEq] at h
    exact ⟨top, below, rfl, h⟩

/-- the first character moves down by as many places as minutes -/
theorem stir (h : c.Spells (x :: text)) (minutes : Nat) :
    (c.stir minutes).Spells (text.take minutes ++ x :: text.drop minutes) := by
  obtain ⟨top, below, htop, hx, hbelow⟩ := h.topDown_eq
  unfold Container.stir
  rw [htop]
  show (below.take minutes ++ top :: below.drop minutes).map Ingredient.toChar = _
  rw [List.map_append, List.map_cons, List.map_take, List.map_drop, hx, hbelow, List.map_append,
    List.map_cons, List.map_take, List.map_drop]

/-- combining a liquid unit with the top makes the top once more -/
theorem combine (h : c.Spells (x :: text)) (hkind : i.kind = .liquid) {one : Quantity}
    (hone : one.val = 1) (n : Nat) :
    ∃ j, combined i one n c = .ok j ∧ (c.push j).Spells (x :: x :: text) := by
  obtain ⟨top, below, htop, hx, _⟩ := h.topDown_eq
  obtain ⟨_, q, hq, hchar⟩ := Ingredient.toChar_eq_ok_iff.mp hx
  have hproduct : one.times? q = some q := by
    rw [Quantity.times?, hone, Int.one_mul, Quantity.ofInt?_val]
  refine ⟨{ i with value := some q }, ?_, h.push ?_⟩
  · simp only [combined, Container.top?, htop, List.head?_cons, hq, hproduct]
  · exact Ingredient.toChar_eq_ok_iff.mpr ⟨hkind, q, rfl, hchar⟩

end Container.Spells

/-! ## steps -/

/-- the steps are all done, whatever else is in the kitchen -/
def Turns (p : Pantry) (steps : List Step) (P Q : Container → Prop) : Prop :=
  ∀ limit k log, P (k.bowl 0) → ∃ k' log',
    (follow limit (plainMethod steps)).run.run ⟨k, p, log⟩ = (.ok (), ⟨k', p, log'⟩) ∧
      Q (k'.bowl 0) ∧ k'.dishes = k.dishes

theorem follow_plainMethod_append (limit : Nat) (steps : List Step) (ss : List Statement) :
    follow limit (plainMethod steps ++ ss) =
      follow limit (plainMethod steps) >>= fun _ => follow limit ss := by
  induction steps with
  | nil =>
    show follow limit ss = follow limit [] >>= fun _ => follow limit ss
    rw [follow_nil, pure_bind]
  | cons s steps ih =>
    show follow limit (.act s.action :: (plainMethod steps ++ ss)) =
      follow limit (.act s.action :: plainMethod steps) >>= fun _ => follow limit ss
    rw [follow_act, follow_act, ih, bind_assoc]
    simp only [bind_assoc]

section
variable {p : Pantry} {P Q R : Container → Prop}

theorem Turns.nil (p : Pantry) (P : Container → Prop) : Turns p [] P P := by
  intro limit k log hk
  refine ⟨k, log, ?_, hk, rfl⟩
  show (follow limit []).run.run _ = _
  rw [follow_nil]
  rfl

theorem Turns.append {steps more : List Step} (h : Turns p steps P Q) (hmore : Turns p more Q R) :
    Turns p (steps ++ more) P R := by
  intro limit k log hk
  obtain ⟨k₁, log₁, hrun₁, hk₁, hdishes₁⟩ := h limit k log hk
  obtain ⟨k₂, log₂, hrun₂, hk₂, hdishes₂⟩ := hmore limit k₁ log₁ hk₁
  have hmethod : plainMethod (steps ++ more) = plainMethod steps ++ plainMethod more :=
    List.map_append
  refine ⟨k₂, log₂, ?_, hk₂, hdishes₂.trans hdishes₁⟩
  rw [hmethod, follow_plainMethod_append, run_bind_ok hrun₁, hrun₂]

theorem turns_of_effect {s : Step}
    (h : ∀ k, P (k.bowl 0) → ∃ k', s.action.effect k p = (.ok (), k') ∧ Q (k'.bowl 0) ∧
      k'.dishes = k.dishes) : Turns p [s] P Q := by
  intro limit k log hk
  obtain ⟨k', heffect, hk', hdishes⟩ := h k hk
  refine ⟨k', .resolve (.act s.action) :: log, ?_, hk', hdishes⟩
  have hperform := run_perform s.action ⟨k, p, .resolve (.act s.action) :: log⟩
  dsimp only at hperform
  rw [heffect] at hperform
  show (follow limit [.act s.action]).run.run _ = _
  rw [follow_act, run_bind_ok (run_emit _ _), run_bind_ok hperform, follow_nil]
  rfl

/-- a step that changes the first bowl by `f` -/
theorem turns_of_changeBowl {s : Step} {f : Container → Container}
    (heffect : ∀ k, s.action.effect k p = (.ok (), k.changeBowl 0 f)) (h : ∀ c, P c → Q (f c)) :
    Turns p [s] P Q := by
  refine turns_of_effect fun k hk => ⟨k.changeBowl 0 f, heffect k, ?_, rfl⟩
  rw [Kitchen.bowl_changeBowl, if_pos rfl]
  exact h _ hk

end

section
variable {p : Pantry} {text : List Char} {x : Char} {name : String} {i : Ingredient}

theorem effect_put (hname : p.find? name = some i) (k : Kitchen) :
    (Step.put name).action.effect k p = (.ok (), k.changeBowl 0 (·.push i)) := by
  simp only [Step.action, Action.effect, hname]

theorem turns_put (hname : p.find? name = some i) (hi : i.toChar = .ok x) :
    Turns p [.put name] (·.Spells text) (·.Spells (x :: text)) :=
  turns_of_changeBowl (effect_put hname) fun _ h => h.push hi

theorem turns_liquefy : Turns p [.liquefy] (·.Spells text) (·.Spells text) :=
  turns_of_changeBowl (fun _ => rfl) fun _ h => h.liquefy

/-- an ingredient of any kind is a character once it is liquefied -/
theorem turns_put_liquefy (hname : p.find? name = some i) (hi : i.liquefied.toChar = .ok x) :
    Turns p [.put name, .liquefy] (·.Spells text) (·.Spells (x :: text)) := by
  have hput : Turns p [.put name] (·.Spells text) fun c => c.liquefy.Spells (x :: text) :=
    turns_of_changeBowl (effect_put hname) fun _ h => h.push_liquefy hi
  exact hput.append (turns_of_changeBowl (fun _ => rfl) fun _ h => h)

theorem turns_combine (hname : p.find? name = some i) (hkind : i.kind = .liquid) {one : Quantity}
    (hvalue : i.value = some one) (hone : one.val = 1) :
    Turns p [.combine name] (·.Spells (x :: text)) (·.Spells (x :: x :: text)) := by
  refine turns_of_effect fun k hk => ?_
  obtain ⟨j, hj, hspells⟩ := hk.combine hkind hone 0
  refine ⟨(k.useBowl 0).changeBowl 0 (·.push j), ?_, ?_, rfl⟩
  · simp only [Step.action, Action.effect, hname, combineEffect, hvalue, hj]
  · rw [Kitchen.bowl_changeBowl, if_pos rfl, Kitchen.bowl_useBowl]
    exact hspells

theorem turns_stir (x : Char) (text : List Char) (minutes : Nat) :
    Turns p [.stir minutes] (·.Spells (x :: text))
      (·.Spells (text.take minutes ++ x :: text.drop minutes)) :=
  turns_of_changeBowl (fun _ => rfl) fun _ h => h.stir minutes

end

/-! ## serving -/

theorem serve_one {k : Kitchen} {c : Container} {text : List Char}
    (hk : k.dishes = Table.empty.insert 0 c) (h : c.Spells text) :
    (k.serve 1).1 = .ok (String.ofList text) := by
  have hdishes : k.dishesBelow 1 = [(0, c)] := by
    unfold Kitchen.dishesBelow
    rw [hk]
    rfl
  have hserve : c.serve = (.ok text, .empty) := by
    unfold Container.serve
    rw [mapM_eq_ok_iff.mpr h]
  unfold Kitchen.serve
  rw [hdishes]
  simp only [Kitchen.serveDishes, hserve, List.append_nil]

/-- a method that is carried out, and dishes that can be served after it -/
theorem result_run {r : Recipe} {main : Preparation} {limit : Nat} {b : Bench} {text : String}
    (hmain : r.main? = some main)
    (hrun : runMethod limit main.method .empty main.ingredients = (.ok (), b))
    (hserve : ((b.kitchen.useBowl 0).serve r.servings).1 = .ok text) :
    (r.run limit).result = .ok text := by
  have hprepare : r.runPreparation limit mainKey .empty =
      ⟨.ok (b.kitchen.bowl 0), b.kitchen.useBowl 0, b.log.reverse⟩ := by
    have hkey : r.preparation? mainKey = some main := hmain
    simp only [Recipe.runPreparation, hkey, Preparation.run, hrun]
  unfold Recipe.run
  rw [hprepare]
  dsimp only
  unfold Recipe.serveAfter
  cases hs : (b.kitchen.useBowl 0).serve r.servings with
  | mk result k =>
    rw [hs] at hserve
    obtain rfl : result = .ok text := hserve
    rfl

/-- the first bowl poured into the first dish of a kitchen without dishes -/
theorem dishes_pour {k : Kitchen} (h : k.dishes = .empty) :
    (k.pour 0 0).dishes = Table.empty.insert 0 (k.bowl 0) := by
  have hdish : (k.useBowl 0).dish 0 = .empty := by
    show (k.dishes.find? 0).getD .empty = .empty
    rw [h]
    rfl
  have hcopy : (k.bowl 0).pourOnto .empty = k.bowl 0 := by
    simp [Container.pourOnto, Container.empty]
  show k.dishes.insert 0 ((k.bowl 0).pourOnto ((k.useBowl 0).dish 0)) = _
  rw [h, hdish, hcopy]

section
variable {title : String} {remarks items : List String} {shelf : List Ingredient}
  {steps : List Step} {text : List Char}

/-- what the steps spell is served once it is poured out -/
theorem result_run_plainDocument
    (h : Turns (shelfTable shelf) steps (·.Spells []) (·.Spells text)) (limit : Nat) :
    ((plainDocument title shelf (steps ++ [.pour])).recipe.run limit).result =
      .ok (String.ofList text) := by
  obtain ⟨k, log, hrun, hspells, hdishes⟩ := h limit .empty [] Container.Spells.empty
  have hmethod : plainMethod (steps ++ [.pour]) = plainMethod steps ++ [.act (.pour 0 0)] :=
    List.map_append
  have hpour : (follow limit [.act (.pour 0 0)]).run.run ⟨k, shelfTable shelf, log⟩ =
      (.ok (), ⟨k.pour 0 0, shelfTable shelf, .resolve (.act (.pour 0 0)) :: log⟩) := by
    rw [follow_act, follow_nil]
    rfl
  have hall : runMethod limit (plainMethod (steps ++ [.pour])) .empty (shelfTable shelf) =
      (.ok (), ⟨k.pour 0 0, shelfTable shelf, .resolve (.act (.pour 0 0)) :: log⟩) := by
    unfold runMethod
    rw [hmethod, follow_plainMethod_append, run_bind_ok hrun, hpour]
  have htitled : (plainDocument title shelf (steps ++ [.pour])).Titled := by
    show [mainKey].Nodup
    decide
  exact result_run (Document.main?_recipe htitled) hall (serve_one (dishes_pour hdishes) hspells)

theorem cook_plainRecipe (hfront : IsFront title remarks items shelf)
    (hsteps : ∀ s ∈ steps, s.action.Readable)
    (h : Turns (shelfTable shelf) steps (·.Spells []) (·.Spells text)) :
    cook (plainRecipe title remarks items (steps ++ [.pour])) = .ok (String.ofList text) := by
  have hpour : (Step.pour).action.Readable := ⟨by decide, by decide⟩
  have hall : ∀ s ∈ steps ++ [.pour], s.action.Readable := by
    intro s hs
    rcases List.mem_append.mp hs with hs | hs
    · exact hsteps s hs
    · obtain rfl := List.mem_singleton.mp hs
      exact hpour
  unfold cook
  rw [parse_plainRecipe hfront hall]
  exact result_run_plainDocument h defaultLimit

end

end Cookery
