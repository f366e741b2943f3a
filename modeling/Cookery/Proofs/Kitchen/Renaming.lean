import Cookery.Kitchen.Serving
import Cookery.Error
import Cookery.Proofs.Kitchen.Stirring
import Cookery.Proofs.Lists
import Cookery.Proofs.Tables
import Mathlib.Data.Set.Function
import Mathlib.Order.Monotone.Defs

/-!
# Kitchens under other names and numbers

Ingredients get other names, bowls and dishes other numbers.  A kitchen and its renamed copy stay
alike under all that is done to them, as long as the bowls in use stay apart and the dishes in use
stay in their order; what is then served is the same.

* `Renaming`                 other names, other numbers of bowls, other numbers of dishes;
* `Ingredient.renamed`, `Container.renamed`, `Error.renamed`   what carries names;
* `Kitchen.Matches`          a kitchen and its copy, for the bowls and the dishes in use;
* `Matches.changeBowl`, `Matches.pour`   changes of a kitchen and of its copy;
* `Matches.serve_eq`         both serve the same text, or fail at the same ingredient.
-/

namespace Cookery

structure Renaming where
  name : String → String
  bowl : Nat → Nat
  dish : Nat → Nat

/-! ## ingredients, containers and errors -/

section
variable (ρ : Renaming)

def Ingredient.renamed (i : Ingredient) : Ingredient := { i with name := ρ.name i.name }

theorem Ingredient.value_renamed (i : Ingredient) : (i.renamed ρ).value = i.value := rfl

def Container.renamed (c : Container) : Container := ⟨c.topDown.map (·.renamed ρ)⟩

def CookFault.renamed : CookFault → CookFault
  | .combineValueless name => .combineValueless (ρ.name name)
  | .combineIntoEmpty name bowl => .combineIntoEmpty (ρ.name name) (ρ.bowl bowl)
  | .combineWithValueless name top => .combineWithValueless (ρ.name name) (ρ.name top)
  | .combineOverflow name => .combineOverflow (ρ.name name)
  | .loopValueless ingredient => .loopValueless (ρ.name ingredient)
  | .decrementValueless ingredient => .decrementValueless (ρ.name ingredient)
  | .decrementOverflow ingredient => .decrementOverflow (ρ.name ingredient)
  | fault => fault

def Error.renamed : Error → Error
  | .runtime fault => .runtime (fault.renamed ρ)
  | .unknownIngredient name => .unknownIngredient (ρ.name name)
  | .unrenderable name fault => .unrenderable (ρ.name name) fault
  | .inContext inner context => .inContext inner.renamed context
  | e => e

namespace Container

theorem renamed_push (c : Container) (i : Ingredient) :
    (c.push i).renamed ρ = (c.renamed ρ).push (i.renamed ρ) := rfl

theorem renamed_liquefy (c : Container) : c.liquefy.renamed ρ = (c.renamed ρ).liquefy := by
  simp only [renamed, liquefy, List.map_map]
  rfl

theorem renamed_stir (c : Container) (minutes : Nat) :
    (c.stir minutes).renamed ρ = (c.renamed ρ).stir minutes :=
  (c.stir_map (·.renamed ρ) minutes).symm

theorem renamed_pourOnto (c below : Container) :
    (c.pourOnto below).renamed ρ = (c.renamed ρ).pourOnto (below.renamed ρ) := by
  simp only [renamed, pourOnto, List.map_append]

theorem top?_renamed (c : Container) : (c.renamed ρ).top? = c.top?.map (·.renamed ρ) :=
  List.head?_map

end Container

/-! ## tables under other numbers -/

/-- an entry of a table of dishes -/
def Renaming.entry (e : Nat × Container) : Nat × Container := (ρ.dish e.1, e.2.renamed ρ)

end

section
variable {ρ : Renaming} {dishes : List Nat} (hdishes : StrictMonoOn ρ.dish {d | d ∈ dishes})
include hdishes

theorem compare_dish {d d' : Nat} (hd : d ∈ dishes) (hd' : d' ∈ dishes) :
    compare (ρ.dish d) (ρ.dish d') = compare d d' := by
  rcases Nat.lt_trichotomy d d' with hlt | rfl | hgt
  · rw [Nat.compare_eq_lt.mpr hlt, Nat.compare_eq_lt.mpr (hdishes hd hd' hlt)]
  · rw [Nat.compare_eq_eq.mpr rfl, Nat.compare_eq_eq.mpr rfl]
  · rw [Nat.compare_eq_gt.mpr hgt, Nat.compare_eq_gt.mpr (hdishes hd' hd hgt)]

theorem find?_map_entry {es : List (Nat × Container)} (hes : ∀ e ∈ es, e.1 ∈ dishes) {d : Nat}
    (hd : d ∈ dishes) :
    (es.map ρ.entry).find? (fun e => compare (ρ.dish d) e.1 == .eq) =
      (es.find? fun e => compare d e.1 == .eq).map ρ.entry := by
  induction es with
  | nil => rfl
  | cons e es ih =>
    obtain ⟨he, hes⟩ := List.forall_mem_cons.mp hes
    have hsame : (compare (ρ.dish d) (ρ.entry e).1 == .eq) = (compare d e.1 == .eq) := by
      rw [Renaming.entry, compare_dish hdishes hd he]
    rw [List.map_cons, List.find?_cons, List.find?_cons, hsame, ih hes]
    cases compare d e.1 == .eq <;> rfl

theorem place_map_entry {es : List (Nat × Container)} (hes : ∀ e ∈ es, e.1 ∈ dishes) {d : Nat}
    (hd : d ∈ dishes) (c : Container) :
    Table.place (ρ.dish d) (c.renamed ρ) (es.map ρ.entry) = (Table.place d c es).map ρ.entry := by
  induction es with
  | nil => rfl
  | cons e es ih =>
    obtain ⟨he, hes⟩ := List.forall_mem_cons.mp hes
    have hsame : compare (ρ.dish d) (ρ.entry e).1 = compare d e.1 := compare_dish hdishes hd he
    rw [List.map_cons, Table.place, Table.place, hsame, ih hes]
    cases compare d e.1 <;> rfl

end

/-! ## kitchens -/

/-- the copy has the renamed contents in the bowls that are in use, and the renamed dishes in the
same order; no other dishes are in use -/
structure Kitchen.Matches (ρ : Renaming) (bowls dishes : List Nat) (k k' : Kitchen) : Prop where
  bowl_eq : ∀ n ∈ bowls, k'.bowl (ρ.bowl n) = (k.bowl n).renamed ρ
  entries_eq : k'.dishes.entries = k.dishes.entries.map ρ.entry
  used : ∀ e ∈ k.dishes.entries, e.1 ∈ dishes

namespace Kitchen

section
variable {ρ : Renaming} {bowls dishes : List Nat} {k k' : Kitchen}

theorem Matches.empty (ρ : Renaming) (bowls dishes : List Nat) :
    Matches ρ bowls dishes Kitchen.empty Kitchen.empty where
  bowl_eq _ _ := rfl
  entries_eq := rfl
  used := nofun

/-- to be in use changes nothing in a bowl -/
theorem Matches.useBowl (h : Matches ρ bowls dishes k k') (n n' : Nat) :
    Matches ρ bowls dishes (k.useBowl n) (k'.useBowl n') where
  bowl_eq m hm := by
    rw [bowl_useBowl, bowl_useBowl]
    exact h.bowl_eq m hm
  entries_eq := h.entries_eq
  used := h.used

theorem Matches.changeBowl (h : Matches ρ bowls dishes k k')
    (hbowls : Set.InjOn ρ.bowl {n | n ∈ bowls}) {n : Nat} (hn : n ∈ bowls)
    (f f' : Container → Container) (hf : ∀ c, f' (c.renamed ρ) = (f c).renamed ρ) :
    Matches ρ bowls dishes (k.changeBowl n f) (k'.changeBowl (ρ.bowl n) f') where
  bowl_eq m hm := by
    rw [bowl_changeBowl, bowl_changeBowl]
    by_cases hmn : m = n
    · subst hmn
      rw [if_pos rfl, if_pos rfl, h.bowl_eq m hn, hf]
    · have hne : ρ.bowl m ≠ ρ.bowl n := fun heq => hmn (hbowls hm hn heq)
      rw [if_neg hmn, if_neg hne]
      exact h.bowl_eq m hm
  entries_eq := h.entries_eq
  used := h.used

theorem Matches.dish_eq (h : Matches ρ bowls dishes k k')
    (hdishes : StrictMonoOn ρ.dish {d | d ∈ dishes}) {d : Nat} (hd : d ∈ dishes) :
    k'.dish (ρ.dish d) = (k.dish d).renamed ρ := by
  unfold dish Table.find?
  rw [h.entries_eq, find?_map_entry hdishes h.used hd]
  cases k.dishes.entries.find? fun e => compare d e.1 == .eq <;> rfl

theorem Matches.changeDish (h : Matches ρ bowls dishes k k')
    (hdishes : StrictMonoOn ρ.dish {d | d ∈ dishes}) {d : Nat} (hd : d ∈ dishes)
    (f f' : Container → Container) (hf : ∀ c, f' (c.renamed ρ) = (f c).renamed ρ) :
    Matches ρ bowls dishes (k.changeDish d f) (k'.changeDish (ρ.dish d) f') where
  bowl_eq := h.bowl_eq
  entries_eq := by
    show Table.place (ρ.dish d) (f' (k'.dish (ρ.dish d))) k'.dishes.entries = _
    rw [h.dish_eq hdishes hd, hf, h.entries_eq, place_map_entry hdishes h.used hd]
    rfl
  used e he := by
    rcases Table.mem_place he with rfl | he
    · exact hd
    · exact h.used e he

theorem Matches.pour (h : Matches ρ bowls dishes k k')
    (hdishes : StrictMonoOn ρ.dish {d | d ∈ dishes}) {n d : Nat} (hn : n ∈ bowls)
    (hd : d ∈ dishes) :
    Matches ρ bowls dishes (k.pour n d) (k'.pour (ρ.bowl n) (ρ.dish d)) := by
  refine (h.useBowl n (ρ.bowl n)).changeDish hdishes hd _ _ fun c => ?_
  rw [h.bowl_eq n hn, Container.renamed_pourOnto]

end

end Kitchen

/-! ## serving -/

section
variable (ρ : Renaming)

theorem Ingredient.toChar_renamed (i : Ingredient) :
    (i.renamed ρ).toChar = i.toChar.mapError (·.renamed ρ) := by
  have hrender : (i.renamed ρ).render = i.render := rfl
  unfold toChar
  rw [hrender]
  cases i.render <;> rfl

theorem mapM_toChar_renamed (is : List Ingredient) :
    (is.map (·.renamed ρ)).mapM Ingredient.toChar =
      (is.mapM Ingredient.toChar).mapError (·.renamed ρ) := by
  induction is with
  | nil => rfl
  | cons i is ih =>
    have hfirst := i.toChar_renamed ρ
    rw [List.map_cons]
    cases hi : i.toChar with
    | error e =>
      rw [hi] at hfirst
      rw [mapM_cons_error hi, mapM_cons_error hfirst]
      rfl
    | ok c =>
      rw [hi] at hfirst
      rw [mapM_cons_ok hi, mapM_cons_ok hfirst, ih]
      cases is.mapM Ingredient.toChar <;> rfl

theorem Container.serve_renamed (c : Container) :
    (c.renamed ρ).serve.1 = c.serve.1.mapError (·.renamed ρ) := by
  unfold serve renamed
  dsimp only
  rw [mapM_toChar_renamed]
  cases c.topDown.mapM Ingredient.toChar <;> rfl

/-- the text of the first dish, and then that of the others -/
theorem Kitchen.serveDishes_cons_fst (k : Kitchen) (n : Nat) (dish : Container)
    (ds : List (Nat × Container)) :
    (k.serveDishes ((n, dish) :: ds)).1 =
      match dish.serve.1 with
      | .error e => .error e
      | .ok chars =>
        ((k.changeDish n fun _ => dish.serve.2).serveDishes ds).1.map (chars ++ ·) := by
  rw [serveDishes]
  rcases dish.serve with ⟨_ | chars, left⟩
  · rfl
  · dsimp only
    rcases (k.changeDish n fun _ => left).serveDishes ds with ⟨_ | more, k₁⟩ <;> rfl

theorem Kitchen.serve_fst (k : Kitchen) (servings : Nat) :
    (k.serve servings).1 = (k.serveDishes (k.dishesBelow servings)).1.map String.ofList := by
  unfold serve
  rcases k.serveDishes (k.dishesBelow servings) with ⟨_ | chars, k₁⟩ <;> rfl

/-- what is served is decided by the dishes, not by the kitchen they are in -/
theorem Kitchen.serveDishes_renamed (ds : List (Nat × Container)) (k k' : Kitchen) :
    (k'.serveDishes (ds.map ρ.entry)).1 = (k.serveDishes ds).1.mapError (·.renamed ρ) := by
  induction ds generalizing k k' with
  | nil => rfl
  | cons d ds ih =>
    obtain ⟨n, dish⟩ := d
    rw [List.map_cons, Renaming.entry, serveDishes_cons_fst, serveDishes_cons_fst,
      dish.serve_renamed ρ]
    cases dish.serve.1 with
    | error e => rfl
    | ok chars =>
      have hrest := ih (k.changeDish n fun _ => dish.serve.2)
        (k'.changeDish (ρ.dish n) fun _ => (dish.renamed ρ).serve.2)
      show Except.map _ _ = Except.mapError _ (Except.map _ _)
      rw [hrest]
      cases ((k.changeDish n fun _ => dish.serve.2).serveDishes ds).1 <;> rfl

end

theorem Kitchen.Matches.dishesBelow_eq {ρ : Renaming} {bowls dishes : List Nat} {k k' : Kitchen}
    (h : Matches ρ bowls dishes k k') {servings servings' : Nat}
    (hservings : ∀ d ∈ dishes, ρ.dish d < servings' ↔ d < servings) :
    k'.dishesBelow servings' = (k.dishesBelow servings).map ρ.entry := by
  unfold dishesBelow
  rw [h.entries_eq, List.filter_map]
  congr 1
  refine List.filter_congr fun e he => ?_
  exact decide_eq_decide.mpr (hservings e.1 (h.used e he))

theorem Kitchen.Matches.serve_eq {ρ : Renaming} {bowls dishes : List Nat} {k k' : Kitchen}
    (h : Matches ρ bowls dishes k k') {servings servings' : Nat}
    (hservings : ∀ d ∈ dishes, ρ.dish d < servings' ↔ d < servings) :
    (k'.serve servings').1 = (k.serve servings).1.mapError (·.renamed ρ) := by
  rw [serve_fst, serve_fst, h.dishesBelow_eq hservings, serveDishes_renamed ρ _ k k']
  cases (k.serveDishes (k.dishesBelow servings)).1 <;> rfl

end Cookery
