import Cookery.Error
import Cookery.Kitchen.Basic

/-!
# Serving: the dishes as text

The dishes in use are emptied in ascending order, each one from the top, and every ingredient is
rendered as the character of its value.  The first ingredient that is no character ends the
serving: it is taken off its dish, and the rest stays.

* `Ingredient.render`   the character of an ingredient, or why there is none;
* `Container.serve`     the text of one dish, and what is left in it;
* `Kitchen.serve`       the text of the served dishes, and the kitchen afterwards.
-/

namespace Cookery

/-- why an ingredient has no character, or its character -/
def Ingredient.render (i : Ingredient) : Except RenderFault Char :=
  if i.kind ≠ .liquid then .error (.notLiquid i.kind)
  else
    match i.value with
    | none => .error .noValue
    | some q =>
      match q.char? with
      | some c => .ok c
      | none => .error (.notCharacter q.val)

def Ingredient.isRenderable (i : Ingredient) : Bool :=
  match i.render with
  | .ok _ => true
  | .error _ => false

/-- the character of an ingredient, or the error that names it -/
def Ingredient.toChar (i : Ingredient) : Except Error Char :=
  i.render.mapError (.unrenderable i.name)

/-- the characters of a dish from the top, and the dish afterwards: empty, or what lies below the
first ingredient without a character -/
def Container.serve (c : Container) : Except Error (List Char) × Container :=
  match c.topDown.mapM Ingredient.toChar with
  | .ok chars => (.ok chars, .empty)
  | .error e => (.error e, ⟨(c.topDown.dropWhile Ingredient.isRenderable).tail⟩)

/-- serve dishes one after the other -/
def Kitchen.serveDishes (k : Kitchen) : List (Nat × Container) → Except Error (List Char) × Kitchen
  | [] => (.ok [], k)
  | (n, dish) :: dishes =>
    match dish.serve with
    | (.error e, left) => (.error e, k.changeDish n fun _ => left)
    | (.ok chars, left) =>
      match (k.changeDish n fun _ => left).serveDishes dishes with
      | (.error e, k) => (.error e, k)
      | (.ok more, k) => (.ok (chars ++ more), k)

/-- serve the dishes in use with a number below `servings` -/
def Kitchen.serve (k : Kitchen) (servings : Nat) : Except Error String × Kitchen :=
  match k.serveDishes (k.dishesBelow servings) with
  | (.ok chars, k) => (.ok (String.ofList chars), k)
  | (.error e, k) => (.error e, k)

end Cookery
