import Cookery.Cooking.Basic
import Cookery.Kitchen.Serving
import Cookery.Recipe.Reader

/-!
# Running recipes

* `Outcome`                 what a run gives: a result or an error, the kitchen, the events;
* `Preparation.run`         one preparation in a given kitchen; it hands back the first bowl;
* `Recipe.runPreparation`   the same by key;
* `Recipe.run`              the main preparation in a fresh kitchen, and the dishes served;
* `cook`                    read a text and run its recipe.
-/

namespace Cookery

/-- how many passes a loop may make unless another limit is given -/
def defaultLimit : Nat := 1000000

structure Outcome (α : Type) where
  result : Except Error α
  kitchen : Kitchen
  events : List Event

/-- carry out a method from a kitchen and a pantry -/
def runMethod (limit : Nat) (method : List Statement) (kitchen : Kitchen) (pantry : Pantry) :
    Except Error Unit × Bench :=
  (follow limit method).run.run ⟨kitchen, pantry, []⟩

/-- run a preparation; an error says which one it was -/
def Preparation.run (p : Preparation) (limit : Nat) (kitchen : Kitchen) : Outcome Container :=
  match runMethod limit p.method kitchen p.ingredients with
  | (.error e, b) =>
    ⟨.error (.inContext e ("in recipe '" ++ p.title ++ "'")), b.kitchen, b.log.reverse⟩
  | (.ok _, b) => ⟨.ok (b.kitchen.bowl 0), b.kitchen.useBowl 0, b.log.reverse⟩

namespace Recipe

def runPreparation (r : Recipe) (limit : Nat) (key : String) (kitchen : Kitchen) :
    Outcome Container :=
  match r.preparation? key with
  | none => ⟨.error (.runtime (.unknownRecipe key)), kitchen, []⟩
  | some p => p.run limit kitchen

/-- serve after the main preparation is done -/
def serveAfter (r : Recipe) (events : List Event) (kitchen : Kitchen) : Outcome String :=
  match kitchen.serve r.servings with
  | (.error e, kitchen) => ⟨.error e, kitchen, events⟩
  | (.ok text, kitchen) => ⟨.ok text, kitchen, events ++ [.served text.length]⟩

/-- cook the main preparation in a fresh kitchen and serve -/
def run (r : Recipe) (limit : Nat) : Outcome String :=
  let start := Event.cooking r.title r.servings
  match r.runPreparation limit mainKey .empty with
  | ⟨.error e, kitchen, events⟩ => ⟨.error e, kitchen, start :: events⟩
  | ⟨.ok _, kitchen, events⟩ => r.serveAfter (start :: events) kitchen

end Recipe

/-- read a recipe and cook it -/
def cook (source : String) : Except Error String :=
  match Recipe.parse source with
  | .error e => .error e.toError
  | .ok r => (r.run defaultLimit).result

/-- the events of reading a document: one for each auxiliary preparation -/
def Document.events (d : Document) : List Event := d.auxiliaries.map (.readAuxiliary ·.title)

end Cookery
