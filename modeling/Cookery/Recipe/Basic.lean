import Cookery.Ingredient.Basic
import Cookery.Statement
import Cookery.Table

/-!
# Recipes

A recipe is a main preparation and any number of auxiliary ones, each with its own title,
ingredients and method.

* `Pantry`        ingredients by name;
* `Preparation`   one title with its ingredients, method and oven temperature;
* `Recipe`        the preparations, the main one under `mainKey` and the others under their titles;
* `Document`      a recipe as it is written down, the auxiliary preparations in their order.
-/

namespace Cookery

abbrev Pantry : Type := Table String Ingredient

structure Preparation where
  title : String
  ingredients : Pantry
  method : List Statement
  oven : Option Nat
deriving DecidableEq

structure Recipe where
  title : String
  servings : Nat
  preparations : Table String Preparation
deriving DecidableEq

/-- the key of the main preparation -/
def mainKey : String := "main"

namespace Recipe

def preparation? (r : Recipe) (key : String) : Option Preparation := r.preparations.find? key

def main? (r : Recipe) : Option Preparation := r.preparation? mainKey

/-- the oven temperature of the main preparation -/
def oven (r : Recipe) : Option Nat := r.main?.bind Preparation.oven

end Recipe

/-! ## documents -/

structure Document where
  servings : Nat
  main : Preparation
  auxiliaries : List Preparation
deriving DecidableEq

/-- preparations stored under their titles, over those that are there -/
def storeAll (t : Table String Preparation) (ps : List Preparation) : Table String Preparation :=
  ps.foldl (fun t p => t.insert p.title p) t

/-- the recipe of a document -/
def Document.recipe (d : Document) : Recipe where
  title := d.main.title
  servings := d.servings
  preparations := storeAll (Table.empty.insert mainKey d.main) d.auxiliaries

end Cookery
