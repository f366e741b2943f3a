import Cookery.Ingredient.Quantity

/-!
# Ingredients: a name, how much of it, and of which kind

* `Kind`         dry, liquid, or either of the two;
* `Ingredient`   what a pantry holds and what lies in the containers;
* `liquefied`    the same ingredient as a liquid.
-/

namespace Cookery

inductive Kind where
  | dry
  | liquid
  | either
deriving DecidableEq

def Kind.name : Kind → String
  | .dry => "Dry"
  | .liquid => "Liquid"
  | .either => "Either"

/-- an ingredient; the amount may be left open -/
structure Ingredient where
  name : String
  value : Option Quantity
  kind : Kind
deriving DecidableEq

def Ingredient.liquefied (i : Ingredient) : Ingredient := { i with kind := .liquid }

theorem Ingredient.liquefied_liquefied (i : Ingredient) :
    i.liquefied.liquefied = i.liquefied := rfl

end Cookery
