import Cookery.Kitchen.Container
import Cookery.Table

/-!
# The kitchen: mixing bowls and baking dishes by number

Containers come into being when they are first named, so a kitchen tells a container that is not
there from an empty one.

* `bowl`, `dish`               a container, empty if it is not there;
* `changeBowl`, `changeDish`   change a container, after bringing it into being;
* `pour`                       copy a bowl on top of a dish;
* `dishesBelow`                the dishes in use with a small enough number.
-/

namespace Cookery

structure Kitchen where
  bowls : Table Nat Container := .empty
  dishes : Table Nat Container := .empty
deriving DecidableEq

namespace Kitchen

def empty : Kitchen := {}

def bowl (k : Kitchen) (n : Nat) : Container := (k.bowls.find? n).getD .empty
def dish (k : Kitchen) (n : Nat) : Container := (k.dishes.find? n).getD .empty

def changeBowl (k : Kitchen) (n : Nat) (f : Container → Container) : Kitchen :=
  { k with bowls := k.bowls.insert n (f (k.bowl n)) }

def changeDish (k : Kitchen) (n : Nat) (f : Container → Container) : Kitchen :=
  { k with dishes := k.dishes.insert n (f (k.dish n)) }

/-- bring a bowl into being -/
def useBowl (k : Kitchen) (n : Nat) : Kitchen := k.changeBowl n id
def useDish (k : Kitchen) (n : Nat) : Kitchen := k.changeDish n id

/-- copy what is in a bowl, in its order, on top of a dish; the bowl keeps it -/
def pour (k : Kitchen) (bowl dish : Nat) : Kitchen :=
  (k.useBowl bowl).changeDish dish (k.bowl bowl).pourOnto

/-- the dishes in use with a number below `servings`, in ascending order -/
def dishesBelow (k : Kitchen) (servings : Nat) : List (Nat × Container) :=
  k.dishes.entries.filter fun e => e.1 < servings

/-! ## what a change does -/

theorem find?_bowls_changeBowl (k : Kitchen) (n m : Nat) (f : Container → Container) :
    (k.changeBowl n f).bowls.find? m = if m = n then some (f (k.bowl n)) else k.bowls.find? m :=
  Table.find?_insert _ _ _ _

theorem find?_dishes_changeDish (k : Kitchen) (n m : Nat) (f : Container → Container) :
    (k.changeDish n f).dishes.find? m =
      if m = n then some (f (k.dish n)) else k.dishes.find? m :=
  Table.find?_insert _ _ _ _

theorem bowl_changeBowl (k : Kitchen) (n m : Nat) (f : Container → Container) :
    (k.changeBowl n f).bowl m = if m = n then f (k.bowl n) else k.bowl m := by
  simp only [bowl, changeBowl, Table.find?_insert]
  split <;> simp

theorem dish_changeDish (k : Kitchen) (n m : Nat) (f : Container → Container) :
    (k.changeDish n f).dish m = if m = n then f (k.dish n) else k.dish m := by
  simp only [dish, changeDish, Table.find?_insert]
  split <;> simp

theorem dish_changeBowl (k : Kitchen) (n m : Nat) (f : Container → Container) :
    (k.changeBowl n f).dish m = k.dish m := rfl

theorem bowl_changeDish (k : Kitchen) (n m : Nat) (f : Container → Container) :
    (k.changeDish n f).bowl m = k.bowl m := rfl

theorem bowl_useBowl (k : Kitchen) (n m : Nat) : (k.useBowl n).bowl m = k.bowl m := by
  rw [useBowl, bowl_changeBowl]
  split
  · rename_i h; rw [h]; rfl
  · rfl

theorem bowl_pour (k : Kitchen) (b d m : Nat) : (k.pour b d).bowl m = k.bowl m := by
  rw [pour, bowl_changeDish, bowl_useBowl]

theorem dish_pour (k : Kitchen) (b d m : Nat) :
    (k.pour b d).dish m = if m = d then (k.bowl b).pourOnto (k.dish d) else k.dish m := by
  rw [pour, dish_changeDish]
  rfl

end Kitchen

end Cookery
