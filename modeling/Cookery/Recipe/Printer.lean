import Cookery.Recipe.Basic

/-!
# Writing a recipe down

The written form has every part spelled out: a measure for each ingredient, a number for each
container, one sentence on a line.  Lines end in a carriage return and a line feed, so that a line
that itself ends in a carriage return is read back whole.

* `Ingredient.line`, `Statement.sentence`   one line of a list, one line of a method;
* `Preparation.lines`, `Document.lines`     the lines of a preparation and of a whole recipe;
* `Document.print`                          the text.
-/

namespace Cookery

/-! ## ingredients and sentences -/

/-- a measure that goes with the kind -/
def Kind.measure : Kind → String
  | .dry => "g"
  | .liquid => "ml"
  | .either => "cup"

def Ingredient.line (i : Ingredient) : String :=
  (match i.value with
    | some q => toString q.val ++ " "
    | none => "") ++ i.kind.measure ++ " " ++ i.name

/-- the `n`th container, counted from 0, in words -/
def nthContainer (noun : String) (n : Nat) : String :=
  "the " ++ toString (n + 1) ++ "th " ++ noun

def nthBowl (n : Nat) : String := nthContainer "mixing bowl" n
def nthDish (n : Nat) : String := nthContainer "baking dish" n

def Action.sentence : Action → String
  | .put ingredient bowl => "Put " ++ ingredient ++ " into " ++ nthBowl bowl ++ "."
  | .combine ingredient bowl => "Combine " ++ ingredient ++ " into " ++ nthBowl bowl ++ "."
  | .liquefy bowl => "Liquefy contents of " ++ nthBowl bowl ++ "."
  | .pour bowl dish => "Pour contents of " ++ nthBowl bowl ++ " into " ++ nthDish dish ++ "."
  | .stir bowl minutes => "Stir " ++ nthBowl bowl ++ " for " ++ toString minutes ++ " minutes."

def Statement.sentence : Statement → String
  | .act action => action.sentence
  | .loopStart verb ingredient => verb ++ " the " ++ ingredient ++ "."
  | .loopEnd verbed none => "Wait until " ++ verbed ++ "."
  | .loopEnd verbed (some ingredient) => "Wait the " ++ ingredient ++ " until " ++ verbed ++ "."

/-! ## preparations and documents -/

def ovenLines : Option Nat → List String
  | some t => ["Pre-heat oven to " ++ toString t ++ " degrees Celsius."]
  | none => []

def Preparation.lines (p : Preparation) : List String :=
  [p.title, "", "Ingredients."] ++ p.ingredients.entries.map (fun e => e.2.line) ++ [""] ++
    ovenLines p.oven ++ ["Method."] ++ p.method.map Statement.sentence ++ [""]

def Document.lines (d : Document) : List String :=
  d.main.lines ++ ["Serves " ++ toString d.servings ++ "."] ++
    d.auxiliaries.flatMap fun p => "" :: p.lines

/-- the lines, each with its line end -/
def unlines (lines : List String) : String := String.join (lines.map (· ++ "\r\n"))

def Document.print (d : Document) : String := unlines d.lines

end Cookery
