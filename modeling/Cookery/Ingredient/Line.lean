import Cookery.Error
import Cookery.Text.Blank
import Cookery.Text.Digits

/-!
# Ingredient lines: quantity, heap, measure, name

A line of an ingredient list reads `[quantity] [heaped | level] [measure] name`.  Each of the three
optional parts is a word followed by one blank, and is taken whenever it is there.

* `measureWords`        the words that are taken for a measure;
* `measureKind?`        the kind of ingredient that a measure goes with;
* `IngredientLine`      a line cut into its parts, `IngredientLine.ofText` cuts it;
* `Ingredient.ofLine`   the ingredient that a line describes.
-/

namespace Cookery

/-- the words that are taken for a measure where a line is cut -/
def measureWords : List String :=
  ["g", "kg", "pinch", "pinches", "ml", "l", "dash", "dashes", "cup", "cups",
    "teaspoon", "teaspoons", "tablespoon", "tablespoons"]

def isMeasure (word : List Char) : Bool := (measureWords.map String.toList).contains word

/-- the kind of ingredient that a measure goes with, if the measure is known -/
def measureKind? (word : List Char) : Option Kind :=
  if ["g".toList, "kg".toList, "pinch".toList, "pinches".toList].contains word then
    some .dry
  else if ["ml".toList, "l".toList, "dash".toList, "dashes".toList].contains word then
    some .liquid
  else if ["cup".toList, "cups".toList, "teaspoon".toList, "teaspoons".toList,
      "tablespoon".toList, "tablespoons".toList].contains word then
    some .either
  else none

def isNumeral (word : List Char) : Bool := !word.isEmpty && word.all isDigit

/-- the words `heaped` and `level`, which describe dry goods only -/
def isHeap (word : List Char) : Bool := word == "heaped".toList || word == "level".toList

/-! ## cutting a line -/

/-- the first word of a text and what follows the blank after it, if the word is wanted -/
def takeWord (wanted : List Char → Bool) (cs : List Char) : Option (List Char) × List Char :=
  match cs.dropWhile (!isBlank ·) with
  | [] => (none, cs)
  | _ :: rest =>
    if wanted (cs.takeWhile (!isBlank ·)) then (some (cs.takeWhile (!isBlank ·)), rest)
    else (none, cs)

/-- an ingredient line in its parts -/
structure IngredientLine where
  quantity? : Option (List Char)
  heap? : Option (List Char)
  measure? : Option (List Char)
  rest : List Char
deriving DecidableEq

def IngredientLine.ofText (line : List Char) : IngredientLine :=
  let (quantity?, rest) := takeWord isNumeral line
  let (heap?, rest) := takeWord isHeap rest
  let (measure?, rest) := takeWord isMeasure rest
  { quantity?, heap?, measure?, rest }

/-! ## reading a line -/

/-- the quantity that a run of digits writes, if it fits -/
def quantityOf? (digits : List Char) : Option Quantity := Quantity.ofInt? (numberOf digits)

def IngredientLine.value (l : IngredientLine) : Except ReadFault (Option Quantity) :=
  match l.quantity? with
  | none => .ok none
  | some digits =>
    match quantityOf? digits with
    | some q => .ok (some q)
    | none => .error (.quantityOutOfRange (String.ofList digits))

/-- the kind that the measure tells; without a measure it is open -/
def IngredientLine.measuredKind (l : IngredientLine) : Except ReadFault Kind :=
  match l.measure? with
  | none => .ok .either
  | some word =>
    match measureKind? word with
    | some kind => .ok kind
    | none => .error (.unknownMeasure (String.ofList word))

/-- what is heaped or level is dry, but its measure has to be known all the same -/
def IngredientLine.kind (l : IngredientLine) : Except ReadFault Kind := do
  let kind ← l.measuredKind
  return if l.heap?.isSome then .dry else kind

/-- the ingredient that a line describes; a line without a name is invalid -/
def Ingredient.ofLine (line : String) : Except ReadFault Ingredient :=
  let parts := IngredientLine.ofText line.toList
  if isBlankText parts.rest then .error (.invalidIngredient line)
  else do
    let value ← parts.value
    let kind ← parts.kind
    return { name := String.ofList (trim parts.rest), value, kind }

end Cookery
