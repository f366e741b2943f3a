import Cookery.Ingredient.Basic

/-!
# What can go wrong, and how it is said

An error is a cause; its wording is one function per type.  A cause that comes from outside can
be given in its own words (`worded`).

* `ReadFault`     a line of a recipe that cannot be read;
* `CookFault`     a step of a method that cannot be done;
* `RenderFault`   an ingredient that is no character;
* `FileFault`     a recipe file that cannot be opened;
* `Error`         all of these, with the contexts they passed through;
* `Error.message` the text for the reader, `Error.isParse` whether reading the recipe failed.
-/

namespace Cookery

/-! ## reading -/

/-- the two headings of a recipe -/
inductive Heading where
  | ingredients
  | method
deriving DecidableEq

def Heading.text : Heading → String
  | .ingredients => "Ingredients."
  | .method => "Method."

inductive ReadFault where
  | emptyRecipe
  | missingHeading (heading : Heading)
  | invalidIngredient (line : String)
  | quantityOutOfRange (digits : String)
  | unknownMeasure (measure : String)
  | duplicateIngredient (name : String)
  | unknownLine (line : String)
  | duplicateRecipe (title : String)
  /-- the argument of a known verb is not of the verb's form -/
  | badStatement (form verb argument : String)
  | ordinalZero
  | unknownStatement (verb argument : String)
  | worded (text : String)
deriving DecidableEq

def ReadFault.message : ReadFault → String
  | .emptyRecipe => "Empty recipe"
  | .missingHeading h => s!"Expected '{h.text}' before end of recipe"
  | .invalidIngredient line => s!"Invalid ingredient: {line}"
  | .quantityOutOfRange digits => s!"Quantity out of range: {digits}"
  | .unknownMeasure measure => s!"Unknown measure: {measure}"
  | .duplicateIngredient name => s!"Duplicate ingredient: {name}"
  | .unknownLine line => s!"Unknown line: {line}"
  | .duplicateRecipe title => s!"Duplicate recipe: {title}"
  | .badStatement form verb argument => s!"Bad {form} statement: {verb} {argument}"
  | .ordinalZero => "Container ordinals start at 1st"
  | .unknownStatement verb argument => s!"Unknown statement: {verb} {argument}"
  | .worded text => text

/-! ## cooking -/

inductive CookFault where
  | unknownRecipe (name : String)
  | combineValueless (name : String)
  /-- nothing to combine with; bowls count from 0 here and from 1 in the text -/
  | combineIntoEmpty (name : String) (bowl : Nat)
  | combineWithValueless (name top : String)
  | combineOverflow (name : String)
  | unclosedLoop (verb : String)
  | strayLoopEnd (verbed : String)
  | loopValueless (ingredient : String)
  | decrementValueless (ingredient : String)
  | decrementOverflow (ingredient : String)
  | worded (text : String)
deriving DecidableEq

def CookFault.message : CookFault → String
  | .unknownRecipe name => s!"Unknown recipe: {name}"
  | .combineValueless name => s!"Cannot combine '{name}': it has no value"
  | .combineIntoEmpty name bowl => s!"Cannot combine '{name}' into empty mixing bowl #{bowl + 1}"
  | .combineWithValueless name top => s!"Cannot combine '{name}' with '{top}': it has no value"
  | .combineOverflow name => s!"Combining '{name}' overflowed"
  | .unclosedLoop verb => s!"Could not find end of loop '{verb}'"
  | .strayLoopEnd verbed => s!"'until {verbed}' has no matching loop"
  | .loopValueless ingredient => s!"Loop ingredient '{ingredient}' has no value"
  | .decrementValueless ingredient => s!"Cannot decrement '{ingredient}': it has no value"
  | .decrementOverflow ingredient => s!"Decrementing '{ingredient}' overflowed"
  | .worded text => text

/-! ## serving and opening files -/

inductive RenderFault where
  | notLiquid (kind : Kind)
  | noValue
  | notCharacter (value : Int)
  | worded (text : String)
deriving DecidableEq

def RenderFault.message : RenderFault → String
  | .notLiquid kind => s!"cannot render a {kind.name} ingredient"
  | .noValue => "it has no value"
  | .notCharacter value => s!"{value} is not a character"
  | .worded text => text

inductive FileFault where
  | notFound
  | isDirectory
  | notText
  | worded (text : String)
deriving DecidableEq

def FileFault.message : FileFault → String
  | .notFound => "No such file or directory (os error 2)"
  | .isDirectory => "Is a directory (os error 21)"
  | .notText => "stream did not contain valid UTF-8"
  | .worded text => text

/-! ## errors -/

inductive Error where
  | file (fault : FileFault)
  | parse (line : Nat) (fault : ReadFault)
  | runtime (fault : CookFault)
  | unknownIngredient (name : String)
  | unrenderable (name : String) (fault : RenderFault)
  | loopLimit (verb : String) (limit : Nat)
  | inContext (inner : Error) (context : String)
deriving DecidableEq

def Error.message : Error → String
  | .file fault => s!"IO error: {fault.message}"
  | .parse line fault => s!"Parse error on line {line}: {fault.message}"
  | .runtime fault => s!"Runtime error: {fault.message}"
  | .unknownIngredient name => s!"Unknown ingredient: {name}"
  | .unrenderable name fault => s!"Cannot render ingredient '{name}': {fault.message}"
  | .loopLimit verb limit => s!"Loop '{verb}' exceeded {limit} iterations"
  | .inContext inner context => s!"{inner.message}\nContext: {context}"

/-- did reading the recipe fail, rather than cooking it? -/
def Error.isParse : Error → Bool
  | .parse _ _ => true
  | .inContext inner _ => inner.isParse
  | _ => false

/-- the error under all contexts -/
def Error.cause : Error → Error
  | .inContext inner _ => inner.cause
  | e => e

theorem Error.isParse_cause (e : Error) : e.cause.isParse = e.isParse := by
  induction e with
  | inContext inner _ ih => simpa [Error.cause, Error.isParse] using ih
  | _ => rfl

end Cookery
