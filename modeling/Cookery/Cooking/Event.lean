import Cookery.Ingredient.Quantity
import Cookery.Statement

/-!
# Events: what is reported while a recipe is read and cooked

* `Event`            what happened;
* `Event.level`, `Event.message`, `Event.fields`   how it is reported;
* `Event.line`       the same as one line of text.
-/

namespace Cookery

inductive Event where
  | readAuxiliary (title : String)
  | cooking (title : String) (servings : Nat)
  | resolve (statement : Statement)
  /-- a pass of a loop: the value of its ingredient at the start, and the number of the pass -/
  | pass (verb ingredient : String) (value : Quantity) (iterations : Nat)
  | loopFinished (verb ingredient : String) (iterations : Nat)
  | served (chars : Nat)
deriving DecidableEq

inductive Level where
  | trace
  | debug
  | info
deriving DecidableEq

def Level.name : Level → String
  | .trace => "TRACE"
  | .debug => "DEBUG"
  | .info => "INFO"

/-- a value that is reported with an event -/
inductive Field where
  | text (s : String)
  | number (n : Int)
deriving DecidableEq

def Field.toText : Field → String
  | .text s => s
  | .number n => toString n

namespace Event

def level : Event → Level
  | .readAuxiliary _ => .debug
  | .cooking _ _ => .info
  | .resolve _ => .debug
  | .pass _ _ _ _ => .trace
  | .loopFinished _ _ _ => .debug
  | .served _ => .info

def message : Event → String
  | .readAuxiliary _ => "parsed auxiliary recipe"
  | .cooking _ _ => "cooking recipe"
  | .resolve _ => "resolve statement"
  | .pass _ _ _ _ => "loop iteration"
  | .loopFinished _ _ _ => "loop finished"
  | .served _ => "recipe served"

def fields : Event → List (String × Field)
  | .readAuxiliary title => [("title", .text title)]
  | .cooking title servings => [("title", .text title), ("servings", .number servings)]
  | .resolve statement => [("statement", .text statement.text)]
  | .pass verb ingredient value iterations =>
    [("verb", .text verb), ("ingredient", .text ingredient), ("value", .number value.val),
      ("iterations", .number iterations)]
  | .loopFinished verb ingredient iterations =>
    [("verb", .text verb), ("ingredient", .text ingredient), ("iterations", .number iterations)]
  | .served chars => [("chars", .number chars)]

/-- an event on one line: level, message, fields -/
def line (e : Event) : String :=
  e.fields.foldl (fun s f => s ++ " " ++ f.1 ++ "=" ++ f.2.toText)
    (e.level.name ++ " " ++ e.message)

end Event

end Cookery
