/-!
# Statements: the steps of a method

* `Action`           a step that does one thing to the kitchen;
* `Statement`        an action, the start of a loop, or the end of one;
* `Statement.text`   how a statement is shown.

Containers are numbered from 0 here and from 1 in the text.
-/

namespace Cookery

inductive Action where
  | put (ingredient : String) (bowl : Nat)
  | combine (ingredient : String) (bowl : Nat)
  | liquefy (bowl : Nat)
  | pour (bowl dish : Nat)
  | stir (bowl minutes : Nat)
deriving DecidableEq

inductive Statement where
  | act (action : Action)
  | loopStart (verb ingredient : String)
  | loopEnd (verbed : String) (ingredient? : Option String)
deriving DecidableEq

/-! ## texts -/

def bowlText (bowl : Nat) : String := "mixing bowl #" ++ toString (bowl + 1)
def dishText (dish : Nat) : String := "baking dish #" ++ toString (dish + 1)

def Action.text : Action → String
  | .put ingredient bowl => "Put " ++ ingredient ++ " into " ++ bowlText bowl
  | .combine ingredient bowl => "Combine " ++ ingredient ++ " into " ++ bowlText bowl
  | .liquefy bowl => "Liquefy " ++ bowlText bowl
  | .pour bowl dish => "Pour " ++ bowlText bowl ++ " into " ++ dishText dish
  | .stir bowl minutes =>
    "Stir " ++ bowlText bowl ++ " for " ++ toString minutes ++ " minutes"

def Statement.text : Statement → String
  | .act action => action.text
  | .loopStart verb ingredient => verb ++ " the " ++ ingredient
  | .loopEnd verbed (some ingredient) => ingredient ++ " until " ++ verbed
  | .loopEnd verbed none => "until " ++ verbed

end Cookery
