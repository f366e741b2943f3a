import Cookery.Cooking.Event
import Cookery.Cooking.Loop
import Cookery.Error
import Cookery.Kitchen.Basic
import Cookery.Recipe.Basic

/-!
# Cooking: following a method

The cook works at a bench with the kitchen, the working ingredient table, and a log of what
happened, the last event first.  A step that fails leaves the bench as it is at that point.

* `Cooking`            a computation at the bench that may fail;
* `Action.perform`     one action;
* `passes`             the passes of a loop, at most as many as are left;
* `follow`             a whole method.
-/

set_option linter.unusedVariables false

namespace Cookery

structure Bench where
  kitchen : Kitchen
  pantry : Pantry
  log : List Event
deriving DecidableEq

/-- a computation at the bench; what it did before an error stays done -/
abbrev Cooking (α : Type) : Type := ExceptT Error (StateM Bench) α

/-! ## the bench -/

def emit (e : Event) : Cooking Unit := modify fun b => { b with log := e :: b.log }

def changeKitchen (f : Kitchen → Kitchen) : Cooking Unit :=
  modify fun b => { b with kitchen := f b.kitchen }

/-- the ingredient of a name in the working table -/
def fetch (name : String) : Cooking Ingredient := do
  match (← get).pantry.find? name with
  | some i => return i
  | none => throw (.unknownIngredient name)

/-- a fault unless there is a value -/
def orFault {α : Type} (fault : CookFault) : Option α → Cooking α
  | some a => return a
  | none => throw (.runtime fault)

/-! ## actions -/

/-- what combining an ingredient with the top of a bowl makes: the ingredient with the product of
the two values -/
def combined (named : Ingredient) (factor : Quantity) (n : Nat) (bowl : Container) :
    Except CookFault Ingredient :=
  match bowl.top? with
  | none => .error (.combineIntoEmpty named.name n)
  | some top =>
    match top.value with
    | none => .error (.combineWithValueless named.name top.name)
    | some value =>
      match factor.times? value with
      | none => .error (.combineOverflow named.name)
      | some product => .ok { named with value := some product }

def combine (name : String) (n : Nat) : Cooking Unit := do
  let named ← fetch name
  let factor ← orFault (.combineValueless named.name) named.value
  changeKitchen (·.useBowl n)
  match combined named factor n ((← get).kitchen.bowl n) with
  | .ok i => changeKitchen (·.changeBowl n (·.push i))
  | .error fault => throw (.runtime fault)

def Action.perform : Action → Cooking Unit
  | .put name n => do
    let i ← fetch name
    changeKitchen (·.changeBowl n (·.push i))
  | .combine name n => Cookery.combine name n
  | .liquefy n => changeKitchen (·.changeBowl n .liquefy)
  | .pour bowl dish => changeKitchen (·.pour bowl dish)
  | .stir n minutes => changeKitchen (·.changeBowl n (·.stir minutes))

/-! ## loops -/

/-- the value that decides about the next pass of a loop -/
def loopValue (ingredient : String) : Cooking Quantity := do
  orFault (.loopValueless ingredient) (← fetch ingredient).value

/-- take one away from an ingredient -/
def decrement (name : String) : Cooking Unit := do
  let value ← orFault (.decrementValueless name) (← fetch name).value
  let less ← orFault (.decrementOverflow name) value.pred?
  modify fun b => { b with pantry := b.pantry.modify name ({ · with value := some less }) }

/-- the passes of a loop after `made` of them, with `left` more allowed: as long as the ingredient
is not zero, do the body and count down -/
def passes (verb ingredient counter : String) (body : Cooking Unit) :
    (made left : Nat) → Cooking Unit
  | made, 0 => do
    let value ← loopValue ingredient
    if value.val = 0 then emit (.loopFinished verb ingredient made)
    else throw (.loopLimit verb made)
  | made, left + 1 => do
    let value ← loopValue ingredient
    if value.val = 0 then emit (.loopFinished verb ingredient made)
    else
      emit (.pass verb ingredient value (made + 1))
      body
      decrement counter
      passes verb ingredient counter body (made + 1) left

/-- follow a method, where every loop may make up to `limit` passes each time it is met -/
def follow (limit : Nat) (method : List Statement) : Cooking Unit :=
  match method with
  | [] => return ()
  | .act action :: ss => do
    emit (.resolve (.act action))
    action.perform
    follow limit ss
  | .loopStart verb ingredient :: ss => do
    emit (.resolve (.loopStart verb ingredient))
    match h : cutLoop? verb ss with
    | none => throw (.runtime (.unclosedLoop verb))
    | some cut =>
      passes verb ingredient (cut.until?.getD ingredient) (follow limit cut.body) 0 limit
      follow limit cut.rest
  | .loopEnd verbed ingredient? :: _ => do
    emit (.resolve (.loopEnd verbed ingredient?))
    throw (.runtime (.strayLoopEnd verbed))
termination_by method.length
decreasing_by
  · exact Nat.lt_succ_self _
  · have := length_of_cutLoop? h
    simp only [List.length_cons]
    omega
  · have := length_of_cutLoop? h
    simp only [List.length_cons]
    omega

end Cookery
