import Cookery.Error
import Cookery.Statement
import Cookery.Text.Blank
import Cookery.Text.Cut
import Cookery.Text.Digits

/-!
# Sentences: how statements are written in a method

A sentence is a verb and its argument.  Five verbs have a form of their own; any other verb starts
or ends a loop.

* `container?`         `[the] [2nd] mixing bowl` at the start of a text;
* `putForm?`, `liquefyForm?`, `pourForm?`, `stirForm?`   the arguments of the five verbs;
* `loopEndForm?`, `loopStartForm?`                       `[the x] until verbed`, `the x`;
* `Statement.decode`   the statement that a verb and its argument write;
* `sentences`, `Statement.ofSentence`   the sentences of a line of a method, and one of them read.
-/

namespace Cookery

/-! ## ordinals and containers -/

/-- the two letters after the digits of an ordinal, and the space after them -/
def ordinalEndings : List (List Char) :=
  ["st ".toList, "nd ".toList, "rd ".toList, "th ".toList]

/-- an ordinal such as `2nd` at the start of a text: its digits and what follows -/
def ordinal? (cs : List Char) : Option (List Char × List Char) :=
  (digitRun? cs).bind fun (ds, r) => (ordinalEndings.findSome? (after? · r)).map fun r => (ds, r)

/-- an ordinal that may be missing -/
def ordinalMaybe (cs : List Char) : Option (List Char) × List Char :=
  match ordinal? cs with
  | some (ds, r) => (some ds, r)
  | none => (none, cs)

/-- a container at the start of a text: the digits of its ordinal, if it has one, and what
follows its noun -/
def container? (noun cs : List Char) : Option (Option (List Char) × List Char) :=
  let (ds, r) := ordinalMaybe (afterMaybe "the ".toList cs)
  (after? noun r).map fun r => (ds, r)

def bowl? : List Char → Option (Option (List Char) × List Char) := container? "mixing bowl".toList
def dish? : List Char → Option (Option (List Char) × List Char) := container? "baking dish".toList

/-- containers are counted from the 1st; without an ordinal the 1st is meant -/
def containerNumber : Option (List Char) → Except ReadFault Nat
  | none => .ok 0
  | some ds => if countOf ds = 0 then .error .ordinalZero else .ok (countOf ds - 1)

/-- what was read, if nothing is left -/
def whole? {α : Type} : Option (α × List Char) → Option α
  | some (a, []) => some a
  | _ => none

/-! ## the forms of the five verbs -/

/-- the form `x into [the] [2nd] mixing bowl` -/
def putForm? (cs : List Char) : Option (List Char × Option (List Char)) :=
  match cutAround? " into ".toList (whole? ∘ bowl?) cs with
  | some ([], _) => none
  | found => found

/-- the form `[the] contents of the [2nd] mixing bowl` -/
def liquefyForm? (cs : List Char) : Option (Option (List Char)) :=
  (after? "contents of the ".toList (afterMaybe "the ".toList cs)).bind fun r =>
    let (ds, r) := ordinalMaybe r
    if r = "mixing bowl".toList then some ds else none

/-- the form `contents of [the] [2nd] mixing bowl into [the] [3rd] baking dish` -/
def pourForm? (cs : List Char) : Option (Option (List Char) × Option (List Char)) := do
  let r ← after? "contents of ".toList cs
  let (bowl, r) ← bowl? r
  let r ← after? " into ".toList r
  let dish ← whole? (dish? r)
  some (bowl, dish)

/-- a time: `for 3 minutes`, or `for 1 minute` -/
def minutes? (cs : List Char) : Option (List Char) := do
  let r ← after? "for ".toList cs
  let (ds, r) ← digitRun? r
  if r = " minute".toList ∨ r = " minutes".toList then some ds else none

/-- the form `[[the] [2nd] mixing bowl] for 3 minutes` -/
def stirForm? (cs : List Char) : Option (Option (List Char) × List Char) :=
  match (bowl? cs).bind fun (bowl, r) => (after? " ".toList r).map fun r => (bowl, r) with
  | some (bowl, r) => (minutes? r).map fun ds => (bowl, ds)
  | none => (minutes? cs).map fun ds => (none, ds)

/-! ## loops -/

/-- the ingredient before `until`: trimmed, and without a leading `the`; none if nothing is left -/
def untilIngredient (cs : List Char) : Option String :=
  match afterMaybe "the ".toList (trim cs) with
  | [] => none
  | name => some (String.ofList name)

/-- the form `[the x] until verbed`: the last word, after `until` and one space.  What stands before
`until` ends in a blank and has no line feed before that blank. -/
def loopEndForm? (cs : List Char) : Option (String × Option String) :=
  match cs.reverse.takeWhile (!isBlank ·) with
  | [] => none
  | word =>
    match after? "until ".toList.reverse (cs.reverse.dropWhile (!isBlank ·)) with
    | none => none
    | some [] => some (String.ofList word.reverse, none)
    | some (c :: front) =>
      if isBlank c && !front.contains '\n' then
        some (String.ofList word.reverse, untilIngredient front.reverse)
      else none

/-- the form `the x` -/
def loopStartForm? (cs : List Char) : Option String :=
  match after? "the ".toList cs with
  | some [] => none
  | some name => if name.contains '\n' then none else some (String.ofList name)
  | none => none

/-! ## statements -/

inductive Verb where
  | put
  | combine
  | liquefy
  | pour
  | stir
deriving DecidableEq

def Verb.name : Verb → String
  | .put => "Put"
  | .combine => "Combine"
  | .liquefy => "Liquefy"
  | .pour => "Pour"
  | .stir => "Stir"

/-- the five verbs, one of them in two spellings -/
def Verb.ofWord? (word : String) : Option Verb :=
  if word = "Put" then some .put
  else if word = "Combine" then some .combine
  else if word = "Liquefy" ∨ word = "Liquify" then some .liquefy
  else if word = "Pour" then some .pour
  else if word = "Stir" then some .stir
  else none

/-- the action that an argument of a verb asks for; `none` if it is not of the verb's form -/
def Verb.action? (verb : Verb) (argument : List Char) : Option (Except ReadFault Action) :=
  match verb with
  | .put => (putForm? argument).map fun (name, bowl) => do
    return .put (String.ofList name) (← containerNumber bowl)
  | .combine => (putForm? argument).map fun (name, bowl) => do
    return .combine (String.ofList name) (← containerNumber bowl)
  | .liquefy => (liquefyForm? argument).map fun bowl => do
    return .liquefy (← containerNumber bowl)
  | .pour => (pourForm? argument).map fun (bowl, dish) => do
    return .pour (← containerNumber bowl) (← containerNumber dish)
  | .stir => (stirForm? argument).map fun (bowl, minutes) => do
    return .stir (← containerNumber bowl) (countOf minutes)

/-- the statement that a verb and its argument write -/
def Statement.decode (verb argument : String) : Except ReadFault Statement :=
  match Verb.ofWord? verb with
  | some v =>
    match v.action? argument.toList with
    | some action => action.map .act
    | none => .error (.badStatement v.name verb argument)
  | none =>
    match loopEndForm? argument.toList with
    | some (verbed, ingredient?) => .ok (.loopEnd verbed ingredient?)
    | none =>
      match loopStartForm? argument.toList with
      | some ingredient => .ok (.loopStart verb ingredient)
      | none => .error (.unknownStatement verb argument)

/-! ## lines of a method -/

/-- the sentences of a line: what stands between the full stops, trimmed, blanks left out -/
def sentences (line : List Char) : List (List Char) :=
  ((line.splitOn '.').map trim).filter (!·.isEmpty)

/-- a sentence divides at its first blank into the verb and, trimmed, the argument -/
def Statement.ofSentence (sentence : List Char) : Except ReadFault Statement :=
  Statement.decode (String.ofList (sentence.takeWhile (!isBlank ·)))
    (String.ofList (trim (sentence.dropWhile (!isBlank ·))))

def Statement.ofLine (line : String) : Except ReadFault (List Statement) :=
  (sentences line.toList).mapM Statement.ofSentence

end Cookery
