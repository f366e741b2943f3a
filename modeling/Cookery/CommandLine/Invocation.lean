import Cookery.Cooking.Run

/-!
# Invocations: what the arguments on the command line ask for

The tool has two commands, `run RECIPE [--max-iterations N]` and `check RECIPE`.  The flag
`-v` or `--verbose` may stand before and after the name of the command, once on each side.
`--version` and `--help` stand before it, `--help` also after it, and both act at once.  A `--` ends
the options.  Whatever else is a misuse.

* `Arg`                  one argument: an option, a cluster of letters, or a word;
* `Command`, `Invocation`   what is to be done;
* `Invocation.ofArgs`    reads the arguments.
-/

namespace Cookery

/-! ## arguments -/

inductive Arg where
  /-- a `--` alone -/
  | optionsEnd
  /-- an option with two dashes, and the value after its `=` -/
  | long (name : List Char) (value? : Option (List Char))
  /-- letters after one dash -/
  | letters (cs : List Char)
  | word (text : String)
deriving DecidableEq

/-- a dash alone is a word -/
def Arg.ofText (text : String) : Arg :=
  match text.toList with
  | ['-', '-'] => .optionsEnd
  | '-' :: '-' :: cs =>
    match cs.dropWhile (· ≠ '=') with
    | [] => .long cs none
    | _ :: value => .long (cs.takeWhile (· ≠ '=')) (some value)
  | '-' :: c :: cs => .letters (c :: cs)
  | _ => .word text

/-- a count: digits, possibly after a plus sign, that write no more than `countMax` -/
def limitOf? (cs : List Char) : Option Nat :=
  match digitRun? (afterMaybe ['+'] cs) with
  | some (ds, []) => if numberOf ds ≤ countMax then some (numberOf ds) else none
  | _ => none

/-! ## commands -/

inductive Command where
  | run (recipe : String) (limit : Nat)
  | check (recipe : String)
deriving DecidableEq

def Command.recipe : Command → String
  | .run recipe _ => recipe
  | .check recipe => recipe

inductive Invocation where
  | command (verbose : Bool) (command : Command)
  | version
  | help
  | misuse
deriving DecidableEq

/-- the options of a command while they are read; `verbose` is set by a flag after its name -/
structure Options where
  takesLimit : Bool
  verboseBefore : Bool
  verbose : Bool := false
  recipe? : Option String := none
  limit? : Option Nat := none
deriving DecidableEq

/-- what the options amount to once all arguments are read -/
def Options.finish (o : Options) : Invocation :=
  match o.recipe? with
  | none => .misuse
  | some recipe =>
    .command (o.verboseBefore || o.verbose)
      (if o.takesLimit then .run recipe (o.limit?.getD defaultLimit) else .check recipe)

/-- a word is the recipe, unless there is one -/
def Options.addRecipe (o : Options) (text : String) : Option Options :=
  if o.recipe?.isSome then none else some { o with recipe? := some text }

/-- a limit, for the command that takes one, and once -/
def Options.addLimit (o : Options) (value : List Char) : Option Options :=
  if o.takesLimit && o.limit?.isNone then
    (limitOf? value).map fun n => { o with limit? := some n }
  else none

/-- letters after the name of a command: `v` sets the flag, `h` asks for help -/
def Options.addLetters (o : Options) : List Char → Except Invocation Options
  | [] => .ok o
  | 'v' :: cs =>
    if o.verbose then .error .misuse else Options.addLetters { o with verbose := true } cs
  | 'h' :: _ => .error .help
  | _ :: _ => .error .misuse

/-- words only, after a `--` -/
def wordsOnly (o : Options) : List String → Invocation
  | [] => o.finish
  | a :: as =>
    match o.addRecipe a with
    | some o => wordsOnly o as
    | none => .misuse

/-- a value given as an argument of its own does not look like an option -/
def valueArg? (text : String) : Option (List Char) :=
  match Arg.ofText text with
  | .word w => some w.toList
  | _ => none

/-- the arguments after the name of a command -/
def commandArgs (o : Options) : List String → Invocation
  | [] => o.finish
  | a :: as =>
    match Arg.ofText a with
    | .optionsEnd => wordsOnly o as
    | .word text =>
      match o.addRecipe text with
      | some o => commandArgs o as
      | none => .misuse
    | .letters cs =>
      match o.addLetters cs with
      | .ok o => commandArgs o as
      | .error i => i
    | .long name (some value) =>
      if name = "max-iterations".toList then
        match o.addLimit value with
        | some o => commandArgs o as
        | none => .misuse
      else .misuse
    | .long name none =>
      if name = "verbose".toList then
        if o.verbose then .misuse else commandArgs { o with verbose := true } as
      else if name = "help".toList then .help
      else if name = "max-iterations".toList then
        match as with
        | [] => .misuse
        | value :: as =>
          match (valueArg? value).bind o.addLimit with
          | some o => commandArgs o as
          | none => .misuse
      else .misuse

/-! ## the whole command line -/

/-- letters before the name of a command: `v` sets the flag, `V` and `h` act at once -/
def topLetters (verbose : Bool) : List Char → Except Invocation Bool
  | [] => .ok verbose
  | 'v' :: cs => if verbose then .error .misuse else topLetters true cs
  | 'V' :: _ => .error .version
  | 'h' :: _ => .error .help
  | _ :: _ => .error .misuse

/-- the word `help` alone, or with the name of a command -/
def helpArgs : List String → Invocation
  | [] => .help
  | [name] => if name = "run" ∨ name = "check" ∨ name = "help" then .help else .misuse
  | _ => .misuse

/-- the arguments up to the name of a command -/
def topArgs (verbose : Bool) : List String → Invocation
  | [] => .misuse
  | a :: as =>
    match Arg.ofText a with
    | .optionsEnd => .misuse
    | .word text =>
      if text = "run" then commandArgs { takesLimit := true, verboseBefore := verbose } as
      else if text = "check" then
        commandArgs { takesLimit := false, verboseBefore := verbose } as
      else if text = "help" then helpArgs as
      else .misuse
    | .letters cs =>
      match topLetters verbose cs with
      | .ok verbose => topArgs verbose as
      | .error i => i
    | .long _ (some _) => .misuse
    | .long name none =>
      if name = "verbose".toList then if verbose then .misuse else topArgs true as
      else if name = "version".toList then .version
      else if name = "help".toList then .help
      else .misuse

def Invocation.ofArgs (args : List String) : Invocation := topArgs false args

end Cookery
