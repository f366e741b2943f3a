import Cookery.Cursor
import Cookery.Ingredient.Line
import Cookery.Recipe.Basic
import Cookery.Statement.Sentence

/-!
# Reading a recipe

A recipe is read line by line: the title, `Ingredients.` and the ingredient lines, `Method.` and
the lines of the method.  The serving count stands on a line of its own, either before or after
the method of the main preparation.  Auxiliary preparations follow.  A reader takes the number of
lines read so far and the lines to come, and gives what it read with the lines that are left; it
fails with the number of the line at fault.

* `servesLine?`, `ovenLine?`               the two lines with a number in them;
* `skipTo`, `readIngredients`, `readMethod`, `readServings`   the parts of a preparation;
* `readPreparation`, `readAuxiliaries`     a preparation, and all those after the main one;
* `Document.parse`, `Recipe.parse`         the whole text;
* `readPreparation_suffix`                 the lines left are the end of the lines given.
-/

set_option linter.unusedVariables false

namespace Cookery

/-- what is wrong, and on which line -/
structure ReadError where
  line : Nat
  fault : ReadFault
deriving DecidableEq

def ReadError.toError (e : ReadError) : Error := .parse e.line e.fault

/-! ## lines with a number -/

/-- the serving count on a line `Serves 4.` -/
def servesLine? (line : String) : Option Nat := do
  let r ← after? "Serves ".toList line.toList
  let (ds, r) ← digitRun? r
  if r = ['.'] then some (countOf ds) else none

/-- an oven temperature is below this one, which is `2^32` -/
def ovenBound : Nat := 0x100000000

/-- the temperature on a line that starts with `Pre-heat oven to 180 degrees`; one that is out of
bounds leaves the oven cold -/
def ovenLine? (line : String) : Option (Option Nat) := do
  let r ← after? "Pre-heat oven to ".toList line.toList
  let (ds, r) ← digitRun? r
  let _ ← after? " degrees".toList r
  some (if numberOf ds < ovenBound then some (numberOf ds) else none)

/-! ## the parts of a preparation -/

/-- step over the lines up to a heading; the last line on the way that heats the oven counts -/
def skipTo (heading : Heading) (oven : Option Nat) (read : Nat) :
    List String → Except ReadError (Option Nat × Cursor)
  | [] => .error ⟨read, .missingHeading heading⟩
  | l :: ls =>
    if l = heading.text then .ok (oven, ⟨read + 1, ls⟩)
    else skipTo heading ((ovenLine? l).getD oven) (read + 1) ls

/-- the lines of text are ingredients, each with a name of its own -/
def readIngredients (pantry : Pantry) (read : Nat) :
    List String → Except ReadError (Pantry × Cursor)
  | [] => .ok (pantry, ⟨read, []⟩)
  | l :: ls =>
    if LineKind.ofText l = .text then
      match Ingredient.ofLine l with
      | .error fault => .error ⟨read + 1, fault⟩
      | .ok i =>
        if pantry.contains i.name then .error ⟨read + 1, .duplicateIngredient i.name⟩
        else readIngredients (pantry.insert i.name i) (read + 1) ls
    else .ok (pantry, ⟨read, l :: ls⟩)

/-- a method ends at a blank line or at a serving count -/
def endsMethod (line : String) : Bool :=
  LineKind.ofText line = .blank || (servesLine? line).isSome

def readMethod (read : Nat) : List String → Except ReadError (List Statement × Cursor)
  | [] => .ok ([], ⟨read, []⟩)
  | l :: ls =>
    if endsMethod l then .ok ([], ⟨read, l :: ls⟩)
    else
      match Statement.ofLine l with
      | .error fault => .error ⟨read + 1, fault⟩
      | .ok statements =>
        match readMethod (read + 1) ls with
        | .error e => .error e
        | .ok (more, c) => .ok (statements ++ more, c)

/-- the next line has to be a serving count -/
def readServings (c : Cursor) : Except ReadError (Nat × Cursor) :=
  match servesLine? c.peek.text with
  | some n => .ok (n, c.advance)
  | none => .error ⟨c.peek.number, .unknownLine c.peek.text⟩

/-- the next line may be a serving count, where one is looked for -/
def readServingsMaybe (wanted : Bool) (c : Cursor) : Option Nat × Cursor :=
  if wanted then
    match servesLine? c.peek.text with
    | some n => (some n, c.advance)
    | none => (none, c)
  else (none, c)

/-! ## preparations -/

/-- a preparation after its title, and the serving count between its ingredients and its method -/
def readPreparation (title : String) (wantServings : Bool) (c : Cursor) :
    Except ReadError ((Preparation × Option Nat) × Cursor) :=
  match skipTo .ingredients none c.read c.rest with
  | .error e => .error e
  | .ok (_, c) =>
    match readIngredients .empty c.read c.rest with
    | .error e => .error e
    | .ok (ingredients, c) =>
      let (servings?, c) := readServingsMaybe wantServings c.skipBlank
      match skipTo .method none c.read c.rest with
      | .error e => .error e
      | .ok (oven, c) =>
        match readMethod c.read c.rest with
        | .error e => .error e
        | .ok (method, c) => .ok (({ title, ingredients, method, oven }, servings?), c)

theorem skipTo_suffix {heading : Heading} {oven o : Option Nat} {read : Nat} {ls : List String}
    {c : Cursor} (h : skipTo heading oven read ls = .ok (o, c)) : c.rest <:+ ls := by
  induction ls generalizing oven read with
  | nil => simp [skipTo] at h
  | cons l ls ih =>
    rw [skipTo] at h
    split at h
    · cases h
      exact List.suffix_cons l ls
    · exact (ih h).trans (List.suffix_cons l ls)

theorem readIngredients_suffix {pantry p : Pantry} {read : Nat} {ls : List String} {c : Cursor}
    (h : readIngredients pantry read ls = .ok (p, c)) : c.rest <:+ ls := by
  induction ls generalizing pantry read with
  | nil => cases h; exact List.suffix_refl _
  | cons l ls ih =>
    rw [readIngredients] at h
    split at h
    · split at h
      · cases h
      · split at h
        · cases h
        · exact (ih h).trans (List.suffix_cons l ls)
    · cases h
      exact List.suffix_refl _

theorem readMethod_suffix {read : Nat} {ls : List String} {ss : List Statement} {c : Cursor}
    (h : readMethod read ls = .ok (ss, c)) : c.rest <:+ ls := by
  induction ls generalizing read ss with
  | nil => cases h; exact List.suffix_refl _
  | cons l ls ih =>
    rw [readMethod] at h
    split at h
    · cases h
      exact List.suffix_refl _
    · split at h
      · cases h
      · split at h
        · cases h
        · rename_i hm
          cases h
          exact (ih hm).trans (List.suffix_cons l ls)

theorem Cursor.advance_suffix (c : Cursor) : c.advance.rest <:+ c.rest := by
  unfold Cursor.advance
  split
  · exact List.suffix_refl _
  · rename_i l ls h
    rw [h]
    exact List.suffix_cons l ls

theorem readServingsMaybe_suffix (wanted : Bool) (c : Cursor) :
    (readServingsMaybe wanted c).2.rest <:+ c.rest := by
  unfold readServingsMaybe
  split
  · split
    · exact c.advance_suffix
    · exact List.suffix_refl _
  · exact List.suffix_refl _

/-- a preparation leaves an end of the lines it was given -/
theorem readPreparation_suffix {title : String} {wanted : Bool} {c c' : Cursor}
    {p : Preparation × Option Nat} (h : readPreparation title wanted c = .ok (p, c')) :
    c'.rest <:+ c.rest := by
  unfold readPreparation at h
  split at h
  · cases h
  · rename_i _ c₁ h₁
    split at h
    · cases h
    · rename_i _ c₂ h₂
      dsimp only at h
      split at h
      · cases h
      · rename_i _ c₄ h₄
        split at h
        · cases h
        · rename_i _ c₅ h₅
          cases h
          exact (readMethod_suffix h₅).trans <| (skipTo_suffix h₄).trans <|
            (readServingsMaybe_suffix _ _).trans <| c₂.skipBlank_rest_suffix.trans <|
            (readIngredients_suffix h₂).trans (skipTo_suffix h₁)

/-- the preparations up to the end of the lines, where the blank lines before each one are left
out; the titles are new ones -/
def readAuxiliaries (taken : List String) (c : Cursor) : Except ReadError (List Preparation) :=
  match hc : c.rest with
  | [] => .ok []
  | title :: ls =>
    match hp : readPreparation title false ⟨c.read + 1, ls⟩ with
    | .error e => .error e
    | .ok ((p, _), c') =>
      if taken.contains title then .error ⟨c.read + 1, .duplicateRecipe title⟩
      else
        match readAuxiliaries (title :: taken) c'.skipBlank with
        | .error e => .error e
        | .ok ps => .ok (p :: ps)
termination_by c.rest.length
decreasing_by
  have h := (c'.skipBlank_rest_suffix.trans (readPreparation_suffix hp)).length_le
  rw [hc, List.length_cons]
  exact Nat.lt_succ_of_le h

/-! ## the whole text -/

/-- the serving count after the method, unless there was one before it -/
def servingsAfter (servings? : Option Nat) (c : Cursor) : Except ReadError (Nat × Cursor) :=
  match servings? with
  | some n => .ok (n, c)
  | none => readServings c

/-- read a whole text -/
def Document.parse (source : String) : Except ReadError Document :=
  match textLines source with
  | [] => .error ⟨0, .emptyRecipe⟩
  | title :: ls =>
    match readPreparation title true ⟨1, ls⟩ with
    | .error e => .error e
    | .ok ((main, servings?), c) =>
      match servingsAfter servings? c.skipBlank with
      | .error e => .error e
      | .ok (servings, c) =>
        match readAuxiliaries [mainKey] c.skipBlank with
        | .error e => .error e
        | .ok auxiliaries => .ok { servings, main, auxiliaries }

/-- the recipe that a text writes -/
def Recipe.parse (source : String) : Except ReadError Recipe :=
  (Document.parse source).map Document.recipe

end Cookery
