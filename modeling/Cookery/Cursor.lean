import Cookery.Error
import Cookery.Text.Blank
import Cookery.Text.Lines

/-!
# A cursor over the lines of a recipe

* `LineKind`   a heading, a blank line, a line of text, or the end of the recipe;
* `Line`       a line with its kind and number;
* `Cursor`     how many lines were read, and the lines still to come;
* `peek`, `advance`, `skipBlank`   look at the next line, step over it, step over blank lines.
-/

namespace Cookery

inductive LineKind where
  | ending
  | blank
  | heading (heading : Heading)
  | text
deriving DecidableEq

/-- headings stand alone on their line, exactly as written -/
def LineKind.ofText (line : String) : LineKind :=
  if line = Heading.ingredients.text then .heading .ingredients
  else if line = Heading.method.text then .heading .method
  else if isBlankText line.toList then .blank
  else .text

structure Line where
  kind : LineKind
  text : String
  number : Nat
deriving DecidableEq

structure Cursor where
  read : Nat
  rest : List String
deriving DecidableEq

namespace Cursor

def start (source : String) : Cursor := ⟨0, textLines source⟩

def atEnd (c : Cursor) : Bool := c.rest.isEmpty

/-- the next line; the end of the recipe has no text and the number of the last line -/
def peek (c : Cursor) : Line :=
  match c.rest with
  | [] => ⟨.ending, "", c.read⟩
  | l :: _ => ⟨LineKind.ofText l, l, c.read + 1⟩

def advance (c : Cursor) : Cursor :=
  match c.rest with
  | [] => c
  | _ :: ls => ⟨c.read + 1, ls⟩

/-- step over lines, up to the first one that is not of the kind `p` -/
def skipWhile (p : String → Bool) (read : Nat) : List String → Cursor
  | [] => ⟨read, []⟩
  | l :: ls => if p l then skipWhile p (read + 1) ls else ⟨read, l :: ls⟩

def skipBlank (c : Cursor) : Cursor := skipWhile (LineKind.ofText · = .blank) c.read c.rest

/-- all the lines to come, numbered on from `read` -/
def linesFrom (read : Nat) : List String → List Line
  | [] => []
  | l :: ls => ⟨LineKind.ofText l, l, read + 1⟩ :: linesFrom (read + 1) ls

def remaining (c : Cursor) : List Line := linesFrom c.read c.rest

/-- the cursor behind the last line -/
def finish (c : Cursor) : Cursor := ⟨c.read + c.rest.length, []⟩

/-! ## the lines to come get fewer -/

theorem skipWhile_rest (p : String → Bool) (read : Nat) (ls : List String) :
    (skipWhile p read ls).rest = ls.dropWhile p := by
  induction ls generalizing read with
  | nil => rfl
  | cons l ls ih =>
    by_cases h : p l = true
    · simp [skipWhile, h, ih]
    · simp [skipWhile, h]

theorem skipBlank_rest_suffix (c : Cursor) : c.skipBlank.rest <:+ c.rest := by
  rw [skipBlank, skipWhile_rest]
  exact List.dropWhile_suffix _

end Cursor

end Cookery
