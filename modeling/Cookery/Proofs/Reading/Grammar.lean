import Cookery.Recipe.Reader

/-!
# The grammar of documents

Which lists of lines are a document, and which one, said without a cursor: the lines are cut into
pieces, and each piece is of a form of its own.  The reader is not mentioned.

* `IsBlankLine`, `IsTextLine`, `EndsMethod`   the lines by which pieces end;
* `IngredientRun`, `MethodRun`   the lines of an ingredient list and of a method;
* `PreparationForm`              a preparation after its title, with the lines between its two
                                 lists and the lines after it;
* `AuxiliariesForm`, `DocumentForm`   the preparations after the main one, and the whole.
-/

namespace Cookery

/-! ## lines -/

def IsBlankLine (line : String) : Prop := ∀ c ∈ line.toList, isBlank c = true

def AllBlank (lines : List String) : Prop := ∀ l ∈ lines, IsBlankLine l

/-- neither blank nor a heading -/
def IsTextLine (line : String) : Prop := ¬ IsBlankLine line ∧ ∀ h : Heading, line ≠ h.text

/-- the line `Serves 4.`, with the count it gives -/
def ServesLine (line : String) (servings : Nat) : Prop :=
  ∃ digits : List Char, digits ≠ [] ∧ (∀ d ∈ digits, isDigit d = true) ∧
    line.toList = "Serves ".toList ++ digits ++ ['.'] ∧ servings = countOf digits

def EndsMethod (line : String) : Prop := IsBlankLine line ∨ ∃ servings, ServesLine line servings

/-! ## lists of ingredients and methods -/

/-- every line is an ingredient, no two of them have one name, and the table holds them all -/
def IngredientRun (lines : List String) (pantry : Pantry) : Prop :=
  (∀ l ∈ lines, IsTextLine l) ∧
    ∃ is : List Ingredient, lines.map Ingredient.ofLine = is.map .ok ∧
      (is.map Ingredient.name).Nodup ∧ pantry = Table.ofList (is.map fun i => (i.name, i))

/-- every sentence of every line is a statement, and the method has them in order -/
def MethodRun (lines : List String) (method : List Statement) : Prop :=
  (∀ l ∈ lines, ¬ EndsMethod l) ∧
    (lines.flatMap fun l => sentences l.toList).map Statement.ofSentence = method.map .ok

/-! ## preparations -/

/-- the temperature on the last of some lines that heats the oven -/
def lastOven (lines : List String) : Option Nat := (lines.filterMap ovenLine?).getLast?.getD none

/-- the lines of a preparation after its title: any lines up to the heading of the ingredients, the
ingredients, the lines `between`, the heading of the method, the method, and the lines `rest` after
it.  Ingredients and method go as far as they can. -/
inductive PreparationForm (title : String) :
    List String → Preparation → (between rest : List String) → Prop where
  | mk {lead items between steps rest : List String} {pantry : Pantry} {method : List Statement}
    (lead_skips : ∀ l ∈ lead, l ≠ Heading.ingredients.text)
    (items_run : IngredientRun items pantry)
    (items_longest : ∀ l ∈ between.head?, ¬ IsTextLine l)
    (between_skips : ∀ l ∈ between, l ≠ Heading.method.text)
    (steps_run : MethodRun steps method)
    (steps_longest : ∀ l ∈ rest.head?, EndsMethod l) :
    PreparationForm title
      (lead ++ Heading.ingredients.text ::
        (items ++ (between ++ Heading.method.text :: (steps ++ rest))))
      { title, ingredients := pantry, method, oven := lastOven between } between rest

/-- the serving count on the first line that is not blank, if it is one -/
inductive EarlyCount : List String → Option Nat → Prop where
  | found {blanks after : List String} {line : String} {servings : Nat}
    (blanks_blank : AllBlank blanks) (count : ServesLine line servings) :
    EarlyCount (blanks ++ line :: after) (some servings)
  | absent {blanks after : List String} (blanks_blank : AllBlank blanks)
    (other : ∀ l ∈ after.head?, ¬ IsBlankLine l ∧ ∀ servings, ¬ ServesLine l servings) :
    EarlyCount (blanks ++ after) none

/-- the lines of a serving count that stands after the method: one line exactly when none was found
before it -/
inductive LateCount : Option Nat → List String → Nat → Prop where
  | before (servings : Nat) : LateCount (some servings) [] servings
  | here {line : String} {servings : Nat} (count : ServesLine line servings) :
    LateCount none [line] servings

/-! ## documents -/

/-- preparations one after the other, each with a title that is not blank and blank lines after
it -/
inductive AuxiliariesForm : List String → List Preparation → Prop where
  | none : AuxiliariesForm [] []
  | more {title : String} {lines between blanks rest : List String} {p : Preparation}
    {ps : List Preparation} (title_text : ¬ IsBlankLine title)
    (first : PreparationForm title lines p between (blanks ++ rest))
    (blanks_blank : AllBlank blanks) (others : AuxiliariesForm rest ps) :
    AuxiliariesForm (title :: lines) (p :: ps)

/-- a whole document: title, main preparation, blank lines, the serving count unless it came
before, lines with `After`, and the auxiliary preparations -/
inductive DocumentForm (After : List String → Prop) : List String → Document → Prop where
  | mk {title : String} {lines between blanks count gap rest : List String} {main : Preparation}
    {early? : Option Nat} {servings : Nat} {auxiliaries : List Preparation}
    (main_form : PreparationForm title lines main between (blanks ++ (count ++ (gap ++ rest))))
    (early : EarlyCount between early?) (blanks_blank : AllBlank blanks)
    (late : LateCount early? count servings) (gap_after : After gap)
    (others : AuxiliariesForm rest auxiliaries)
    (titles : (mainKey :: auxiliaries.map Preparation.title).Nodup) :
    DocumentForm After (title :: lines) { servings, main, auxiliaries }

end Cookery
