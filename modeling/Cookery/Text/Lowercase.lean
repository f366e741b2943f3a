import Cookery.Text.Case

/-!
# Lower case of whole words, and past tenses

`lower` writes a text in small letters.  Two letters do not have one small letter of their own:
a capital I with a dot becomes an `i` and a combining dot, and a capital sigma becomes `ς` at the
end of a word and `σ` elsewhere.

* `lower`        the text in small letters;
* `isPastTense`  `baked` of `Bake`, `sifted` of `Sift`, `chopped` of `Chop`, `fried` of `Fry`.
-/

namespace Cookery

/-- a cased letter comes first, marks aside -/
def meetsCased (cs : List Char) : Bool :=
  match cs.dropWhile isCaseIgnorable with
  | c :: _ => isCased c
  | [] => false

/-- the small letters of one character, between the text `before` it (last character first) and
the text `rest` after it -/
def lowerAt (before : List Char) (c : Char) (rest : List Char) : List Char :=
  if c = 'Σ' then
    if meetsCased before && !meetsCased rest then ['ς'] else ['σ']
  else if c = 'İ' then ['i', '\u0307']
  else [smallLetter c]

/-- the small letters of a text that stands after `before` (last character first) -/
def lowerFrom (before : List Char) : List Char → List Char
  | [] => []
  | c :: cs => lowerAt before c cs ++ lowerFrom (c :: before) cs

def lower (cs : List Char) : List Char := lowerFrom [] cs

theorem lower_nil : lower [] = [] := rfl

/-! ## past tenses -/

/-- the past tenses of a verb in small letters: with `d`, with `ed`, with its last letter doubled
and `ed`, and with `ied` for a final `y` -/
def pastTenses (verb : List Char) : List (List Char) :=
  [verb ++ ['d'], verb ++ ['e', 'd']] ++
    match verb.getLast? with
    | none => []
    | some last =>
      (verb ++ [last, 'e', 'd']) ::
        if last = 'y' then [verb.dropLast ++ ['i', 'e', 'd']] else []

/-- does `verbed` read as a past tense of `verb`, whatever the case of the letters? -/
def isPastTense (verbed verb : String) : Bool :=
  (pastTenses (lower verb.toList)).contains (lower verbed.toList)

example : isPastTense "baked" "Bake" ∧ isPastTense "sifted" "Sift" ∧ isPastTense "chopped" "Chop" ∧
    isPastTense "fried" "Fry" := by decide +kernel
example : lower "ΟΔΟΣ".toList = "οδος".toList := by decide +kernel

end Cookery
