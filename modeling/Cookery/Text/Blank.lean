/-!
# Blanks: the characters that separate words, and trimming

The blanks are the code points with the property White_Space: the ASCII controls from the tab to
the carriage return, the space, U+0085, U+00A0, and the separators further up.

* `isBlank`     the class of a character;
* `trim`        a text without the blanks at its two ends;
* `isBlankText` nothing is left after trimming.
-/

namespace Cookery

/-- the ranges of code points that are blanks, in ascending order -/
def blankRanges : List (Nat × Nat) :=
  [(0x09, 0x0D), (0x20, 0x20), (0x85, 0x85), (0xA0, 0xA0), (0x1680, 0x1680), (0x2000, 0x200A),
    (0x2028, 0x2029), (0x202F, 0x202F), (0x205F, 0x205F), (0x3000, 0x3000)]

/-- does a code point lie in one of the ranges? -/
def inRanges (ranges : List (Nat × Nat)) (n : Nat) : Bool :=
  ranges.any fun r => r.1 ≤ n && n ≤ r.2

def isBlank (c : Char) : Bool := inRanges blankRanges c.toNat

/-- every character of the ASCII whitespace class is a blank -/
theorem isBlank_of_isWhitespace {c : Char} (h : c.isWhitespace = true) : isBlank c = true := by
  simp only [Char.isWhitespace, Bool.or_eq_true, decide_eq_true_eq] at h
  rcases h with ((rfl | rfl) | rfl) | rfl <;> decide

/-! ## trimming -/

def trimStart (cs : List Char) : List Char := cs.dropWhile isBlank
def trimEnd (cs : List Char) : List Char := (cs.reverse.dropWhile isBlank).reverse
def trim (cs : List Char) : List Char := trimEnd (trimStart cs)

def isBlankText (cs : List Char) : Bool := cs.all isBlank

theorem trimStart_cons_of_blank {c : Char} (h : isBlank c = true) (cs : List Char) :
    trimStart (c :: cs) = trimStart cs := by
  rw [trimStart, List.dropWhile_cons, if_pos h, trimStart]

theorem trimStart_cons_of_not_blank {c : Char} (h : isBlank c = false) (cs : List Char) :
    trimStart (c :: cs) = c :: cs := by
  rw [trimStart, List.dropWhile_cons, h]
  rfl

theorem isBlankText_cons (c : Char) (cs : List Char) :
    isBlankText (c :: cs) = (isBlank c && isBlankText cs) := rfl

theorem trimStart_eq_nil_iff (cs : List Char) : trimStart cs = [] ↔ isBlankText cs = true := by
  induction cs with
  | nil => exact ⟨fun _ => rfl, fun _ => rfl⟩
  | cons c cs ih =>
    cases h : isBlank c with
    | true => rw [trimStart_cons_of_blank h, ih, isBlankText_cons, h, Bool.true_and]
    | false => simp [trimStart_cons_of_not_blank h, isBlankText_cons, h]

theorem trimEnd_eq_nil_iff (cs : List Char) : trimEnd cs = [] ↔ isBlankText cs = true := by
  have h := trimStart_eq_nil_iff cs.reverse
  rw [isBlankText, List.all_reverse] at h
  rw [trimEnd, List.reverse_eq_nil_iff]
  exact h

theorem isBlankText_trimStart (cs : List Char) :
    isBlankText (trimStart cs) = isBlankText cs := by
  induction cs with
  | nil => rfl
  | cons c cs ih =>
    cases h : isBlank c with
    | true => rw [trimStart_cons_of_blank h, ih, isBlankText_cons, h, Bool.true_and]
    | false => rw [trimStart_cons_of_not_blank h]

/-- a text is blank exactly when trimming leaves nothing -/
theorem trim_eq_nil_iff (cs : List Char) : trim cs = [] ↔ isBlankText cs = true := by
  rw [trim, trimEnd_eq_nil_iff, isBlankText_trimStart]

end Cookery
