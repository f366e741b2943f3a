/-!
# The lines of a text

A line ends at a line feed, and a carriage return right before that line feed belongs to the line
end.  Any other carriage return belongs to its line.  The text after the last line feed is a line
only if there is some.

* `unifyLineEnds`  writes every line end as a single line feed;
* `splitLines`     the pieces between the line feeds;
* `textLines`      the lines of a text.
-/

namespace Cookery

/-- a carriage return and a line feed become a line feed, in one pass -/
def unifyLineEnds : List Char → List Char
  | '\r' :: '\n' :: cs => '\n' :: unifyLineEnds cs
  | c :: cs => c :: unifyLineEnds cs
  | [] => []

/-- a character in front of the first of some lines -/
def consLine (c : Char) : List (List Char) → List (List Char)
  | [] => [[c]]
  | l :: ls => (c :: l) :: ls

def splitLines : List Char → List (List Char)
  | [] => []
  | c :: cs => if c = '\n' then [] :: splitLines cs else consLine c (splitLines cs)

def textLines (text : String) : List String :=
  (splitLines (unifyLineEnds text.toList)).map String.ofList

/-! ## what the lines are -/

theorem splitLines_nil : splitLines [] = [] := rfl

theorem splitLines_newline (cs : List Char) : splitLines ('\n' :: cs) = [] :: splitLines cs := rfl

/-- a line and its line feed come off the front -/
theorem splitLines_append_newline {l : List Char} (h : '\n' ∉ l) (cs : List Char) :
    splitLines (l ++ '\n' :: cs) = l :: splitLines cs := by
  induction l with
  | nil => rfl
  | cons c l ih =>
    simp only [List.mem_cons, not_or] at h
    rw [List.cons_append, splitLines, if_neg (Ne.symm h.1), ih h.2, consLine]

/-- a last line needs no line feed -/
theorem splitLines_last {l : List Char} (h : '\n' ∉ l) (hne : l ≠ []) : splitLines l = [l] := by
  induction l with
  | nil => exact (hne rfl).elim
  | cons c l ih =>
    simp only [List.mem_cons, not_or] at h
    rw [splitLines, if_neg (Ne.symm h.1)]
    cases l with
    | nil => rfl
    | cons d l => rw [ih h.2 (by simp), consLine]

/-- no line holds a line feed -/
theorem not_mem_of_mem_splitLines {cs l : List Char} (h : l ∈ splitLines cs) : '\n' ∉ l := by
  induction cs generalizing l with
  | nil => simp [splitLines] at h
  | cons c cs ih =>
    rw [splitLines] at h
    split at h
    · rcases List.mem_cons.1 h with rfl | h
      · simp
      · exact ih h
    · rename_i hc
      cases hs : splitLines cs with
      | nil =>
        rw [hs, consLine, List.mem_singleton] at h
        simp [h, Ne.symm hc]
      | cons k ks =>
        rw [hs] at ih h
        rw [consLine] at h
        rcases List.mem_cons.1 h with rfl | h
        · simp [Ne.symm hc, ih List.mem_cons_self]
        · exact ih (List.mem_cons_of_mem _ h)

end Cookery
