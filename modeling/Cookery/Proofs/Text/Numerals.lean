import Cookery.Proofs.Lists
import Cookery.Text.Digits

/-!
# Numbers written and read

* `digitRun?_append`    a run of digits is read up to the first character that is none;
* `numeral`             the digits of a number, `numberOf_numeral` reads them back;
* `countOf_numeral`     so does the reading of counts, up to the largest one.
-/

namespace Cookery

/-! ## runs of digits -/

/-- a text does not start with a digit -/
def NoDigitFirst (r : List Char) : Prop := ∀ c ∈ r.head?, isDigit c = false

theorem noDigitFirst_cons {c : Char} (h : isDigit c = false) (r : List Char) :
    NoDigitFirst (c :: r) :=
  forall_mem_head_cons (isDigit · = false) h r

theorem digitRun?_append {ds r : List Char} (hne : ds ≠ []) (hds : ∀ d ∈ ds, isDigit d = true)
    (hr : NoDigitFirst r) : digitRun? (ds ++ r) = some (ds, r) := by
  unfold digitRun?
  rw [takeWhile_run hds hr, dropWhile_run hds hr]
  cases ds with
  | nil => exact absurd rfl hne
  | cons d ds => rfl

theorem isDigit_of_digitRun? {cs ds r : List Char} (h : digitRun? cs = some (ds, r)) :
    ∀ d ∈ ds, isDigit d = true := by
  intro d hd
  obtain ⟨rfl, _, _⟩ := digitRun?_eq_some h
  exact of_mem_takeWhile hd

/-! ## the digits of a number -/

def numeral (n : Nat) : List Char := (toString n).toList

theorem numeral_eq (n : Nat) : numeral n = Nat.toDigits 10 n := by
  show n.repr.toList = _
  exact Nat.toList_repr

theorem numeral_ne_nil (n : Nat) : numeral n ≠ [] := by
  rw [numeral_eq]
  exact Nat.toDigits_ne_nil

theorem isDigit_of_mem_numeral {n : Nat} {c : Char} (h : c ∈ numeral n) : isDigit c = true := by
  rw [numeral_eq] at h
  have hc := Nat.isDigit_of_mem_toDigits (by omega) (by omega) h
  simp only [Char.isDigit, Bool.and_eq_true, decide_eq_true_eq] at hc
  simp only [isDigit, Bool.and_eq_true, decide_eq_true_eq]
  exact hc

theorem newline_not_mem_numeral (n : Nat) : '\n' ∉ numeral n := by
  intro h
  exact absurd (isDigit_of_mem_numeral h) (by decide)

theorem numberOf_numeral (n : Nat) : numberOf (numeral n) = n := by
  rw [numeral_eq]
  exact Nat.ofDigitChars_ten_toDigits

theorem countOf_numeral {n : Nat} (h : n ≤ countMax) : countOf (numeral n) = n := by
  rw [countOf, numberOf_numeral]
  exact Nat.min_eq_left h

theorem digitRun?_numeral_append (n : Nat) {r : List Char} (hr : NoDigitFirst r) :
    digitRun? (numeral n ++ r) = some (numeral n, r) :=
  digitRun?_append (numeral_ne_nil n) (fun _ h => isDigit_of_mem_numeral h) hr

end Cookery
