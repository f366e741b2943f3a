/-!
# Numbers written in decimal digits

* `digitRun?`   the longest run of digits at the start of a text, if it is not empty;
* `numberOf`    the number that a run of digits writes;
* `countOf`     the same, held at `countMax`, which is `2^64 - 1`, when it is larger.
-/

namespace Cookery

def isDigit (c : Char) : Bool := '0' ≤ c && c ≤ '9'

def digitOf (c : Char) : Nat := c.toNat - '0'.toNat

def numberOf (ds : List Char) : Nat := ds.foldl (fun n d => 10 * n + digitOf d) 0

/-- the largest count: servings, minutes, ordinals and loop limits go no further -/
def countMax : Nat := 0xFFFFFFFFFFFFFFFF

/-- a count too large to be held is held at the largest one -/
def countOf (ds : List Char) : Nat := min (numberOf ds) countMax

theorem countOf_le (ds : List Char) : countOf ds ≤ countMax := Nat.min_le_right _ _

/-- the digits at the start of a text, at least one, and what follows them -/
def digitRun? (cs : List Char) : Option (List Char × List Char) :=
  match cs.takeWhile isDigit with
  | [] => none
  | ds => some (ds, cs.dropWhile isDigit)

theorem digitRun?_eq_some {cs ds r : List Char} (h : digitRun? cs = some (ds, r)) :
    ds = cs.takeWhile isDigit ∧ r = cs.dropWhile isDigit ∧ ds ≠ [] := by
  unfold digitRun? at h
  split at h
  · cases h
  · rename_i hne
    obtain ⟨rfl, rfl⟩ := Prod.mk.inj (Option.some.inj h)
    exact ⟨rfl, rfl, fun e => hne e⟩

/-- the run and the rest make up the text -/
theorem append_of_digitRun? {cs ds r : List Char} (h : digitRun? cs = some (ds, r)) :
    cs = ds ++ r := by
  obtain ⟨rfl, rfl, _⟩ := digitRun?_eq_some h
  exact List.takeWhile_append_dropWhile.symm

end Cookery
