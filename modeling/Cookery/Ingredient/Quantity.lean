/-!
# Quantities: whole numbers that fit into 64 bits with a sign

A quantity is a whole number from `-2^63` to `2^63 - 1`.  Arithmetic does not wrap around: an
operation whose result does not fit has no result.

* `Quantity.ofInt?`   a number as a quantity, if it fits;
* `times?`, `pred?`   the product of two quantities, and one less.
-/

namespace Cookery

structure Quantity where
  val : Int
  least : -0x8000000000000000 ≤ val
  most : val ≤ 0x7FFFFFFFFFFFFFFF
deriving DecidableEq

namespace Quantity

def ofInt? (n : Int) : Option Quantity :=
  if h : -0x8000000000000000 ≤ n ∧ n ≤ 0x7FFFFFFFFFFFFFFF then some ⟨n, h.1, h.2⟩ else none

theorem ofInt?_eq_some_iff {n : Int} {q : Quantity} : ofInt? n = some q ↔ q.val = n := by
  unfold ofInt?
  split
  · rw [Option.some.injEq]
    exact ⟨fun h => h ▸ rfl, fun h => by cases q; cases h; rfl⟩
  · rename_i h
    exact ⟨nofun, fun e => (h (e ▸ ⟨q.least, q.most⟩)).elim⟩

theorem ofInt?_val (q : Quantity) : ofInt? q.val = some q := ofInt?_eq_some_iff.2 rfl

/-- the product, if it fits -/
def times? (a b : Quantity) : Option Quantity := ofInt? (a.val * b.val)

/-- one less, if it fits -/
def pred? (a : Quantity) : Option Quantity := ofInt? (a.val - 1)

/-- the character whose code point is the quantity; surrogates are no characters -/
def char? (q : Quantity) : Option Char :=
  if 0 ≤ q.val ∧ q.val.toNat.isValidChar then some (Char.ofNat q.val.toNat) else none

end Quantity

end Cookery
