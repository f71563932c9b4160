import ArrayCalc.Decimal.Scaled
/-!
The fewest digits that read back.

* `Scientific`: a number `coefficient * 10 ^ exponent`, and `Scientific.toFloat`: the double nearest
  to it;
* `Scientific.exact`: a binary fraction in full, which a power of five makes decimal;
* `Scientific.neighbours`: the two numbers around a number that have some digits less, the nearer
  first;
* `shortest`: the first of these, over more and more digits, that reads back as the double.
-/

namespace ArrayCalc.Decimal

/-- The number `coefficient * 10 ^ exponent`. -/
structure Scientific where
  coefficient : Nat
  exponent : Int
  deriving DecidableEq, Repr

namespace Scientific

/-- The double nearest to a number, infinite when it is too large. -/
def toFloat (s : Scientific) : Float :=
  Float.ofScientific s.coefficient (decide (s.exponent < 0)) s.exponent.natAbs

/-- A binary fraction in decimal, without rounding. -/
def exact (b : Scaled) : Scientific :=
  if 0 ≤ b.exponent then ⟨b.significand * Nat.pow 2 b.exponent.toNat, 0⟩
  else ⟨b.significand * Nat.pow 5 (-b.exponent).toNat, b.exponent⟩

/-- The decimal digits of the coefficient. -/
def digits (s : Scientific) : List Char := Nat.toDigits 10 s.coefficient

/-- The numbers next to a number from below and from above once its last `drop` digits are gone, the
nearer first and of two as near the one that ends in an even digit; only one number when nothing but
zeros is gone. -/
def neighbours (s : Scientific) (drop : Nat) : List Scientific :=
  let unit := Nat.pow 10 drop
  let low := s.coefficient / unit
  let rest := s.coefficient % unit
  let exponent := s.exponent + drop
  if rest = 0 then [⟨low, exponent⟩]
  else if 2 * rest < unit ∨ 2 * rest = unit ∧ low % 2 = 0 then
    [⟨low, exponent⟩, ⟨low + 1, exponent⟩]
  else [⟨low + 1, exponent⟩, ⟨low, exponent⟩]

end Scientific

/-- Seventeen digits are enough for every double. -/
def maxSignificant : Nat := 17

/-- The decimal number of fewest digits that reads back as the size of a finite double; of two with
as few digits, the nearer to it. -/
def shortest (x : Float) : Scientific :=
  let full := Scientific.exact (Scaled.ofFloat x)
  let count := full.digits.length
  let found := (List.range maxSignificant).findSome? fun n =>
    (full.neighbours (count - (n + 1))).find? fun s => decide (s.toFloat = x.abs)
  found.getD full

end ArrayCalc.Decimal
