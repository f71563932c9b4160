/-!
Doubles as exact binary fractions.

* `Scaled`: a number `significand * 2 ^ exponent`;
* `Scaled.ofFloat`: the size of a finite double, exactly; `isNegative`: its sign bit;
* `Scaled.whole?`: the number itself, if it is a whole one; `Scaled.truncated`: its whole part.
-/

namespace ArrayCalc.Decimal

/-- The number `significand * 2 ^ exponent`. -/
structure Scaled where
  significand : Nat
  exponent : Int
  deriving DecidableEq, Repr

/-- The sign bit of a double; a negative zero has it. -/
def isNegative (x : Float) : Bool := Nat.pow 2 63 ≤ x.toBits.toNat

namespace Scaled

/-- The size of a finite double.  The eleven exponent bits are biased by 1075 once the significand
counts as an integer; when they are all zero, the leading bit of the significand is missing. -/
def ofFloat (x : Float) : Scaled :=
  let bits : Nat := x.toBits.toNat
  let field : Nat := bits / Nat.pow 2 52 % Nat.pow 2 11
  let low : Nat := bits % Nat.pow 2 52
  if field = 0 then ⟨low, -1074⟩ else ⟨Nat.pow 2 52 + low, (field : Int) - 1075⟩

/-- The whole part of a number. -/
def truncated (b : Scaled) : Nat :=
  if 0 ≤ b.exponent then b.significand * Nat.pow 2 b.exponent.toNat
  else b.significand / Nat.pow 2 (-b.exponent).toNat

/-- The number itself, provided it is whole. -/
def whole? (b : Scaled) : Option Nat :=
  if 0 ≤ b.exponent ∨ b.significand % Nat.pow 2 (-b.exponent).toNat = 0 then some b.truncated
  else none

end Scaled

end ArrayCalc.Decimal
