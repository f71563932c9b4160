import ArrayCalc.Decimal.Scaled
/-!
Doubles in narrower storage.

* `Precision`: how many significant bits are kept, the finest unit, and the first power of two that
  does not fit;
* `narrowed`: the number of that precision nearest to a double, of two the one with an even
  significand.
-/

namespace ArrayCalc.Decimal

/-- A binary storage format: significant bits, exponent of the finest unit, exponent of the first
power of two out of range. -/
structure Precision where
  bits : Nat
  least : Int
  top : Int

namespace Precision

/-- Half precision. -/
def half : Precision := ⟨11, -24, 16⟩

/-- Half precision with the range of single precision. -/
def brain : Precision := ⟨8, -133, 128⟩

/-- Single precision. -/
def single : Precision := ⟨24, -149, 128⟩

end Precision

/-- A quotient rounded to the nearest integer, a half to the even neighbour. -/
def divideToEven (n d : Nat) : Nat :=
  let q := n / d
  let r := n % d
  if 2 * r < d then q else if d < 2 * r then q + 1 else q + q % 2

/-- A power of two in the normal range of doubles. -/
def powerOfTwo (e : Int) : Float := Float.ofBits (UInt64.ofNat ((e + 1023).toNat * Nat.pow 2 52))

/-- Plus or minus a double. -/
def withSign (negative : Bool) (x : Float) : Float := if negative then -x else x

/-- A double rounded to a precision; what is out of range becomes infinite. -/
def narrowed (p : Precision) (x : Float) : Float :=
  if x.isNaN || x.isInf then x
  else
    let b := Scaled.ofFloat x
    let unit := max (b.exponent + (b.significand.log2 + 1 : Nat) - p.bits) p.least
    let n :=
      if unit ≤ b.exponent then b.significand * Nat.pow 2 (b.exponent - unit).toNat
      else divideToEven b.significand (Nat.pow 2 (unit - b.exponent).toNat)
    if Nat.pow 2 (p.top - unit).toNat ≤ n ∧ n ≠ 0 then withSign (isNegative x) (1 / 0)
    else withSign (isNegative x) (Float.ofNat n * powerOfTwo unit)

end ArrayCalc.Decimal
