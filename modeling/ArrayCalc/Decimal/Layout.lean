import ArrayCalc.Decimal.Shortest
/-!
Doubles as text.

* `Layout`: what is left open once the digits are known: how infinities and non-numbers are written,
  the minus sign, what marks a whole number, how an exponent is written, how far whole numbers are
  written out in full;
* `Layout.write`: a double laid out; positional when the decimal exponent is at least -4 and below
  16, with an exponent otherwise.
-/

namespace ArrayCalc.Decimal

/-- The choices of a way to write doubles. -/
structure Layout where
  notANumber : List Char
  infinity : List Char
  minus : List Char
  plus : List Char
  wholeMark : List Char
  exponentWidth : Nat
  signsZero : Bool

/-- A number in `width` digits or more. -/
def padded (width n : Nat) : List Char :=
  let ds := Nat.toDigits 10 n
  List.replicate (width - ds.length) '0' ++ ds

/-- The coefficient of a number without its trailing zeros. -/
def Scientific.significant (s : Scientific) : List Char :=
  (s.digits.reverse.dropWhile (· == '0')).reverse

/-- Where the decimal point stands, counted from before the first digit. -/
def Scientific.point (s : Scientific) : Int := s.digits.length + s.exponent

namespace Layout

/-- Digits written out in full, `point` of them before the decimal point. -/
def positional (l : Layout) (digits : List Char) (point : Int) : List Char :=
  if point ≤ 0 then '0' :: '.' :: List.replicate (-point).toNat '0' ++ digits
  else if digits.length ≤ point.toNat then
    digits ++ List.replicate (point.toNat - digits.length) '0' ++ l.wholeMark
  else digits.take point.toNat ++ '.' :: digits.drop point.toNat

/-- One digit, the others behind a point, and the exponent. -/
def exponential (l : Layout) (digits : List Char) (exponent : Int) : List Char :=
  let mantissa := match digits with
    | d :: r@(_ :: _) => d :: '.' :: r
    | ds => ds
  mantissa ++ 'e' :: (if exponent < 0 then l.minus else l.plus)
    ++ padded l.exponentWidth exponent.natAbs

/-- A nonzero number laid out. -/
def digits (l : Layout) (s : Scientific) : List Char :=
  let exponent := s.point - 1
  if -4 ≤ exponent ∧ exponent < 16 then l.positional s.significant s.point
  else l.exponential s.significant exponent

/-- A sign before a text. -/
def signed (l : Layout) (negative : Bool) (text : List Char) : List Char :=
  if negative then l.minus ++ text else text

/-- Whole numbers below this bound are written as integers. -/
def wholeBound : Nat := Nat.pow 10 16

/-- A double laid out.  Whole numbers below the bound are exact integers, whatever their digits. -/
def write (l : Layout) (x : Float) : List Char :=
  if x.isNaN then l.notANumber
  else if x.isInf then l.signed (isNegative x) l.infinity
  else
    match (Scaled.ofFloat x).whole? with
    | some n =>
      if n < wholeBound then
        l.signed (isNegative x && (l.signsZero || n != 0)) (Nat.toDigits 10 n ++ l.wholeMark)
      else l.signed (isNegative x) (l.digits (shortest x))
    | none => l.signed (isNegative x) (l.digits (shortest x))

end Layout

end ArrayCalc.Decimal
