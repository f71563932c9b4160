import ArrayCalc.Decimal.Shortest
import ArrayCalc.Error
import ArrayCalc.Noun
/-!
Numerals.

* `Numeral`: the parts of a numeral as it is spelled: a sign, whole digits, a fraction, an exponent;
  `Numeral.split`: a text taken apart into them;
* `readNumeral`: the integer or decimal that a text stands for;
* `readAtom`, `readVector`, `numberLiteral`: nouns from one numeral, from a list of them, and from a
  word.

A sign is an underscore, before the number and before its exponent.  A lone underscore is infinity,
two are minus infinity.  A text without point and exponent is an integer.
-/

namespace ArrayCalc

open Lexer

/-- A numeral as it is spelled; an exponent is a sign and digits. -/
structure Numeral where
  negative : Bool
  whole : List Char
  fraction : Option (List Char)
  exponent : Option (Bool × List Char)
  deriving DecidableEq, Repr

namespace Numeral

/-- An underscore at the front, and what follows it. -/
def takeSign : List Char → Bool × List Char
  | '_' :: r => (true, r)
  | r => (false, r)

/-- The digits at the front. -/
def takeDigits (s : List Char) : List Char × List Char := s.span Char.isDigit

/-- A point with the digits behind it, if there is one. -/
def takeFraction : List Char → Option (List Char) × List Char
  | '.' :: r => let (ds, r) := takeDigits r; (some ds, r)
  | r => (none, r)

/-- An exponent, if there is one with a digit. -/
def takeExponent (s : List Char) : Option (Bool × List Char) × List Char :=
  match s with
  | c :: r =>
    if c = 'e' ∨ c = 'E' then
      let (negative, r) := takeSign r
      let (ds, r) := takeDigits r
      if ds = [] then (none, s) else (some (negative, ds), r)
    else (none, s)
  | [] => (none, s)

/-- A text taken apart, and what is left of it. -/
def split (s : List Char) : Numeral × List Char :=
  let (negative, r) := takeSign s
  let (whole, r) := takeDigits r
  let (fraction, r) := takeFraction r
  let (exponent, r) := takeExponent r
  (⟨negative, whole, fraction, exponent⟩, r)

/-- There is a digit before the exponent. -/
def hasDigits (n : Numeral) : Bool := !n.whole.isEmpty || !(n.fraction.getD []).isEmpty

/-- The numeral that a text spells; one line end after it does not count. -/
def ofText? (s : List Char) : Option Numeral :=
  let (n, rest) := split s
  if n.hasDigits ∧ (rest = [] ∨ rest = ['\n']) then some n else none

/-- The number that digits spell. -/
def number (ds : List Char) : Nat := Nat.ofDigitChars 10 ds 0

/-- The size of a decimal: its digits as one number, and a power of ten. -/
def scientific (n : Numeral) : Decimal.Scientific :=
  let fraction := n.fraction.getD []
  let shift : Int :=
    match n.exponent with
    | some (true, ds) => -(number ds : Int)
    | some (false, ds) => number ds
    | none => 0
  ⟨number (n.whole ++ fraction), shift - fraction.length⟩

/-- The decimal nearest to a numeral. -/
def decimal (n : Numeral) : Float :=
  if n.negative then -n.scientific.toFloat else n.scientific.toFloat

/-- The integer that a numeral without point and exponent spells. -/
def integer (n : Numeral) : Int := if n.negative then -(number n.whole : Int) else number n.whole

end Numeral

/-- Infinity, as a double. -/
def infinity : Float := 1 / 0

/-- The integer or decimal that a text stands for. -/
def readNumeral (text : String) : Except NumeralError Element :=
  if text = "_" then .ok ⟨.decimal, infinity⟩
  else if text = "__" then .ok ⟨.decimal, -infinity⟩
  else
    match Numeral.ofText? text.toList with
    | none => .error (.malformed text)
    | some n =>
      if n.fraction.isSome || n.exponent.isSome then .ok ⟨.decimal, n.decimal⟩
      else if maxDigits < n.whole.length then .error (.tooLong n.whole.length)
      else if Int64.minValue.toInt ≤ n.integer ∧ n.integer ≤ Int64.maxValue.toInt then
        .ok ⟨.integer, Int64.ofInt n.integer⟩
      else .error (.outOfRange text)

/-- A numeral, or the failure to read it. -/
def readLiteral (text : String) : Except Failure Element :=
  (readNumeral text).mapError fun e => ⟨.literal text, [.numeral e]⟩

/-- The atom that a numeral stands for. -/
def readAtom (text : String) : Except Failure Noun := do
  let e ← readLiteral text
  return .atom e.kind e.value

/-- The higher of the kinds of numerals, integer if there are none. -/
def commonNumeralKind (es : List Element) : Kind :=
  es.foldr (fun e k => Kind.join e.kind k) .integer

theorem kind_le_commonNumeralKind {e : Element} {es : List Element} (h : e ∈ es) :
    e.kind ≤ commonNumeralKind es := by
  induction es with
  | nil => cases h
  | cons d es ih =>
    rcases List.mem_cons.1 h with rfl | h
    · exact Kind.le_join_left _ _
    · exact Kind.le_trans (ih h) (Kind.le_join_right _ _)

/-- The list that numerals stand for, all at the highest of their kinds. -/
def readVector (texts : List String) : Except Failure Noun := do
  let es ← texts.mapM readLiteral
  let xs := es.attach.map fun e => Kind.widen (kind_le_commonNumeralKind e.2) e.1.value
  return .array (commonNumeralKind es) ⟨[xs.length], xs, by simp⟩

/-- The noun of a numeral word: an atom if it has one part, a list otherwise. -/
def numberLiteral (t : Token) : Except Failure Noun :=
  if t.kind ≠ .number then .error (.plain (.notNumber t.kind))
  else
    match t.parts with
    | [text] => readAtom text
    | texts => readVector texts

end ArrayCalc
