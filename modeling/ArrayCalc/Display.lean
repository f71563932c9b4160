import ArrayCalc.Decimal.Layout
import ArrayCalc.Nested
import ArrayCalc.Noun
/-!
Nouns as text.

* `Display.element`: an element spelled as a numeral; `Noun.display`: a noun as a session shows it,
  the elements of a row side by side in columns, and one more empty line between planes for each
  further axis;
* `Noun.describe`: a noun spelled out for a programmer.
-/

namespace ArrayCalc

open Decimal

namespace Display

/-! ### Elements -/

/-- Decimals as numerals: an underscore for a minus sign, no mark for whole numbers, no plus and no
leading zeros in exponents, and one zero. -/
def numeralLayout : Layout where
  notANumber := ['_', '.']
  infinity := ['_']
  minus := ['_']
  plus := []
  wholeMark := []
  exponentWidth := 1
  signsZero := false

/-- Decimals spelled out: whole numbers keep their point, exponents have a sign and two digits. -/
def programLayout : Layout where
  notANumber := ['n', 'a', 'n']
  infinity := ['i', 'n', 'f']
  minus := ['-']
  plus := ['+']
  wholeMark := ['.', '0']
  exponentWidth := 2
  signsZero := true

/-- An integer with a minus sign of one's choice. -/
def integer (minus : List Char) (n : Int) : List Char :=
  if n < 0 then minus ++ Nat.toDigits 10 n.natAbs else Nat.toDigits 10 n.natAbs

/-- An element as a numeral. -/
def element : (k : Kind) → k.Elem → List Char
  | .boolean, b => (if b then ['1'] else ['0'] : List Char)
  | .integer, n => integer ['_'] (Int64.toInt n)
  | .decimal, x => numeralLayout.write x

/-- An element spelled out. -/
def program : (k : Kind) → k.Elem → List Char
  | .boolean, b => (if b then "True".toList else "False".toList : List Char)
  | .integer, n => integer ['-'] (Int64.toInt n)
  | .decimal, x => programLayout.write x

/-! ### Arrays -/

/-- A text moved to the right end of a column. -/
def flushRight (width : Nat) (text : List Char) : List Char :=
  List.replicate (width - text.length) ' ' ++ text

/-- The greatest length of some texts. -/
def width (texts : List (List Char)) : Nat := texts.foldr (fun t w => max t.length w) 0

/-- Texts along a shape: blanks between columns, and between the pieces along an axis as many line
ends as there are axes below it. -/
def cells : List Nat → List (List Char) → List Char
  | [], texts => texts.flatten
  | [_], texts => [' '].intercalate texts
  | e :: shape, texts =>
    (List.replicate shape.length '\n').intercalate ((cut (volume shape) e texts).map (cells shape))

/-- The elements of an array in columns of one width; a single element without axes stands alone. -/
def array (shape : List Nat) (texts : List (List Char)) : List Char :=
  if shape.isEmpty then texts.flatten
  else cells shape (texts.map (flushRight (width texts)))

/-- A noun of some kind. -/
def shaped (k : Kind) : Shaped k.Elem → List Char
  | .atom x => element k x
  | .array a => array a.shape (a.data.map (element k))

end Display

namespace Noun

open Display

/-- A noun as a session shows it. -/
def display (n : Noun) : String := String.ofList (shaped n.kind n.value)

/-- A noun spelled out for a programmer. -/
def describe (n : Noun) : String :=
  match n.value with
  | .atom x =>
    "Atom(kind=" ++ n.kind.name ++ ", value=" ++ String.ofList (program n.kind x) ++ ")"
  | .array a =>
    "ShapedArray(shape=" ++ Shape.tuple (Shape.extents a.shape) ++ ", kind=" ++ n.kind.name
      ++ ", data=["
      ++ ", ".intercalate (a.data.map fun x => String.ofList (program n.kind x)) ++ "])"

end Noun

end ArrayCalc
