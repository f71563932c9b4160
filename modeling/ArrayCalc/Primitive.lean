import ArrayCalc.Verb
/-!
The primitive verbs.

* `primitives`: the ten verbs `+ - * % = *. | i. [ ]` in the order of registration;
* `Registry.standard`: their registry.

Booleans count as one and zero where they are added, subtracted or negated.  Integer arithmetic
wraps, so that the least integer is its own negative and its own magnitude.  Division is always that
of decimals.  The sign of a decimal is an integer.
-/

namespace ArrayCalc

namespace Primitive

/-- Sums and differences of booleans are integers. -/
def arithmetic : Kind → Kind
  | .boolean => .integer
  | k => k

/-- The sign of a decimal is an integer. -/
def signKind : Kind → Kind
  | .decimal => .integer
  | k => k

/-- An element of any kind as a decimal. -/
def asDecimal (k : Kind) (x : k.Elem) : Float :=
  Kind.widen (b := .decimal) (by cases k <;> decide) x

/-! ### Rules for elements -/

/-- The sum. -/
def add : (k : Kind) → k.Elem → k.Elem → (arithmetic k).Elem
  | .boolean => fun a w => (Kind.count a + Kind.count w : Int64)
  | .integer => fun a w => (a + w : Int64)
  | .decimal => fun a w => (a + w : Float)

/-- The difference. -/
def subtract : (k : Kind) → k.Elem → k.Elem → (arithmetic k).Elem
  | .boolean => fun a w => (Kind.count a - Kind.count w : Int64)
  | .integer => fun a w => (a - w : Int64)
  | .decimal => fun a w => (a - w : Float)

/-- The product; of booleans, whether both hold. -/
def multiply : (k : Kind) → k.Elem → k.Elem → k.Elem
  | .boolean => fun a w => (a && w : Bool)
  | .integer => fun a w => (a * w : Int64)
  | .decimal => fun a w => (a * w : Float)

/-- The quotient as a decimal; a division by zero is infinite or not a number. -/
def divide (k : Kind) (a w : k.Elem) : Float := asDecimal k a / asDecimal k w

/-- Whether elements are equal; what is not a number equals nothing. -/
def equal : (k : Kind) → k.Elem → k.Elem → Bool
  | .boolean => fun a w => (a == w : Bool)
  | .integer => fun (a w : Int64) => a == w
  | .decimal => fun (a w : Float) => a == w

/-- Whether both elements are nonzero. -/
def both (k : Kind) (a w : k.Elem) : Bool := k.truth a && k.truth w

/-- The negative. -/
def negate : (k : Kind) → k.Elem → (arithmetic k).Elem
  | .boolean => fun w => (-Kind.count w : Int64)
  | .integer => fun w => (-w : Int64)
  | .decimal => fun w => (-w : Float)

/-- One, zero or minus one; what is not a number has the sign of zero. -/
def sign : (k : Kind) → k.Elem → (signKind k).Elem
  | .boolean => fun w => w
  | .integer => fun w => (if 0 < w then 1 else if w < 0 then -1 else 0 : Int64)
  | .decimal => fun w => (if (0 : Float) < w then 1 else if w < (0 : Float) then -1 else 0 : Int64)

/-- One divided by an element. -/
def reciprocal (k : Kind) (w : k.Elem) : Float := 1 / asDecimal k w

/-- The element without its sign. -/
def magnitude : (k : Kind) → k.Elem → k.Elem
  | .boolean => fun w => w
  | .integer => fun w => (if w < 0 then -w else w : Int64)
  | .decimal => Float.abs

/-! ### Counting up -/

/-- The extents that a noun asks for: an atom asks for one axis, a list for one axis per element. -/
def extents (n : Noun) : Except Error (List Int) :=
  if h : n.kind ≤ .integer then
    match n.value.map (Kind.widen h) with
    | .atom x => .ok [Int64.toInt x]
    | .array a =>
      if a.rank = 1 then .ok (a.data.map Int64.toInt) else .error (.domain (.extentsRank a.rank))
  else .error (.domain .fractionalExtents)

/-- The numbers from zero on in an array of the shape asked for. -/
def iota (limit : Nat) : MonadicRule := fun n => do
  let shape ← extents n
  if shape.any (· < 0) then throw (.domain (.negativeExtents shape))
  return .array .integer (← Dense.iota limit shape)

end Primitive

open Primitive

/-- The primitive verbs, with the most elements that `i.` may make. -/
def primitives (limit : Nat) : List Verb :=
  [{ symbol := "+"
     monad := some (monadic (.pointwise id fun _ w => w))
     dyad := some <| .both (dyadic (.pointwise arithmetic add)) },
   { symbol := "-"
     monad := some (monadic (.pointwise arithmetic negate))
     dyad := some <| .both (dyadic (.pointwise arithmetic subtract)) },
   { symbol := "*"
     monad := some (monadic (.pointwise signKind sign))
     dyad := some <| .both (dyadic (.pointwise id multiply)) },
   { symbol := "%"
     monad := some (monadic (.pointwise (fun _ => .decimal) reciprocal))
     dyad := some <| .both (dyadic (.pointwise (fun _ => .decimal) divide)) },
   { symbol := "="
     dyad := some <| .both (dyadic (.pointwise (fun _ => .boolean) equal)) },
   { symbol := "*."
     dyad := some <| .both fun l r =>
       dyadic (.pointwise (fun _ => .boolean) both) l.truth r.truth },
   { symbol := "|"
     monad := some (monadic (.pointwise id magnitude)) },
   { symbol := "i."
     monad := some (iota limit) },
   { symbol := "["
     monad := some .ok
     dyad := some (.one .left) },
   { symbol := "]"
     monad := some .ok
     dyad := some (.one .right) }]

/-- How many elements `i.` may make unless told otherwise. -/
def defaultLimit : Nat := Nat.pow 2 27

/-- The registry of the primitive verbs. -/
def Registry.standard (limit : Nat) : Registry := ⟨primitives limit, by
  simp only [primitives, List.map]; decide⟩

end ArrayCalc
