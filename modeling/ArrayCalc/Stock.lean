import ArrayCalc.Decimal.Scaled
import ArrayCalc.Primitive
/-!
A stock of kernels for verbs defined outside the catalog.

* `Unary`, `Binary`: the kernels by name, as `Unary.run` and `Binary.run` for every kind of operand;
* `Noun.mapStock`, `Noun.zipStock`: such a kernel applied to nouns as they are, without matching
  their kinds first;
* `Unary.kernels`, `Binary.kernels`: one of them chosen for each kind.

Most are pointwise.  `left`, `right` and `zero` give back what they were shown, an atom as one lone
element, so that they do not fill an array of any other size.
-/

namespace ArrayCalc

/-- Kernels of one operand. -/
inductive Unary where
  | identity
  | negate
  | not
  | square
  | nonzero
  | decimal
  | zero
  deriving DecidableEq, Repr

/-- Kernels of two operands. -/
inductive Binary where
  | left
  | right
  | add
  | subtract
  | multiply
  | hundreds
  | maximum
  | minimum
  | equal
  | less
  | and
  | or
  | xor
  deriving DecidableEq, Repr

namespace Stock

open Primitive

/-! ### Rules for elements -/

/-- The sum within a kind; for booleans, whether one of them holds. -/
def sum : (k : Kind) → k.Elem → k.Elem → k.Elem
  | .boolean => fun a w => (a || w : Bool)
  | .integer => fun a w => (a + w : Int64)
  | .decimal => fun a w => (a + w : Float)

/-- A hundred times the first and the second. -/
def hundreds : (k : Kind) → k.Elem → k.Elem → (arithmetic k).Elem
  | .boolean => fun a w => (Kind.count a * 100 + Kind.count w : Int64)
  | .integer => fun a w => (a * 100 + w : Int64)
  | .decimal => fun a w => (a * 100 + w : Float)

/-- The order of elements; nothing is below or above what is not a number. -/
def less : (k : Kind) → k.Elem → k.Elem → Bool
  | .boolean => fun (a w : Bool) => !a && w
  | .integer => fun (a w : Int64) => decide (a < w)
  | .decimal => fun (a w : Float) => decide (a < w)

/-- The greater of two decimals: not a number if one of them is not, and zero before minus zero. -/
def greater (a w : Float) : Float :=
  if a.isNaN then a else if w.isNaN then w
  else if a < w then w else if w < a then a
  else if Decimal.isNegative a then w else a

/-- The lesser of two decimals: not a number if one of them is not, and minus zero before zero. -/
def lesser (a w : Float) : Float :=
  if a.isNaN then a else if w.isNaN then w
  else if a < w then a else if w < a then w
  else if Decimal.isNegative a then a else w

/-- The greater of two elements of one kind. -/
def maximum : (k : Kind) → k.Elem → k.Elem → k.Elem
  | .boolean => fun a w => (a || w : Bool)
  | .integer => fun (a w : Int64) => if a < w then w else a
  | .decimal => greater

/-- The lesser of two elements of one kind. -/
def minimum : (k : Kind) → k.Elem → k.Elem → k.Elem
  | .boolean => fun a w => (a && w : Bool)
  | .integer => fun (a w : Int64) => if w < a then w else a
  | .decimal => lesser

/-- A rule for two elements of one kind, used on elements of any two kinds. -/
def promoted (result : Kind → Kind) (f : (k : Kind) → k.Elem → k.Elem → (result k).Elem)
    (j k : Kind) : Run j.Elem → Run k.Elem → Run (result (Kind.join j k)).Elem :=
  Run.both fun a w =>
    f _ (Kind.widen (Kind.le_join_left j k) a) (Kind.widen (Kind.le_join_right j k) w)

end Stock

open Stock

/-! ### Kernels -/

namespace Unary

/-- The kind of the results. -/
def result : Unary → Kind → Kind
  | identity, k | square, k => k
  | negate, k => Primitive.arithmetic k
  | not, _ | nonzero, _ => .boolean
  | decimal, _ => .decimal
  | zero, _ => .integer

/-- The kernel at one kind. -/
def run : (u : Unary) → (k : Kind) → Run k.Elem → Run (u.result k).Elem
  | identity, _ => Run.each id
  | negate, k => Run.each (Primitive.negate k)
  | not, k => Run.each fun x => !k.truth x
  | square, k => Run.each fun x => Primitive.multiply k x x
  | nonzero, k => Run.each k.truth
  | decimal, k => Run.each (Primitive.asDecimal k)
  | zero, _ => fun _ => .lone (0 : Int64)

/-- One of the stock for each kind. -/
def kernels (choice : Kind → Unary) : MonadicKernels :=
  ⟨fun k => (choice k).result k, fun k => (choice k).run k⟩

end Unary

namespace Binary

/-- The kind of the results. -/
def result : Binary → Kind → Kind → Kind
  | left, j, _ => j
  | right, _, k => k
  | add, j, k | multiply, j, k | maximum, j, k | minimum, j, k => Kind.join j k
  | subtract, j, k | hundreds, j, k => Primitive.arithmetic (Kind.join j k)
  | equal, _, _ | less, _, _ | and, _, _ | or, _, _ | xor, _, _ => .boolean

/-- The kernel at two kinds. -/
def run : (b : Binary) → (j k : Kind) → Run j.Elem → Run k.Elem → Run (b.result j k).Elem
  | left, _, _ => fun a _ => a
  | right, _, _ => fun _ w => w
  | add, j, k => promoted id Stock.sum j k
  | subtract, j, k => promoted Primitive.arithmetic Primitive.subtract j k
  | multiply, j, k => promoted id Primitive.multiply j k
  | hundreds, j, k => promoted Primitive.arithmetic Stock.hundreds j k
  | maximum, j, k => promoted id Stock.maximum j k
  | minimum, j, k => promoted id Stock.minimum j k
  | equal, j, k => promoted (fun _ => .boolean) Primitive.equal j k
  | less, j, k => promoted (fun _ => .boolean) Stock.less j k
  | and, j, k => Run.both fun a w => j.truth a && k.truth w
  | or, j, k => Run.both fun a w => j.truth a || k.truth w
  | xor, j, k => Run.both fun a w => j.truth a != k.truth w

/-- One of the stock for each kind, both operands being of it. -/
def kernels (choice : Kind → Binary) : DyadicKernels :=
  ⟨fun k => (choice k).result k k, fun k => (choice k).run k k⟩

end Binary

/-! ### Kernels on nouns as they are -/

namespace Noun

/-- A kernel applied to the elements of a noun. -/
def mapStock (u : Unary) (n : Noun) : Except Error Noun :=
  ((n.value.mapRun (u.run n.kind)).map fun v => ⟨u.result n.kind, v⟩).mapError Error.shape

/-- A kernel applied to two nouns: atoms meet every element, arrays must agree. -/
def zipStock (b : Binary) (l r : Noun) : Except Error Noun :=
  ((l.value.zipRun (b.run l.kind r.kind) r.value).map fun v =>
    ⟨b.result l.kind r.kind, v⟩).mapError Error.shape

end Noun

end ArrayCalc
