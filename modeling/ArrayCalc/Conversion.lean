import ArrayCalc.Decimal.Narrow
import ArrayCalc.Nested
import ArrayCalc.Noun
/-!
Loose values made into nouns.

* `Loose`: a value as it is written down, before it has a kind;
* `Storage`: the formats in which elements may be stored outside, and the kind of each;
* `Target.convert`: a loose value as an element of a kind, directly or by way of a storage format;
* `Noun.ofAtom`, `Noun.ofArray`: nouns from loose values;
* `Noun.ofValues`: an array from nested values alone, its kind the highest that occurs.
-/

namespace ArrayCalc

/-- A value as it is written down: missing, a truth value, an integer of any size, a double. -/
inductive Loose where
  | missing
  | boolean (b : Bool)
  | integer (n : Int)
  | decimal (x : Float)

/-! ### Single values -/

namespace Loose

/-- An integer, provided that it fits into 64 bits. -/
def fit (n : Int) : Except Error Int64 :=
  if Int64.minValue.toInt ≤ n ∧ n ≤ Int64.maxValue.toInt then .ok (Int64.ofInt n)
  else .error .unrepresentable

/-- A double without its fraction; infinities have no whole part, and what is not a number cannot be
read as one. -/
def truncate (x : Float) : Except Error Int :=
  if x.isNaN then .error .unreadable
  else if x.isInf then .error .unrepresentable
  else
    let n : Int := (Decimal.Scaled.ofFloat x).truncated
    .ok (if Decimal.isNegative x then -n else n)

/-- The double nearest to an integer, provided that there is a finite one. -/
def nearest (n : Int) : Except Error Float :=
  let x := Float.ofInt n
  if x.isInf then .error .unrepresentable else .ok x

/-- A value as an integer of any size. -/
def asInteger : Loose → Except Error Int
  | missing => .error .unreadable
  | boolean b => .ok (if b then 1 else 0)
  | integer n => .ok n
  | decimal x => truncate x

/-- A value as a double. -/
def asDecimal : Loose → Except Error Float
  | missing => .error .unreadable
  | boolean b => .ok (if b then 1 else 0)
  | integer n => nearest n
  | decimal x => .ok x

/-- A value as an element of a kind: decimals lose their fraction, and what is nonzero is true. -/
def convert : (k : Kind) → Loose → Except Error k.Elem
  | .boolean, missing => .error .unreadable
  | .boolean, boolean b => .ok b
  | .boolean, integer n => .ok (n != 0)
  | .boolean, decimal x => .ok (Kind.truth .decimal x)
  | .integer, v => do fit (← v.asInteger)
  | .decimal, v => v.asDecimal

/-- The kind that values need together: the highest that occurs, and decimal if there are none. -/
def commonKind : List Loose → Kind
  | [] => .decimal
  | vs =>
    if vs.any fun v => v matches decimal _ then .decimal
    else if vs.any fun v => v matches integer _ then .integer
    else .boolean

end Loose

/-! ### Storage -/

/-- Formats in which elements are stored outside. -/
inductive Storage where
  | boolean
  | signed (bits : Nat)
  | unsigned (bits : Nat)
  | half
  | brain
  | single
  | double
  | unlisted (name : String)
  deriving DecidableEq, Repr

namespace Storage

/-- The format with a name. -/
def ofName (s : String) : Storage :=
  let known : List (String × Storage) :=
    [("bool", boolean), ("int8", signed 8), ("int16", signed 16), ("int32", signed 32),
      ("int64", signed 64), ("uint8", unsigned 8), ("uint16", unsigned 16),
      ("uint32", unsigned 32), ("uint64", unsigned 64), ("float16", half), ("bfloat16", brain),
      ("float32", single), ("float64", double)]
  (known.lookup s).getD (unlisted s)

/-- The kind of what is stored in a format. -/
def kind : Storage → Except Error Kind
  | boolean => .ok .boolean
  | signed _ | unsigned _ => .ok .integer
  | half | brain | single | double => .ok .decimal
  | unlisted s => .error (.promotion (.nonNumeric s))

/-- An integer within bounds, at 64 bits; the upper half of the unsigned range wraps. -/
def bounded (low high : Int) (v : Loose) : Except Error Int64 := do
  let n ← v.asInteger
  if low ≤ n ∧ n < high then return Int64.ofInt n else throw .unrepresentable

/-- A value as it comes back from storage. -/
def store (s : Storage) (v : Loose) : Except Error Element :=
  match s with
  | boolean => do return ⟨.boolean, ← Loose.convert .boolean v⟩
  | signed bits => do return ⟨.integer, ← bounded (-Nat.pow 2 (bits - 1)) (Nat.pow 2 (bits - 1)) v⟩
  | unsigned bits => do return ⟨.integer, ← bounded 0 (Nat.pow 2 bits) v⟩
  | half => do return ⟨.decimal, Decimal.narrowed .half (← v.asDecimal)⟩
  | brain => do return ⟨.decimal, Decimal.narrowed .brain (← v.asDecimal)⟩
  | single => do return ⟨.decimal, Decimal.narrowed .single (← v.asDecimal)⟩
  | double => do return ⟨.decimal, ← v.asDecimal⟩
  | unlisted s => .error (.promotion (.nonNumeric s))

end Storage

/-- How loose values become elements: at a kind, or by way of a storage format. -/
inductive Target where
  | kind (k : Kind)
  | storage (s : Storage)

namespace Target

/-- The kind of the elements. -/
def result : Target → Except Error Kind
  | kind k => .ok k
  | storage s => s.kind

/-- A loose value as an element of the given kind. -/
def convert (t : Target) (k : Kind) (v : Loose) : Except Error k.Elem :=
  match t with
  | kind _ => v.convert k
  | storage s => do
    let e ← s.store v
    if h : e.kind = k then return h ▸ e.value else throw .unreadable

end Target

/-! ### Nouns -/

namespace Noun

/-- An atom; a list makes none, not even one of a single element. -/
def ofAtom (t : Target) (v : Nested Loose) : Except Error Noun := do
  let k ← t.result
  let xs ← v.leaves.mapM (t.convert k)
  match v.shape?, xs with
  | none, _ => throw .unreadable
  | some [], [x] => return .atom k x
  | some s, _ => throw (.shape (.notAtomic s))

/-- An array of this shape, its elements taken from a nested list in order. -/
def ofArray (t : Target) (shape : List Int) (v : Nested Loose) : Except Error Noun := do
  let k ← t.result
  if v.shape?.isNone then throw .unreadable
  let xs ← v.leaves.mapM (t.convert k)
  return .array k (← (Dense.make shape xs).mapError Error.shape)

/-- An array from nested values: of the kind asked for or else of the one that they need together,
of the shape asked for or else of their own. -/
def ofValues (v : Nested Loose) (shape? : Option (List Int)) (kind? : Option Kind) :
    Except Error Noun := do
  if v.leaves.any fun x => x matches .missing then throw .unreadable
  match v.shape? with
  | none => throw .unreadable
  | some own =>
    let k := kind?.getD (Loose.commonKind v.leaves)
    let xs ← v.leaves.mapM (Loose.convert k)
    return .array k (← (Dense.make (shape?.getD (Shape.extents own)) xs).mapError Error.shape)

end Noun

end ArrayCalc
