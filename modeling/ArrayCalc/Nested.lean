import ArrayCalc.Dense
/-!
Nested lists.

* `Nested α`: an element, or a list of nested lists;
* `Nested.shape?`: the shape, if all branches of one list have the same; `Nested.leaves`: the
  elements from left to right;
* `Nested.ofFlat`, `Dense.toNested`: a row-major list nested along a shape.
-/

namespace ArrayCalc

/-- An element, or a list of nested lists. -/
inductive Nested (α : Type) where
  | leaf (x : α)
  | branch (xs : List (Nested α))

namespace Nested

variable {α : Type}

instance : Inhabited (Nested α) := ⟨branch []⟩

mutual

/-- The elements from left to right. -/
def leaves : Nested α → List α
  | leaf x => [x]
  | branch xs => leavesAll xs

/-- The elements of nested lists side by side. -/
def leavesAll : List (Nested α) → List α
  | [] => []
  | x :: xs => leaves x ++ leavesAll xs

end

mutual

/-- The shape of a nested list; there is none when two of its branches differ in theirs.  Below an
empty list there are no further axes. -/
def shape? : Nested α → Option (List Nat)
  | leaf _ => some []
  | branch [] => some [0]
  | branch (x :: xs) => (shape? x).bind fun s => (count? s xs).map fun n => (n + 1) :: s

/-- How many nested lists there are, provided that they all have the given shape. -/
def count? (s : List Nat) : List (Nested α) → Option Nat
  | [] => some 0
  | x :: xs => if shape? x = some s then (count? s xs).map (· + 1) else none

end

mutual

/-- An element of a nested list, one index component for each level. -/
def get? : Nested α → List Int → Option α
  | leaf x, [] => some x
  | branch xs, i :: index => if 0 ≤ i then getAt? xs i.toNat index else none
  | _, _ => none

/-- An element of the nested list at a place. -/
def getAt? : List (Nested α) → Nat → List Int → Option α
  | [], _, _ => none
  | x :: _, 0, index => get? x index
  | _ :: xs, n + 1, index => getAt? xs n index

end

/-- A row-major list nested along a shape: cut along the leading axis, then each piece along the
others. -/
def ofFlat : List Nat → List α → Nested α
  | [], x :: _ => leaf x
  | [], [] => branch []
  | e :: shape, xs => branch ((cut (volume shape) e xs).map (ofFlat shape))

end Nested

/-- The elements of an array nested along its shape. -/
def Dense.toNested {α : Type} (a : Dense α) : Nested α := Nested.ofFlat a.shape a.data

end ArrayCalc
