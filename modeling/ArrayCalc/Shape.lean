/-!
Shapes.  A shape is a list of extents, one for each axis, the leading axis first.

* `volume`: how many elements a shape holds;
* `agrees`: one shape is the tail of the other;
* `offset?`: the place of an index in row-major order, and `odometer`: all indices in that order;
* `cut`: a row-major list cut along its leading axis;
* `Shape.words`, `Shape.tuple`: a shape in a message.

Extents and index components are integers where a caller may hand in anything, natural numbers where
they belong to an array.
-/

namespace ArrayCalc

/-- How many elements an array of this shape has. -/
def volume : List Nat → Nat
  | [] => 1
  | e :: s => e * volume s

@[simp] theorem volume_nil : volume [] = 1 := rfl

@[simp] theorem volume_cons (e : Nat) (s : List Nat) : volume (e :: s) = e * volume s := rfl

theorem volume_append (s t : List Nat) : volume (s ++ t) = volume s * volume t := by
  induction s with
  | nil => simp
  | cons e s ih => simp [ih, Nat.mul_assoc]

/-! ### Agreement -/

/-- One shape is the tail of the other. -/
def agrees {α : Type} [BEq α] (a b : List α) : Bool := a.isSuffixOf b || b.isSuffixOf a

theorem agrees_iff {α : Type} [BEq α] [LawfulBEq α] {a b : List α} :
    agrees a b = true ↔ a <:+ b ∨ b <:+ a := by
  simp [agrees]

theorem agrees_comm {α : Type} [BEq α] (a b : List α) : agrees a b = agrees b a :=
  Bool.or_comm _ _

/-! ### Indices -/

/-- The place of an index within a shape in row-major order, counted on from the places before it:
each axis multiplies by its extent and adds its component.  There is none when a component is out of
range or the lengths differ. -/
def offset? : List Int → List Int → Nat → Option Nat
  | [], [], acc => some acc
  | e :: shape, i :: index, acc =>
    if 0 ≤ i ∧ i < e then offset? shape index (acc * e.toNat + i.toNat) else none
  | _, _, _ => none

/-- Every index within a shape in row-major order; an extent below zero counts as zero. -/
def odometer : List Int → List (List Int)
  | [] => [[]]
  | e :: shape => (List.range e.toNat).flatMap fun i => (odometer shape).map (Int.ofNat i :: ·)

/-! ### Cutting -/

/-- A list cut into `count` pieces of `width` elements. -/
def cut {α : Type} (width : Nat) : Nat → List α → List (List α)
  | 0, _ => []
  | count + 1, xs => xs.take width :: cut width count (xs.drop width)

@[simp] theorem length_cut {α : Type} (width count : Nat) (xs : List α) :
    (cut width count xs).length = count := by
  induction count generalizing xs with
  | zero => rfl
  | succ n ih => simp [cut, ih]

/-- Nothing is lost in cutting. -/
theorem flatten_cut {α : Type} {width count : Nat} {xs : List α} (h : xs.length = count * width) :
    (cut width count xs).flatten = xs := by
  induction count generalizing xs with
  | zero =>
    rw [Nat.zero_mul] at h
    simp [cut, List.eq_nil_of_length_eq_zero h]
  | succ n ih =>
    have : (xs.drop width).length = n * width := by
      rw [List.length_drop, h, Nat.succ_mul, Nat.add_sub_cancel]
    rw [cut, List.flatten_cons, ih this, List.take_append_drop]

/-! ### Shapes in messages -/

namespace Shape

/-- The extents side by side; a shape without axes has a word of its own. -/
def words (shape : List Int) : String :=
  if shape.isEmpty then "(scalar)" else " ".intercalate (shape.map Int.repr)

/-- The extents between brackets; a single one keeps its comma. -/
def tuple (shape : List Int) : String :=
  match shape with
  | [e] => "(" ++ e.repr ++ ",)"
  | _ => "(" ++ ", ".intercalate (shape.map Int.repr) ++ ")"

/-- The extents of an array as integers. -/
def extents (shape : List Nat) : List Int := shape.map Int.ofNat

end Shape

end ArrayCalc
