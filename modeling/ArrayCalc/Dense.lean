import ArrayCalc.Run
/-!
Dense arrays.

* `flatIndex`: the place of an index within a shape;
* `Dense α`: a shape and the elements that fill it, in row-major order;
* `Dense.fill`, `Dense.make`: an array from a shape and elements, refused when they do not fit;
* `Dense.get`: the element at an index;
* `Dense.map`: a rule applied to each element, and, for kernels, `Dense.mapRun`,
  `Dense.mapAtomLeft`, `Dense.mapAtomRight`, `Dense.agreementMap`, where the array of lower rank is
  tiled over the leading axes of the other.

An array may have any number of elements and of axes.  The memory and the ranks that a backend has
to offer are not modelled; the limit of `iota` is, being a rule of the calculator.
-/

namespace ArrayCalc

/-- The place of an index within a shape, in row-major order. -/
def flatIndex (shape index : List Int) : Except ShapeError Nat :=
  if index.length ≠ shape.length then .error (.indexLength index.length shape)
  else
    match offset? shape index 0 with
    | some n => .ok n
    | none => .error (.outOfBounds index shape)

/-- An array: a shape, and as many elements as it holds. -/
structure Dense (α : Type) where
  shape : List Nat
  data : List α
  fills : data.length = volume shape

namespace Dense

variable {α β γ : Type}

@[ext] theorem ext {a b : Dense α} (h : a.shape = b.shape) (h' : a.data = b.data) : a = b := by
  cases a; cases b; cases h; cases h'; rfl

/-- The number of axes. -/
def rank (a : Dense α) : Nat := a.shape.length

/-- The number of elements. -/
def size (a : Dense α) : Nat := a.data.length

theorem size_eq (a : Dense α) : a.size = volume a.shape := a.fills

/-- The array with this shape and these elements, provided that they fill it. -/
def fill (shape : List Nat) (data : List α) : Except ShapeError (Dense α) :=
  if h : data.length = volume shape then .ok ⟨shape, data, h⟩
  else .error (.unfilled data.length shape)

theorem fill_eq_ok {shape : List Nat} {data : List α} (h : data.length = volume shape) :
    fill shape data = .ok ⟨shape, data, h⟩ := dif_pos h

theorem fill_eq_error {shape : List Nat} {data : List α} (h : data.length ≠ volume shape) :
    fill shape data = .error (.unfilled data.length shape) := dif_neg h

/-- The array with these extents and these elements.  A negative extent is found before the elements
are counted. -/
def make (shape : List Int) (data : List α) : Except ShapeError (Dense α) :=
  if shape.any (· < 0) then .error (.negativeExtent shape)
  else fill (shape.map Int.toNat) data

/-! ### Indices -/

/-- The element at an index. -/
def get (a : Dense α) (index : List Int) : Except ShapeError α :=
  match flatIndex (Shape.extents a.shape) index with
  | .error e => .error e
  | .ok n =>
    match a.data[n]? with
    | some x => .ok x
    | none => .error (.outOfBounds index (Shape.extents a.shape))

/-! ### Rules for elements -/

/-- A rule applied to each element. -/
def map (f : α → β) (a : Dense α) : Dense β :=
  ⟨a.shape, a.data.map f, by rw [List.length_map, a.fills]⟩

@[simp] theorem shape_map (f : α → β) (a : Dense α) : (a.map f).shape = a.shape := rfl

@[simp] theorem data_map (f : α → β) (a : Dense α) : (a.map f).data = a.data.map f := rfl

theorem map_map (g : β → γ) (f : α → β) (a : Dense α) : (a.map f).map g = a.map (g ∘ f) := by
  ext1 <;> simp

/-- A kernel applied to the elements; what it gives back must fill the shape again. -/
def mapRun (fn : Run α → Run β) (a : Dense α) : Except ShapeError (Dense β) :=
  fill a.shape (fn (.row a.data)).toList

/-- A kernel applied to an atom on the left and the elements on the right. -/
def mapAtomLeft (fn : Run α → Run β → Run γ) (x : α) (b : Dense β) : Except ShapeError (Dense γ) :=
  fill b.shape (fn (.lone x) (.row b.data)).toList

/-- A kernel applied to the elements on the left and an atom on the right. -/
def mapAtomRight (fn : Run α → Run β → Run γ) (a : Dense α) (y : β) : Except ShapeError (Dense γ) :=
  fill a.shape (fn (.row a.data) (.lone y)).toList

/-- The list repeated until it has `size` elements; an empty one stays empty. -/
def tile (xs : List α) (size : Nat) : List α := (List.replicate (size / xs.length) xs).flatten

/-- A kernel applied to two arrays whose shapes agree.  The one of lower rank is repeated along the
leading axes of the other, whose shape the result has. -/
def agreementMap (fn : Run α → Run β → Run γ) (a : Dense α) (b : Dense β) :
    Except ShapeError (Dense γ) :=
  if agrees a.shape b.shape then
    if a.rank = b.rank then fill a.shape (fn (.row a.data) (.row b.data)).toList
    else if a.rank < b.rank then fill b.shape (fn (.row (tile a.data b.size)) (.row b.data)).toList
    else fill a.shape (fn (.row a.data) (.row (tile b.data a.size))).toList
  else .error (.disagreement a.shape b.shape)

/-! ### Pointwise kernels keep shapes -/

theorem mapRun_each (f : α → β) (a : Dense α) : a.mapRun (Run.each f) = .ok (a.map f) :=
  fill_eq_ok (by simp [a.fills])

theorem mapAtomLeft_both (f : α → β → γ) (x : α) (b : Dense β) :
    mapAtomLeft (Run.both f) x b = .ok (b.map (f x)) :=
  fill_eq_ok (by simp [Run.both, b.fills])

theorem mapAtomRight_both (f : α → β → γ) (a : Dense α) (y : β) :
    mapAtomRight (Run.both f) a y = .ok (a.map fun x => f x y) :=
  fill_eq_ok (by simp [Run.both, a.fills])

theorem length_tile {xs : List α} {size : Nat} (h : xs.length ∣ size) :
    (tile xs size).length = size := by
  simp [tile, Nat.div_mul_cancel h]

/-! ### Counting up -/

/-- The numbers from zero on in an array of this shape.  No extent and not the number of elements
may exceed the limit: an empty array has no elements, but its extents still count. -/
def iota (limit : Nat) (shape : List Int) : Except Error (Dense Int64) :=
  if shape.any (· < 0) then .error (.shape (.negativeExtent shape))
  else
    let extents := shape.map Int.toNat
    if limit < volume extents ∨ extents.any (limit < ·) then
      .error (.domain (.tooLarge shape limit))
    else .ok ⟨extents, (List.range (volume extents)).map Int64.ofNat, by simp⟩

end Dense

end ArrayCalc
