import ArrayCalc.Error
/-!
Runs of elements.

A kernel is a rule for elements, handed to an array from outside.  It is shown the elements all at
once: as a row when they fill an array, as a lone element when they come from an atom.

* `Run`: what a kernel is shown and what it gives back;
* `Run.each`, `Run.both`: the pointwise kernels, where a lone element meets every element of a row;
* `Run.lone?`: the one element that an atom needs.
-/

namespace ArrayCalc

/-- A lone element, or all elements of an array in row-major order. -/
inductive Run (α : Type) where
  | lone (x : α)
  | row (xs : List α)

namespace Run

variable {α β γ : Type}

/-- The elements of a run. -/
def toList : Run α → List α
  | lone x => [x]
  | row xs => xs

/-- A rule applied to each element. -/
def each (f : α → β) : Run α → Run β
  | lone x => lone (f x)
  | row xs => row (xs.map f)

/-- A rule applied to elements in pairs; a lone one is paired with all. -/
def both (f : α → β → γ) : Run α → Run β → Run γ
  | lone x, lone y => lone (f x y)
  | lone x, row ys => row (ys.map (f x))
  | row xs, lone y => row (xs.map fun x => f x y)
  | row xs, row ys => row (List.zipWith f xs ys)

/-- The element of a lone run; a row is no element. -/
def lone? : Run α → Except ShapeError α
  | lone x => .ok x
  | row xs => .error (.notAtomic [xs.length])

@[simp] theorem toList_lone (x : α) : (lone x).toList = [x] := rfl

@[simp] theorem toList_row (xs : List α) : (row xs).toList = xs := rfl

@[simp] theorem each_lone (f : α → β) (x : α) : (lone x).each f = lone (f x) := rfl

@[simp] theorem each_row (f : α → β) (xs : List α) : (row xs).each f = row (xs.map f) := rfl

theorem both_flip (f : α → β → γ) (a : Run α) (b : Run β) :
    both (fun y x => f x y) b a = both f a b := by
  cases a <;> cases b <;> simp only [both]
  rw [List.zipWith_comm]

end Run

end ArrayCalc
