import ArrayCalc.Dense
/-!
Nouns.

* `Shaped α`: an atom or an array; an array without axes holds one element too, but is no atom;
* `Shaped.mapRun`, `Shaped.zipRun`: kernels applied to one operand or to two;
* `Noun`: a shaped value of some kind, with its `shape` and `rank`;
* `Noun.cast`: the noun at a higher kind; `Noun.truth`: the boolean view;
* `Host`: a noun, or something from outside that is none.
-/

namespace ArrayCalc

/-- An atom or an array. -/
inductive Shaped (α : Type) where
  | atom (x : α)
  | array (a : Dense α)

namespace Shaped

variable {α β γ : Type}

/-- The shape; atoms have no axes. -/
def shape : Shaped α → List Nat
  | atom _ => []
  | array a => a.shape

/-- The elements in row-major order. -/
def data : Shaped α → List α
  | atom x => [x]
  | array a => a.data

/-- An atom, not an array. -/
def isAtom : Shaped α → Bool
  | atom _ => true
  | array _ => false

/-- A rule applied to each element. -/
def map (f : α → β) : Shaped α → Shaped β
  | atom x => atom (f x)
  | array a => array (a.map f)

@[simp] theorem shape_map (f : α → β) (v : Shaped α) : (v.map f).shape = v.shape := by
  cases v <;> rfl

@[simp] theorem data_map (f : α → β) (v : Shaped α) : (v.map f).data = v.data.map f := by
  cases v <;> rfl

@[simp] theorem isAtom_map (f : α → β) (v : Shaped α) : (v.map f).isAtom = v.isAtom := by
  cases v <;> rfl

theorem map_map (g : β → γ) (f : α → β) (v : Shaped α) : (v.map f).map g = v.map (g ∘ f) := by
  cases v <;> simp [map, Dense.map_map]

/-- A kernel applied to one operand. -/
def mapRun (fn : Run α → Run β) : Shaped α → Except ShapeError (Shaped β)
  | atom x => (fn (.lone x)).lone?.map atom
  | array a => (a.mapRun fn).map array

/-- A kernel applied to two operands: atoms meet every element, arrays must agree. -/
def zipRun (fn : Run α → Run β → Run γ) : Shaped α → Shaped β → Except ShapeError (Shaped γ)
  | array a, array b => (Dense.agreementMap fn a b).map array
  | array a, atom y => (Dense.mapAtomRight fn a y).map array
  | atom x, array b => (Dense.mapAtomLeft fn x b).map array
  | atom x, atom y => (fn (.lone x) (.lone y)).lone?.map atom

/-- A pointwise kernel never fails on one operand. -/
theorem mapRun_each (f : α → β) (v : Shaped α) : v.mapRun (Run.each f) = .ok (v.map f) := by
  cases v with
  | atom x => rfl
  | array a => rw [mapRun, Dense.mapRun_each]; rfl

end Shaped

/-- A shaped value of some kind. -/
structure Noun where
  kind : Kind
  value : Shaped kind.Elem

namespace Noun

/-- An atom of some kind. -/
def atom (k : Kind) (x : k.Elem) : Noun := ⟨k, .atom x⟩

/-- An array of some kind. -/
def array (k : Kind) (a : Dense k.Elem) : Noun := ⟨k, .array a⟩

/-- The shape; atoms have no axes. -/
def shape (n : Noun) : List Nat := n.value.shape

/-- The number of axes. -/
def rank (n : Noun) : Nat := n.shape.length

/-- An atom, not an array. -/
def isAtom (n : Noun) : Bool := n.value.isAtom

/-- The noun read at a higher kind. -/
def widen (n : Noun) (k : Kind) (h : n.kind ≤ k) : Noun := ⟨k, n.value.map (Kind.widen h)⟩

/-- The noun at another kind, refused if that is lower. -/
def cast (n : Noun) (k : Kind) : Except Error Noun :=
  if h : n.kind ≤ k then .ok (n.widen k h) else .error (.promotion (.narrowing n.kind k))

theorem cast_eq_ok {n : Noun} {k : Kind} (h : n.kind ≤ k) : n.cast k = .ok (n.widen k h) :=
  dif_pos h

theorem cast_eq_error {n : Noun} {k : Kind} (h : ¬ n.kind ≤ k) :
    n.cast k = .error (.promotion (.narrowing n.kind k)) := dif_neg h

/-- The boolean view: nonzero elements are true. -/
def truth (n : Noun) : Noun := ⟨.boolean, n.value.map n.kind.truth⟩

end Noun

/-- A noun, or something from outside that is none, of which only the name of its type is known. -/
inductive Host where
  | noun (n : Noun)
  | foreign (typeName : String)

/-- The noun, or the complaint that there is none at this place. -/
def Host.validate (place : String) : Host → Except Error Noun
  | noun n => .ok n
  | foreign t => .error (.unsupported place t)

end ArrayCalc
