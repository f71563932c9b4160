import ArrayCalc.Noun
/-!
Operands of one kind.

* `Matched`: two operands at one kind, ready for a dyad, and `Matched.pairing`;
* `Noun.matched`: two nouns at the higher of their kinds; `Host.matched` for operands that may be
  no nouns;
* `Matched.zipRun`: the kernel of that kind applied to both.
-/

namespace ArrayCalc

/-- Which of two operands are atoms. -/
inductive Pairing where
  | arrayArray
  | arrayAtom
  | atomArray
  | atomAtom
  deriving DecidableEq, Repr

/-- The name of a pairing. -/
def Pairing.name : Pairing → String
  | arrayArray => "array_array"
  | arrayAtom => "array_atom"
  | atomArray => "atom_array"
  | atomAtom => "atom_atom"

/-- Two operands at one kind. -/
structure Matched where
  kind : Kind
  left : Shaped kind.Elem
  right : Shaped kind.Elem

namespace Matched

/-- Which of the operands are atoms. -/
def pairing (m : Matched) : Pairing :=
  match m.left, m.right with
  | .array _, .array _ => .arrayArray
  | .array _, .atom _ => .arrayAtom
  | .atom _, .array _ => .atomArray
  | .atom _, .atom _ => .atomAtom

/-- A kernel for each kind, of which the one for the common kind is applied. -/
def zipRun (m : Matched) (result : Kind → Kind)
    (fn : (k : Kind) → Run k.Elem → Run k.Elem → Run (result k).Elem) : Except ShapeError Noun :=
  (m.left.zipRun (fn m.kind) m.right).map fun v => ⟨result m.kind, v⟩

end Matched

/-- Two nouns at the higher of their kinds. -/
def Noun.matched (l r : Noun) : Matched :=
  ⟨Kind.join l.kind r.kind, l.value.map (Kind.widen (Kind.le_join_left _ _)),
    r.value.map (Kind.widen (Kind.le_join_right _ _))⟩

/-- Two operands at the higher of their kinds, if both are nouns; the left one is asked first. -/
def Host.matched : Host → Host → Except Error Matched
  | .foreign t, _ => .error (.promotion (.notNoun .left t))
  | .noun _, .foreign t => .error (.promotion (.notNoun .right t))
  | .noun l, .noun r => .ok (l.matched r)

end ArrayCalc
