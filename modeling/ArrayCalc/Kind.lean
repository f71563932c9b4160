/-!
Kinds of elements.

* `Kind`: boolean, integer, decimal, each below the next;
* `Kind.Elem`: what an element of a kind is: a truth value, a 64-bit integer whose arithmetic wraps,
  a double;
* `Kind.join`: the higher of two kinds, to which both can be widened;
* `Kind.widen`: an element read at a higher kind, and `Kind.truth`: whether it is nonzero.

The arithmetic of decimals is that of IEEE doubles, rounding included.  Results below the normal
range are kept as they are; a backend that flushes them to zero differs in these.
-/

namespace ArrayCalc

/-- The three kinds of elements. -/
inductive Kind where
  | boolean
  | integer
  | decimal
  deriving DecidableEq, Repr

namespace Kind

/-- The place of a kind in the order of widening. -/
def level : Kind → Nat
  | boolean => 0
  | integer => 1
  | decimal => 2

instance : LE Kind := ⟨fun a b => a.level ≤ b.level⟩

instance (a b : Kind) : Decidable (a ≤ b) := inferInstanceAs (Decidable (a.level ≤ b.level))

/-- The word for a kind. -/
def name : Kind → String
  | boolean => "boolean"
  | integer => "integer"
  | decimal => "decimal"

/-- The elements of a kind. -/
abbrev Elem : Kind → Type
  | boolean => Bool
  | integer => Int64
  | decimal => Float

theorem le_refl (a : Kind) : a ≤ a := Nat.le_refl _

theorem le_trans {a b c : Kind} (h : a ≤ b) (h' : b ≤ c) : a ≤ c := Nat.le_trans h h'

theorem le_antisymm {a b : Kind} : a ≤ b → b ≤ a → a = b := by
  cases a <;> cases b <;> decide

/-! ### The higher of two kinds -/

/-- The higher of two kinds. -/
def join (a b : Kind) : Kind := if b ≤ a then a else b

theorem le_join_left (a b : Kind) : a ≤ join a b := by cases a <;> cases b <;> decide

theorem le_join_right (a b : Kind) : b ≤ join a b := by cases a <;> cases b <;> decide

theorem join_le {a b c : Kind} (h : a ≤ c) (h' : b ≤ c) : join a b ≤ c := by
  unfold join; split <;> assumption

theorem join_comm (a b : Kind) : join a b = join b a := by cases a <;> cases b <;> decide

theorem join_self (a : Kind) : join a a = a := by cases a <;> decide

/-! ### Reading an element at another kind -/

/-- One for true and zero for false. -/
def count (b : Bool) : Int64 := if b then 1 else 0

/-- The double nearest to an integer, of two the even one. -/
def toDecimal (n : Int64) : Float := Float.ofInt n.toInt

/-- An element read at a higher kind. -/
def widen : {a b : Kind} → a ≤ b → a.Elem → b.Elem
  | boolean, boolean, _ => fun x => x
  | boolean, integer, _ => count
  | boolean, decimal, _ => fun x => toDecimal (count x)
  | integer, boolean, h => absurd h (by decide)
  | integer, integer, _ => fun x => x
  | integer, decimal, _ => toDecimal
  | decimal, boolean, h => absurd h (by decide)
  | decimal, integer, h => absurd h (by decide)
  | decimal, decimal, _ => fun x => x

theorem widen_self {a : Kind} (h : a ≤ a) (x : a.Elem) : widen h x = x := by cases a <;> rfl

theorem widen_widen {a b c : Kind} (h : a ≤ b) (h' : b ≤ c) (x : a.Elem) :
    widen h' (widen h x) = widen (le_trans h h') x := by
  cases a <;> cases b <;> cases c
  all_goals try exact absurd h (by decide)
  all_goals try exact absurd h' (by decide)
  all_goals rfl

/-- Whether an element is nonzero.  What is not a number is nonzero. -/
def truth : (k : Kind) → k.Elem → Bool
  | boolean, x => x
  | integer, x => x != 0
  | decimal, x => x != (0 : Float)

end Kind

/-- An element together with its kind. -/
structure Element where
  kind : Kind
  value : kind.Elem

end ArrayCalc
