import ArrayCalc.Proofs.Array.Nesting
import ArrayCalc.Proofs.Decimal.Narrow
/-!
Nouns stored and read back.

* `Storage.kind_of_store`: what comes back from a format is of its kind;
* `Storage.Holds`: the elements that a format can hold; `Storage.store_of_holds`: **these come back
  as they were**; `Storage.toInt_of_store`: an integer that fits comes back as it was, but for those
  of the upper half of the unsigned range, which wrap;
* `Kind.storage`: the format in which the elements of a kind are kept; `Kind.holds_storage`: it
  holds all of them, and `Kind.store_storage`: it takes other values as the kind does;
* `Target.convert_eq_ok_iff`, `Target.convert_eq_error_iff`: an element taken from a format is what
  comes back from it; `Target.convert_storage`: the format of a kind is as good as the kind;
* `Noun.ofAtom_eq_ok_iff`, `Noun.ofArray_eq_ok_iff`: which loose values make a noun, and which one;
  `Noun.ofValues_eq_ofArray`: shape and kind asked for;
* `Noun.restored`: **a noun is restored from what it holds** by every format that holds it.
-/

namespace ArrayCalc

open Decimal

/-! ### Formats -/

namespace Storage

variable {s : Storage} {v : Loose} {e : Element}

/-- What comes back from a format is of its kind. -/
lemma kind_of_store (h : s.store v = .ok e) : s.kind = .ok e.kind := by
  cases s with
  | unlisted name => cases h
  | boolean | signed bits | unsigned bits | half | brain | single | double =>
    obtain ⟨x, -, h⟩ := exists_ok_of_bind_eq_ok h
    cases h
    rfl

/-- The precision of a format for decimals that is narrower than that of doubles. -/
def precision? : Storage → Option Precision
  | half => some .half
  | brain => some .brain
  | single => some .single
  | _ => none

lemma narrow_of_precision? {p : Precision} (h : s.precision? = some p) : p.Narrow := by
  cases s <;> cases h
  · exact Precision.narrow_half
  · exact Precision.narrow_brain
  · exact Precision.narrow_single

/-- Decimals are rounded to the precision of the format. -/
lemma store_of_precision? {p : Precision} (h : s.precision? = some p) (x : Float) :
    s.store (.decimal x) = .ok ⟨.decimal, narrowed p x⟩ := by
  cases s <;> cases h <;> rfl

/-- What a format can hold: elements of its kind, within its range and of its precision. -/
inductive Holds : Storage → Element → Prop
  | boolean (b : Bool) : Holds .boolean ⟨.boolean, b⟩
  | signed {bits : Nat} {x : Int64} (low : -Nat.pow 2 (bits - 1) ≤ x.toInt)
      (high : x.toInt < Nat.pow 2 (bits - 1)) : Holds (.signed bits) ⟨.integer, x⟩
  | unsigned {bits : Nat} {x : Int64} (low : 0 ≤ x.toInt) (high : x.toInt < Nat.pow 2 bits) :
      Holds (.unsigned bits) ⟨.integer, x⟩
  | double (x : Float) : Holds .double ⟨.decimal, x⟩
  | narrow {s : Storage} {p : Precision} {x : Float} (precise : s.precision? = some p)
      (holds : IsFinite x → p.Holds (signedValue x)) : Holds s ⟨.decimal, x⟩

/-- An integer within bounds is stored as it is. -/
lemma bounded_toInt {low high : Int} {x : Int64} (hlow : low ≤ x.toInt) (hhigh : x.toInt < high) :
    bounded low high (.integer x.toInt) = .ok x := by
  have h : bounded low high (.integer x.toInt) = .ok (Int64.ofInt x.toInt) :=
    if_pos ⟨hlow, hhigh⟩
  rw [h, Int64.ofInt_toInt]

lemma bounded_integer {low high n : Int} {x : Int64} (h : bounded low high (.integer n) = .ok x) :
    (low ≤ n ∧ n < high) ∧ x = Int64.ofInt n := by
  have hrule : bounded low high (.integer n) =
      if low ≤ n ∧ n < high then .ok (Int64.ofInt n) else .error .unrepresentable := rfl
  rw [hrule] at h
  split at h
  · rename_i hrange
    exact ⟨hrange, (Except.ok.inj h).symm⟩
  · cases h

/-- **What a format holds comes back from it as it was.** -/
theorem store_of_holds (h : s.Holds e) : s.store (.ofElem e.kind e.value) = .ok e := by
  cases h with
  | boolean b => rfl
  | double x => rfl
  | signed low high | unsigned low high =>
    exact congrArg (Except.map (Element.mk .integer)) (bounded_toInt low high)
  | @narrow _ p x precise holds =>
    refine (store_of_precision? precise x).trans ?_
    by_cases hx : IsFinite x
    · rw [narrowed_of_holds (narrow_of_precision? precise) hx (holds hx)]
    · rw [narrowed_of_not_isFinite p hx]

/-- An integer that fits into a format of at most 64 bits comes back as it was, but for those of the
upper half of the unsigned range, which wrap. -/
theorem toInt_of_store {bits : Nat} (hbits : bits ≤ 64) (hs : s = signed bits ∨ s = unsigned bits)
    {n : Int} {x : Int64} (h : s.store (.integer n) = .ok ⟨.integer, x⟩) :
    x.toInt = if n < 2 ^ 63 then n else n - 2 ^ 64 := by
  have hsigned : (2 : Int) ^ (bits - 1) ≤ 2 ^ 63 := pow_le_pow_right₀ one_le_two (by omega)
  have hunsigned : (2 : Int) ^ bits ≤ 2 ^ 64 := pow_le_pow_right₀ one_le_two hbits
  obtain ⟨hx, hlow, hhigh⟩ : x = Int64.ofInt n ∧ -2 ^ 63 ≤ n ∧ n < 2 ^ 64 := by
    rcases hs with rfl | rfl
    all_goals
      obtain ⟨y, hy, h⟩ := exists_ok_of_bind_eq_ok h
      cases h
      obtain ⟨hrange, rfl⟩ := bounded_integer hy
      refine ⟨rfl, ?_⟩
      simp only [Nat.pow_eq, Nat.cast_pow, Nat.cast_ofNat] at hrange
      omega
  have hsize : (Int64.size : Int) = 2 ^ 64 := rfl
  rw [hx, Int64.toInt_ofInt, Int.bmod_def, hsize]
  split <;> omega

example : (unsigned 64).store (.integer (2 ^ 64 - 1)) = .ok ⟨.integer, -1⟩ := rfl

end Storage

/-- The format in which the elements of a kind are kept. -/
def Kind.storage : Kind → Storage
  | boolean => .boolean
  | integer => .signed 64
  | decimal => .double

/-- It holds all of them. -/
lemma Kind.holds_storage (k : Kind) (x : k.Elem) : k.storage.Holds ⟨k, x⟩ := by
  cases k with
  | boolean => exact .boolean x
  | integer => exact .signed (Int64.minValue_le_toInt x) (Int64.toInt_lt x)
  | decimal => exact .double x

lemma Kind.kind_storage (k : Kind) : k.storage.kind = .ok k := by cases k <;> rfl

/-- It takes values as the kind does. -/
lemma Kind.store_storage (k : Kind) (v : Loose) :
    k.storage.store v = (v.convert k).map (Element.mk k) := by
  cases k with
  | boolean | decimal => rfl
  | integer =>
    have hbounded : Storage.bounded (-Nat.pow 2 63) (Nat.pow 2 63) v =
        v.asInteger >>= Loose.fit := by
      refine congrArg (v.asInteger >>= ·) (funext fun n => ?_)
      have hrange : -Nat.pow 2 63 ≤ n ∧ n < Nat.pow 2 63 ↔
          Int64.minValue.toInt ≤ n ∧ n ≤ Int64.maxValue.toInt := by
        rw [Int64.toInt_minValue, Int64.toInt_maxValue, Nat.pow_eq]
        omega
      rw [Loose.fit]
      simp only [hrange]
      rfl
    exact congrArg (Except.map (Element.mk .integer)) hbounded

/-! ### Elements -/

namespace Target

variable {s : Storage} {k : Kind} {v : Loose} {x : k.Elem} {e : Error}

/-- An element taken from a format is what comes back from it. -/
lemma convert_eq_ok_iff : (storage s).convert k v = .ok x ↔ s.store v = .ok ⟨k, x⟩ := by
  constructor
  · intro h
    obtain ⟨⟨j, y⟩, hy, h⟩ := exists_ok_of_bind_eq_ok h
    split at h
    · rename_i hj
      cases hj
      cases h
      exact hy
    · cases h
  · intro h
    show (s.store v >>= fun e => _) = _
    rw [h]
    exact dif_pos rfl

/-- Asked for at its own kind, an element fails only in the format. -/
lemma convert_eq_error_iff (hk : s.kind = .ok k) :
    (storage s).convert k v = .error e ↔ s.store v = .error e := by
  cases hv : s.store v with
  | error d =>
    have hfails : (storage s).convert k v = .error d := by
      show (s.store v >>= fun e => _) = _
      rw [hv]
      rfl
    rw [hfails, Except.error.injEq, Except.error.injEq]
  | ok y =>
    obtain rfl : y.kind = k := Except.ok.inj ((Storage.kind_of_store hv).symm.trans hk)
    rw [convert_eq_ok_iff.2 hv]
    exact ⟨nofun, nofun⟩

/-- The format of a kind is as good as the kind. -/
theorem convert_storage (k : Kind) (v : Loose) : (storage k.storage).convert k v = v.convert k := by
  have hstore := Kind.store_storage k v
  cases hv : v.convert k with
  | error e =>
    rw [hv] at hstore
    exact (convert_eq_error_iff k.kind_storage).2 hstore
  | ok x =>
    rw [hv] at hstore
    exact convert_eq_ok_iff.2 hstore

/-- What can be held: at a kind all of its elements, in a format what fits into it. -/
def Holds : Target → Element → Prop
  | kind k, e => e.kind = k
  | storage s, e => s.Holds e

/-- What is held is taken as it was written down. -/
lemma convert_ofElem {t : Target} (h : t.Holds ⟨k, x⟩) : t.convert k (.ofElem k x) = .ok x := by
  cases t with
  | kind j => exact Loose.convert_ofElem k x
  | storage s => exact convert_eq_ok_iff.2 (Storage.store_of_holds h)

end Target

/-! ### Nouns -/

/-- Extents and elements make an array if none of the extents is negative and they are filled. -/
lemma Dense.make_eq_ok_iff {α : Type} {shape : List Int} {xs : List α} {a : Dense α} :
    make shape xs = .ok a ↔ Shape.extents a.shape = shape ∧ a.data = xs := by
  constructor
  · intro h
    rw [make] at h
    split at h
    · cases h
    · rename_i hneg
      rw [fill] at h
      split at h
      · cases h
        refine ⟨?_, rfl⟩
        rw [Bool.not_eq_true, List.any_eq_false] at hneg
        show (shape.map Int.toNat).map Int.ofNat = shape
        rw [List.map_map]
        refine (List.map_congr_left fun e he => ?_).trans (List.map_id shape)
        have hnonneg : 0 ≤ e := Int.not_lt.1 fun hlt => hneg e he (decide_eq_true hlt)
        exact Int.toNat_of_nonneg hnonneg
      · cases h
  · rintro ⟨rfl, rfl⟩
    rw [make_extents, fill_eq_ok a.fills]

/-- Only what is no list has a shape without axes. -/
lemma Nested.exists_leaf_of_shape {α : Type} {v : Nested α} (h : v.shape? = some []) :
    ∃ y, v = .leaf y := by
  cases v with
  | leaf y => exact ⟨y, rfl⟩
  | branch xs =>
    cases xs with
    | nil => cases h
    | cons x xs =>
      obtain ⟨own, -, h⟩ := Option.bind_eq_some_iff.1 h
      obtain ⟨count, -, h⟩ := Option.map_eq_some_iff.1 h
      cases h

namespace Noun

variable {t : Target} {v : Nested Loose} {n : Noun}

/-- **An atom is made of one element** that is no list. -/
theorem ofAtom_eq_ok_iff : ofAtom t v = .ok n ↔
    ∃ k y x, t.result = .ok k ∧ v = .leaf y ∧ t.convert k y = .ok x ∧ n = .atom k x := by
  constructor
  · intro h
    obtain ⟨k, hk, h⟩ := exists_ok_of_bind_eq_ok h
    obtain ⟨xs, hxs, h⟩ := exists_ok_of_bind_eq_ok h
    split at h
    · cases h
    · rename_i x hshape
      have hn : n = .atom k x := (Except.ok.inj h).symm
      obtain ⟨y, rfl⟩ := Nested.exists_leaf_of_shape hshape
      cases mapM_eq_ok_iff.1 hxs with
      | cons hx _ => exact ⟨k, y, x, hk, rfl, hx, hn⟩
    · cases h
  · rintro ⟨k, y, x, hk, rfl, hx, rfl⟩
    have hxs : [y].mapM (t.convert k) = .ok [x] := mapM_eq_ok_iff.2 (.cons hx .nil)
    simp only [ofAtom, hk, Nested.leaves, Nested.shape?, bind, Except.bind, hxs]
    rfl

/-- **An array is made of nested lists** that have a shape, each element by itself, if they fill the
shape asked for. -/
theorem ofArray_eq_ok_iff {shape : List Int} : ofArray t shape v = .ok n ↔
    ∃ k own a, t.result = .ok k ∧ v.shape? = some own ∧
      List.Forall₂ (fun y x => t.convert k y = .ok x) v.leaves a.data ∧
      Shape.extents a.shape = shape ∧ n = .array k a := by
  constructor
  · intro h
    obtain ⟨k, hk, h⟩ := exists_ok_of_bind_eq_ok h
    cases hown : v.shape? with
    | none =>
      rw [hown] at h
      cases h
    | some own =>
      rw [hown] at h
      obtain ⟨xs, hxs, h⟩ := exists_ok_of_bind_eq_ok (x := v.leaves.mapM (t.convert k)) h
      obtain ⟨a, ha, h⟩ := exists_ok_of_bind_eq_ok h
      have hn : n = .array k a := (Except.ok.inj h).symm
      obtain ⟨hextents, rfl⟩ := Dense.make_eq_ok_iff.1 (eq_ok_of_mapError_eq_ok ha)
      exact ⟨k, own, a, hk, rfl, mapM_eq_ok_iff.1 hxs, hextents, hn⟩
  · rintro ⟨k, own, a, hk, hown, hxs, hextents, rfl⟩
    have hmake : (Dense.make shape a.data).mapError Error.shape = .ok a := by
      rw [Dense.make_eq_ok_iff.2 ⟨hextents, rfl⟩]
      rfl
    simp only [ofArray, hk, hown, mapM_eq_ok_iff.2 hxs, hmake, bind, Except.bind]
    rfl

/-- Shape and kind being asked for, nothing is found in the values. -/
theorem ofValues_eq_ofArray (shape : List Int) (k : Kind)
    (h : ∀ y ∈ v.leaves, y ≠ .missing) :
    ofValues v (some shape) (some k) = ofArray (.kind k) shape v := by
  refine (if_neg fun hmissing => ?_).trans ?_
  · obtain ⟨y, hy, hm⟩ := List.any_eq_true.mp hmissing
    cases y with
    | missing => exact h _ hy rfl
    | boolean | integer | decimal => cases hm
  · cases hown : v.shape? with
    | none =>
      rw [ofArray, hown]
      rfl
    | some own =>
      rw [ofArray, hown]
      rfl

/-- **A noun is restored from what it holds**, at its kind and by every format into which all of its
elements fit. -/
theorem restored {k : Kind} (hk : t.result = .ok k) :
    (∀ x, t.Holds ⟨k, x⟩ → ofAtom t (.leaf (.ofElem k x)) = .ok (.atom k x)) ∧
    ∀ a : Dense k.Elem, (∀ x ∈ a.data, t.Holds ⟨k, x⟩) →
      ofArray t (Shape.extents a.shape) (a.listed k) = .ok (.array k a) := by
  constructor
  · intro x hx
    exact ofAtom_eq_ok_iff.2 ⟨k, _, x, hk, rfl, Target.convert_ofElem hx, rfl⟩
  · intro a ha
    refine ofArray_eq_ok_iff.2 ⟨k, _, a, hk, a.shape?_listed, ?_, rfl, rfl⟩
    rw [a.leaves_listed, List.forall₂_map_left_iff, List.forall₂_same]
    exact fun x hx => Target.convert_ofElem (ha x hx)

end Noun

end ArrayCalc
