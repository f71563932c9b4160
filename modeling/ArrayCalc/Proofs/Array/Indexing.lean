import ArrayCalc.Dense
import Mathlib.Tactic.Lemma
/-!
Places of indices.

* `mem_odometer_cons`, `mem_odometer_append`: the indices of a shape, axis by axis, and those of a
  shape that is made of two;
* `flatIndex_eq_ok_iff`: the flat index of an index is its place;
* `offset?_append`: in a shape made of two, it starts from the place of the leading components;
* `exists_offset_of_mem`: every index of a shape has a place below the volume of the shape;
  `exists_offset_append`: in a shape made of two, places are counted in blocks of the second;
* `Dense.get_of_offset`, `Dense.exists_get_of_mem`: the element at an index is the one at its place,
  and every index has one.
-/

namespace ArrayCalc

/-! ### Indices of a shape -/

lemma mem_odometer_cons {e : Int} {shape index : List Int} :
    index ∈ odometer (e :: shape) ↔
      ∃ i < e.toNat, ∃ rest ∈ odometer shape, index = Int.ofNat i :: rest := by
  simp only [odometer, List.mem_flatMap, List.mem_range, List.mem_map, eq_comm]

/-- The indices of two shapes, one behind the other. -/
lemma mem_odometer_append {s t index : List Int} :
    index ∈ odometer (s ++ t) ↔ ∃ i ∈ odometer s, ∃ j ∈ odometer t, index = i ++ j := by
  induction s generalizing index with
  | nil => simp [odometer]
  | cons e s ih =>
    rw [List.cons_append, mem_odometer_cons]
    constructor
    · rintro ⟨n, hn, rest, hrest, rfl⟩
      obtain ⟨i, hi, j, hj, rfl⟩ := ih.mp hrest
      exact ⟨Int.ofNat n :: i, mem_odometer_cons.mpr ⟨n, hn, i, hi, rfl⟩, j, hj, rfl⟩
    · rintro ⟨i, hi, j, hj, rfl⟩
      obtain ⟨n, hn, rest, hrest, rfl⟩ := mem_odometer_cons.mp hi
      exact ⟨n, hn, rest ++ j, ih.mpr ⟨rest, hrest, j, hj, rfl⟩, rfl⟩

lemma length_of_mem_odometer {shape index : List Int} (h : index ∈ odometer shape) :
    index.length = shape.length := by
  induction shape generalizing index with
  | nil => rw [List.mem_singleton.mp h]
  | cons e shape ih =>
    obtain ⟨i, -, rest, hrest, rfl⟩ := mem_odometer_cons.mp h
    rw [List.length_cons, List.length_cons, ih hrest]

/-! ### Places -/

lemma length_eq_of_offset? {shape index : List Int} {acc n : Nat}
    (h : offset? shape index acc = some n) : index.length = shape.length := by
  induction shape generalizing index acc with
  | nil =>
    cases index with
    | nil => rfl
    | cons i index => cases h
  | cons e shape ih =>
    cases index with
    | nil => cases h
    | cons i index =>
      rw [offset?] at h
      split at h
      · rw [List.length_cons, List.length_cons, ih h]
      · cases h

/-- The flat index is the place, counted from zero. -/
lemma flatIndex_eq_ok_iff {shape index : List Int} {n : Nat} :
    flatIndex shape index = .ok n ↔ offset? shape index 0 = some n := by
  rw [flatIndex]
  constructor
  · intro h
    split at h
    · cases h
    · cases hplace : offset? shape index 0 with
      | none =>
        rw [hplace] at h
        cases h
      | some m =>
        rw [hplace] at h
        rw [Except.ok.inj h]
  · intro h
    rw [if_neg (not_not_intro (length_eq_of_offset? h)), h]

/-- Places in a shape made of two are found in one and then in the other. -/
lemma offset?_append {s t i j : List Int} (h : i.length = s.length) (acc : Nat) :
    offset? (s ++ t) (i ++ j) acc = (offset? s i acc).bind (offset? t j) := by
  induction s generalizing i acc with
  | nil =>
    rw [List.length_eq_zero_iff.mp h]
    rfl
  | cons e s ih =>
    cases i with
    | nil => cases h
    | cons n i =>
      rw [List.cons_append, List.cons_append, offset?, offset?]
      split
      · exact ih (Nat.succ.inj h) _
      · rfl

/-- An index of a shape has a place in it, which is added to the places before it. -/
lemma exists_offset_of_mem {shape : List Nat} {index : List Int}
    (h : index ∈ odometer (Shape.extents shape)) :
    ∃ n < volume shape, ∀ acc,
      offset? (Shape.extents shape) index acc = some (acc * volume shape + n) := by
  induction shape generalizing index with
  | nil =>
    rw [List.mem_singleton.mp h]
    exact ⟨0, Nat.one_pos, fun acc => by simp [offset?, Shape.extents]⟩
  | cons e shape ih =>
    obtain ⟨i, hi, rest, hrest, rfl⟩ := mem_odometer_cons.mp h
    obtain ⟨n, hn, hplace⟩ := ih hrest
    have hie : i < e := hi
    refine ⟨i * volume shape + n, ?_, fun acc => ?_⟩
    · calc i * volume shape + n < i * volume shape + volume shape := Nat.add_lt_add_left hn _
        _ = (i + 1) * volume shape := (Nat.succ_mul i _).symm
        _ ≤ volume (e :: shape) := Nat.mul_le_mul_right _ hie
    · have hrange : 0 ≤ Int.ofNat i ∧ Int.ofNat i < Int.ofNat e :=
        ⟨Int.natCast_nonneg i, Int.ofNat_lt.mpr hie⟩
      have hstep : offset? (Shape.extents (e :: shape)) (Int.ofNat i :: rest) acc =
          offset? (Shape.extents shape) rest (acc * e + i) := if_pos hrange
      rw [hstep, hplace, volume_cons]
      congr 1
      rw [Nat.add_mul, Nat.mul_assoc, Nat.add_assoc]

lemma Shape.extents_append (s t : List Nat) : extents (s ++ t) = extents s ++ extents t :=
  List.map_append

lemma Shape.map_toNat_extents (shape : List Nat) : (extents shape).map Int.toNat = shape := by
  rw [extents, List.map_map]
  exact List.map_id shape

/-- The place of an index in a shape made of two: whole blocks for the leading components, and the
place of the trailing ones within a block. -/
lemma exists_offset_append {s t : List Nat} {i j : List Int}
    (hi : i ∈ odometer (Shape.extents s)) (hj : j ∈ odometer (Shape.extents t)) :
    ∃ p < volume s, ∃ n < volume t, offset? (Shape.extents t) j 0 = some n ∧
      offset? (Shape.extents (s ++ t)) (i ++ j) 0 = some (p * volume t + n) := by
  obtain ⟨p, hp, hip⟩ := exists_offset_of_mem hi
  obtain ⟨n, hn, hjn⟩ := exists_offset_of_mem hj
  refine ⟨p, hp, n, hn, ?_, ?_⟩
  · rw [hjn, Nat.zero_mul, Nat.zero_add]
  · rw [Shape.extents_append, offset?_append (length_of_mem_odometer hi), hip, Option.bind_some,
      hjn, Nat.zero_mul, Nat.zero_add]

/-! ### Elements -/

namespace Dense

variable {α : Type} {a : Dense α} {index : List Int}

lemma get_of_offset {n : Nat} {x : α} (hn : offset? (Shape.extents a.shape) index 0 = some n)
    (hx : a.data[n]? = some x) : a.get index = .ok x := by
  rw [get, flatIndex_eq_ok_iff.mpr hn]
  simp only [hx]

/-- There is an element at every index of the shape. -/
lemma exists_get_of_mem (h : index ∈ odometer (Shape.extents a.shape)) :
    ∃ n x, offset? (Shape.extents a.shape) index 0 = some n ∧ a.data[n]? = some x ∧
      a.get index = .ok x := by
  obtain ⟨n, hn, hplace⟩ := exists_offset_of_mem h
  have hoffset := hplace 0
  rw [Nat.zero_mul, Nat.zero_add] at hoffset
  have hx : a.data[n]? = some (a.data.get ⟨n, a.fills ▸ hn⟩) := List.getElem?_eq_getElem _
  exact ⟨n, _, hoffset, hx, get_of_offset hoffset hx⟩

end Dense

end ArrayCalc
