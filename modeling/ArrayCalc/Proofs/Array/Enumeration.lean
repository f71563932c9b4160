import ArrayCalc.Proofs.Array.Indexing
import Mathlib.Algebra.BigOperators.Group.List.Basic
import Mathlib.Algebra.Ring.Int.Defs
import Mathlib.Data.List.Nodup
import Mathlib.Data.List.Range
/-!
Indices enumerated and counted.

The indices of a shape are enumerated axis by axis, and the place of an index is counted by a fold
over its components.  Both are taken for any shape, with extents at or below zero too: there are no
indices then, and no index has a place.

* `exists_offset?_iff`: the indices that have a place are those enumerated;
* `map_offset?_odometer`: **the places of the indices enumerated are counted up**, one by one from
  the places before them;
* `volume_toNat`: the volume of a shape is the product of its extents;
* `Dense.map_get_odometer`: the elements of an array are enumerated with its indices;
  `cut_map_odometer`: what is enumerated so is cut by the leading component;
* `flatIndex_counts_odometer`: **flat indices count the odometer**, so that the two are inverse to
  each other; everything else is refused with the shape.
-/

namespace ArrayCalc

/-! ### Indices that have a place -/

/-- The indices with a place are those of the shape, wherever counting starts. -/
lemma exists_offset?_iff {shape index : List Int} {acc : Nat} :
    (∃ n, offset? shape index acc = some n) ↔ index ∈ odometer shape := by
  induction shape generalizing index acc with
  | nil =>
    cases index with
    | nil => exact ⟨fun _ => List.mem_singleton_self _, fun _ => ⟨acc, rfl⟩⟩
    | cons i index => simp [offset?, odometer]
  | cons e shape ih =>
    rw [mem_odometer_cons]
    cases index with
    | nil => simp [offset?]
    | cons i index =>
      rw [offset?]
      split
      · rename_i hi
        have hnat : Int.ofNat i.toNat = i := Int.toNat_of_nonneg hi.1
        rw [ih]
        constructor
        · exact fun h => ⟨i.toNat, by omega, index, h, by rw [hnat]⟩
        · rintro ⟨_, -, rest, hrest, heq⟩
          rwa [(List.cons.inj heq).2]
      · rename_i hi
        constructor
        · rintro ⟨n, ⟨⟩⟩
        · rintro ⟨j, hj, rest, -, heq⟩
          have hij : i = Int.ofNat j := (List.cons.inj heq).1
          exact absurd ⟨hij ▸ Int.natCast_nonneg j, by rw [hij, Int.ofNat_eq_natCast]; omega⟩ hi

/-- Whatever is no index is refused with the shape. -/
lemma shapes_of_flatIndex_eq_error {shape index : List Int} {e : ShapeError}
    (h : flatIndex shape index = .error e) : e.shapes = [shape] := by
  rw [flatIndex] at h
  split at h
  · cases h
    rfl
  · split at h
    · cases h
    · cases h
      rfl

/-! ### Counting -/

/-- Blocks of one length, one behind the other, count on. -/
lemma flatMap_range_blocks (count width : Nat) :
    ((List.range count).flatMap fun i => (List.range width).map (i * width + ·)) =
      List.range (count * width) := by
  induction count with
  | zero => rw [Nat.zero_mul, List.range_zero, List.flatMap_nil]
  | succ count ih =>
    rw [List.range_succ, List.flatMap_append, ih, List.flatMap_singleton, Nat.succ_mul,
      List.range_add]

/-- The places of all indices in the order of the odometer, counted up from those before them. -/
theorem map_offset?_odometer (shape : List Int) (acc : Nat) :
    (odometer shape).map (offset? shape · acc) =
      (List.range (volume (shape.map Int.toNat))).map
        fun n => some (acc * volume (shape.map Int.toNat) + n) := by
  induction shape generalizing acc with
  | nil => simp [odometer, offset?]
  | cons e shape ih =>
    -- an index whose leading component is `i` counts on within the block of `i`
    have hblock : ∀ i ∈ List.range e.toNat,
        ((odometer shape).map (Int.ofNat i :: ·)).map (offset? (e :: shape) · acc) =
          ((List.range (volume (shape.map Int.toNat))).map
            (i * volume (shape.map Int.toNat) + ·)).map
              fun n => some (acc * volume ((e :: shape).map Int.toNat) + n) := by
      intro i hi
      have hlt : i < e.toNat := List.mem_range.mp hi
      have hrange : 0 ≤ Int.ofNat i ∧ Int.ofNat i < e :=
        ⟨Int.natCast_nonneg i, by rw [Int.ofNat_eq_natCast]; omega⟩
      have hstep : ∀ index, offset? (e :: shape) (Int.ofNat i :: index) acc =
          offset? shape index (acc * e.toNat + i) := fun _ => if_pos hrange
      rw [List.map_map, List.map_map]
      simp only [Function.comp_def, hstep, ih, List.map_cons, volume_cons]
      refine List.map_congr_left fun n _ => congrArg some ?_
      rw [Nat.add_mul, Nat.mul_assoc, Nat.add_assoc]
    rw [odometer, List.map_flatMap, List.flatMap_congr hblock, List.map_cons, volume_cons,
      ← flatMap_range_blocks, List.map_flatMap]

/-- The volume of a shape without negative extents is the product of the extents. -/
lemma volume_toNat {shape : List Int} (h : ∀ e ∈ shape, 0 ≤ e) :
    (volume (shape.map Int.toNat) : Int) = shape.prod := by
  induction shape with
  | nil => rfl
  | cons e shape ih =>
    obtain ⟨he, hshape⟩ := List.forall_mem_cons.mp h
    rw [List.map_cons, volume_cons, List.prod_cons, Int.natCast_mul, Int.toNat_of_nonneg he,
      ih hshape]

/-- The flat indices of all indices, for any shape. -/
lemma map_flatIndex_odometer (shape : List Int) :
    (odometer shape).map (flatIndex shape) =
      (List.range (volume (shape.map Int.toNat))).map .ok := by
  have hplace : (odometer shape).map (offset? shape · 0) =
      (List.range (volume (shape.map Int.toNat))).map some := by
    simpa using map_offset?_odometer shape 0
  have hflat : ∀ index ∈ odometer shape,
      flatIndex shape index = .ok ((offset? shape index 0).getD 0) := by
    intro index hindex
    obtain ⟨n, hn⟩ := exists_offset?_iff.mpr hindex
    rw [flatIndex_eq_ok_iff.mpr hn, hn, Option.getD_some]
  calc (odometer shape).map (flatIndex shape)
      = ((odometer shape).map (offset? shape · 0)).map fun n => .ok (n.getD 0) := by
        rw [List.map_map]
        exact List.map_congr_left hflat
    _ = (List.range (volume (shape.map Int.toNat))).map .ok := by
        rw [hplace, List.map_map]
        rfl

/-- A shape has as many indices as it holds elements. -/
lemma length_odometer (shape : List Nat) :
    (odometer (Shape.extents shape)).length = volume shape := by
  have hplaces := congrArg List.length (map_offset?_odometer (Shape.extents shape) 0)
  rwa [List.length_map, List.length_map, List.length_range, Shape.map_toNat_extents] at hplaces

/-- The elements of an array are those at its indices, in the order of the odometer. -/
lemma Dense.map_get_odometer {α : Type} (a : Dense α) :
    (odometer (Shape.extents a.shape)).map a.get = a.data.map .ok := by
  have hflat := map_flatIndex_odometer (Shape.extents a.shape)
  rw [Shape.map_toNat_extents, ← a.fills] at hflat
  have hlength : (odometer (Shape.extents a.shape)).length = a.data.length :=
    (length_odometer a.shape).trans a.fills.symm
  refine List.ext_getElem (by simpa using hlength) fun n hn hn' => ?_
  rw [List.length_map] at hn hn'
  obtain ⟨m, x, hoffset, hx, hget⟩ := a.exists_get_of_mem (List.getElem_mem hn)
  -- the index that comes up at a place has this place
  have hplace :
      flatIndex (Shape.extents a.shape) (odometer (Shape.extents a.shape))[n] = .ok n := by
    have h := congrArg (·[n]?) hflat
    simpa [hn, hn'] using h
  rw [flatIndex_eq_ok_iff.mpr hoffset] at hplace
  obtain rfl := Except.ok.inj hplace
  rw [List.getElem_map, List.getElem_map, hget]
  rw [List.getElem?_eq_getElem hn'] at hx
  rw [Option.some.inj hx]

lemma cut_flatMap {α β : Type} {xs : List α} {g : α → List β} {size : Nat}
    (h : ∀ x ∈ xs, (g x).length = size) : cut size xs.length (xs.flatMap g) = xs.map g := by
  induction xs with
  | nil => rfl
  | cons x xs ih =>
    obtain ⟨hx, hxs⟩ := List.forall_mem_cons.mp h
    rw [List.length_cons, List.flatMap_cons, cut, List.take_left' hx, List.drop_left' hx, ih hxs,
      List.map_cons]

/-- What is enumerated with the indices of a shape is cut by the leading component. -/
lemma cut_map_odometer {β : Type} (e : Nat) (shape : List Nat) (f : List Int → β) :
    cut (volume shape) e ((odometer (Shape.extents (e :: shape))).map f) =
      (List.range e).map fun x =>
        (odometer (Shape.extents shape)).map fun i => f (Int.ofNat x :: i) := by
  have hblocks : (odometer (Shape.extents (e :: shape))).map f = (List.range e).flatMap fun x =>
      (odometer (Shape.extents shape)).map fun i => f (Int.ofNat x :: i) := by
    show List.map f (List.flatMap _ (List.range e)) = _
    rw [List.map_flatMap]
    simp only [List.map_map, Function.comp_def]
    rfl
  have hlength : ∀ x ∈ List.range e,
      ((odometer (Shape.extents shape)).map fun i => f (Int.ofNat x :: i)).length = volume shape :=
    fun x _ => (List.length_map _).trans (length_odometer shape)
  have hcut := cut_flatMap hlength
  rwa [List.length_range, ← hblocks] at hcut

/-- **Flat indices count the odometer.**  An index has a flat index exactly if it is one of those
that the odometer of the shape goes through, whatever the extents are; anything else is refused with
the shape.  In a shape without negative extents, the flat indices along the odometer are the numbers
below the product of the extents, in their order, and each of these is the flat index of just one
index. -/
theorem flatIndex_counts_odometer (shape : List Int) :
    (∀ index, (∃ n, flatIndex shape index = .ok n) ↔ index ∈ odometer shape) ∧
    (∀ index, index ∉ odometer shape →
      ∃ e, flatIndex shape index = .error e ∧ e.shapes = [shape]) ∧
    ((∀ e ∈ shape, 0 ≤ e) →
      (odometer shape).map (flatIndex shape) = (List.range shape.prod.toNat).map .ok ∧
      ∀ n : Nat, n < shape.prod → ∃! index, flatIndex shape index = .ok n) := by
  have hplaces : ∀ index, (∃ n, flatIndex shape index = .ok n) ↔ index ∈ odometer shape := by
    intro index
    simp only [flatIndex_eq_ok_iff, exists_offset?_iff]
  refine ⟨hplaces, fun index hindex => ?_, fun h => ?_⟩
  · cases hflat : flatIndex shape index with
    | ok n => exact absurd ((hplaces index).mp ⟨n, hflat⟩) hindex
    | error e => exact ⟨e, rfl, shapes_of_flatIndex_eq_error hflat⟩
  · have hvolume : volume (shape.map Int.toNat) = shape.prod.toNat := by
      rw [← volume_toNat h, Int.toNat_natCast]
    have hcount := map_flatIndex_odometer shape
    rw [hvolume] at hcount
    refine ⟨hcount, fun n hn => ?_⟩
    have hmem : Except.ok n ∈ (odometer shape).map (flatIndex shape) := by
      rw [hcount]
      exact List.mem_map_of_mem (List.mem_range.mpr (by omega))
    obtain ⟨index, hindex, hflat⟩ := List.mem_map.mp hmem
    refine ⟨index, hflat, fun other hother => ?_⟩
    -- two indices with one flat index would make it come up twice along the odometer
    have hnodup : ((odometer shape).map (flatIndex shape)).Nodup := by
      rw [hcount]
      exact List.nodup_range.map fun _ _ => Except.ok.inj
    exact List.inj_on_of_nodup_map hnodup ((hplaces other).mp ⟨n, hother⟩) hindex
      (hother.trans hflat.symm)

/-- Two rows of three: the odometer is counted from zero to five, the last place is that of one
index, and a component out of range is refused; and so is the only index of two negative extents,
whose product is positive. -/
theorem counts_odometer_two_by_three :
    ((∀ e ∈ [(2 : Int), 3], 0 ≤ e) ∧
      (odometer [2, 3]).map (flatIndex [2, 3]) =
        [.ok 0, .ok 1, .ok 2, .ok 3, .ok 4, .ok 5] ∧
      ∃! index, flatIndex [2, 3] index = .ok 5) ∧
    (∃ e, flatIndex [2, 3] [1, -1] = .error e ∧ e.shapes = [[2, 3]]) ∧
    (∃ e, flatIndex [-1, -2] [0, 0] = .error e ∧ e.shapes = [[-1, -2]]) := by
  have hextents : ∀ e ∈ [(2 : Int), 3], 0 ≤ e := by decide
  have hcounts := (flatIndex_counts_odometer [2, 3]).2.2 hextents
  refine ⟨⟨hextents, hcounts.1, hcounts.2 5 (by decide)⟩, ?_, ?_⟩
  · exact (flatIndex_counts_odometer [2, 3]).2.1 [1, -1] (by decide)
  · exact (flatIndex_counts_odometer [-1, -2]).2.1 [0, 0] (by decide)

end ArrayCalc
