import ArrayCalc.Conversion
import ArrayCalc.Proofs.Array.Indexing
import ArrayCalc.Proofs.Error.Outcomes
/-!
Arrays listed and read back.

An array is listed as lists within lists, one level for each axis, and lists within lists are made
an array again, of a shape and a kind found in them or asked for.

* `length_of_mem_cut`, `getElem?_cut`: the pieces of a list that is cut;
* `Nested.leaves_ofFlat`, `Nested.shape?_ofFlat`, `Nested.get?_ofFlat`: the elements, the shape and
  the indices of a nested row-major list; below an extent of zero the shape cannot be seen, which
  leaves `Shape.visible`;
* `Loose.ofElem`, `Dense.listed`: the elements of an array written down as nested lists;
* `Loose.convert_ofElem`, `Loose.commonKind_ofElem`: what is written down is read as it was, at its
  own kind;
* `listed_reads_back`: **nested lists hold an array**, index by index, and make it again.
-/

namespace ArrayCalc

variable {α β : Type}

/-! ### Pieces -/

lemma getElem?_cut {width count i : Nat} {xs : List α} (h : i < count) :
    (cut width count xs)[i]? = some ((xs.drop (i * width)).take width) := by
  induction count generalizing i xs with
  | zero => omega
  | succ count ih =>
    rw [cut]
    cases i with
    | zero => simp
    | succ i =>
      rw [List.getElem?_cons_succ, ih (Nat.lt_of_succ_lt_succ h), List.drop_drop, Nat.succ_mul,
        Nat.add_comm]

lemma length_of_mem_cut {width count : Nat} {xs piece : List α} (h : xs.length = count * width)
    (hpiece : piece ∈ cut width count xs) : piece.length = width := by
  obtain ⟨i, hi, rfl⟩ := List.getElem_of_mem hpiece
  have hlt : i < count := by rwa [length_cut] at hi
  have hroom : (i + 1) * width ≤ xs.length := h ▸ Nat.mul_le_mul_right width hlt
  rw [Nat.succ_mul] at hroom
  have hget := (List.getElem?_eq_getElem hi).symm.trans (getElem?_cut hlt)
  rw [Option.some.inj hget, List.length_take, List.length_drop]
  omega

/-! ### Shapes that can be seen -/

/-- The extents up to the first that is zero: what nested lists show of a shape. -/
def Shape.visible : List Nat → List Nat
  | [] => []
  | e :: shape => e :: if e = 0 then [] else visible shape

lemma Shape.visible_of_pos {shape : List Nat} (h : ∀ e ∈ shape, 0 < e) :
    visible shape = shape := by
  induction shape with
  | nil => rfl
  | cons e shape ih =>
    obtain ⟨he, hshape⟩ := List.forall_mem_cons.mp h
    rw [visible, if_neg (Nat.pos_iff_ne_zero.mp he), ih hshape]

lemma volume_pos {shape : List Nat} (h : ∀ e ∈ shape, 0 < e) : 0 < volume shape := by
  induction shape with
  | nil => exact Nat.one_pos
  | cons e shape ih =>
    obtain ⟨he, hshape⟩ := List.forall_mem_cons.mp h
    exact Nat.mul_pos he (ih hshape)

lemma Shape.visible_append_zero {front rest : List Nat} (h : 0 ∉ front) :
    visible (front ++ 0 :: rest) = front ++ [0] := by
  induction front with
  | nil => rfl
  | cons e front ih =>
    rw [List.mem_cons, not_or] at h
    rw [List.cons_append, visible, if_neg (Ne.symm h.1), ih h.2, List.cons_append]

/-! ### Nested row-major lists -/

namespace Nested

lemma leavesAll_eq (xs : List (Nested α)) : leavesAll xs = xs.flatMap leaves := by
  induction xs with
  | nil => rfl
  | cons x xs ih => rw [leavesAll, ih, List.flatMap_cons]

/-- Branches of one shape are counted. -/
lemma count?_of_forall {shape : List Nat} {xs : List (Nested α)}
    (h : ∀ x ∈ xs, shape? x = some shape) : count? shape xs = some xs.length := by
  induction xs with
  | nil => rfl
  | cons x xs ih =>
    obtain ⟨hx, hxs⟩ := List.forall_mem_cons.mp h
    rw [count?, if_pos hx, ih hxs]
    rfl

/-- An element of a branch is found in the nested list at the first component. -/
lemma getAt?_eq (xs : List (Nested α)) (n : Nat) (index : List Int) :
    getAt? xs n index = xs[n]?.bind (get? · index) := by
  induction xs generalizing n with
  | nil => rfl
  | cons x xs ih =>
    cases n with
    | zero => rfl
    | succ n => rw [getAt?, ih, List.getElem?_cons_succ]

/-- Nesting keeps the elements in their order. -/
theorem leaves_ofFlat {shape : List Nat} {xs : List α} (h : xs.length = volume shape) :
    (ofFlat shape xs).leaves = xs := by
  induction shape generalizing xs with
  | nil =>
    obtain ⟨x, rfl⟩ := List.length_eq_one_iff.mp h
    rfl
  | cons e shape ih =>
    have hpieces : ∀ piece ∈ cut (volume shape) e xs, (ofFlat shape piece).leaves = piece :=
      fun piece hpiece => ih (length_of_mem_cut h hpiece)
    calc (ofFlat (e :: shape) xs).leaves
        = (cut (volume shape) e xs).flatMap fun piece => (ofFlat shape piece).leaves := by
          rw [ofFlat, leaves, leavesAll_eq, List.flatMap_map]
      _ = (cut (volume shape) e xs).flatten := by
          rw [List.flatMap_congr hpieces, List.flatMap_id']
      _ = xs := flatten_cut h

/-- Nesting shows the extents up to the first that is zero. -/
theorem shape?_ofFlat {shape : List Nat} {xs : List α} (h : xs.length = volume shape) :
    (ofFlat shape xs).shape? = some (Shape.visible shape) := by
  induction shape generalizing xs with
  | nil =>
    obtain ⟨x, rfl⟩ := List.length_eq_one_iff.mp h
    rfl
  | cons e shape ih =>
    cases e with
    | zero => rfl
    | succ e =>
      have hpieces : ∀ piece ∈ cut (volume shape) (e + 1) xs,
          (ofFlat shape piece).shape? = some (Shape.visible shape) :=
        fun piece hpiece => ih (length_of_mem_cut h hpiece)
      rw [cut, List.forall_mem_cons] at hpieces
      obtain ⟨hfirst, hothers⟩ := hpieces
      have hcount := count?_of_forall (List.forall_mem_map.mpr hothers)
      rw [List.length_map, length_cut] at hcount
      rw [ofFlat, cut, List.map_cons, shape?, hfirst, Option.bind_some, hcount, Option.map_some,
        Shape.visible, if_neg e.succ_ne_zero]

/-- In a nested list an element stands at its index. -/
theorem get?_ofFlat {shape : List Nat} {xs : List α} {index : List Int} {n : Nat}
    (h : xs.length = volume shape) (hindex : index ∈ odometer (Shape.extents shape))
    (hplace : offset? (Shape.extents shape) index 0 = some n) :
    (ofFlat shape xs).get? index = xs[n]? := by
  induction shape generalizing xs index n with
  | nil =>
    obtain rfl := List.mem_singleton.mp hindex
    obtain ⟨x, rfl⟩ := List.length_eq_one_iff.mp h
    cases hplace
    rfl
  | cons e shape ih =>
    obtain ⟨i, hi, rest, hrest, rfl⟩ := mem_odometer_cons.mp hindex
    have hie : i < e := hi
    obtain ⟨m, hm, hcounts⟩ := exists_offset_of_mem hrest
    have hstart : offset? (Shape.extents shape) rest 0 = some m := by
      rw [hcounts, Nat.zero_mul, Nat.zero_add]
    have hn : n = i * volume shape + m := by
      have hrange : 0 ≤ Int.ofNat i ∧ Int.ofNat i < Int.ofNat e :=
        ⟨Int.natCast_nonneg i, Int.ofNat_lt.mpr hie⟩
      have hstep : offset? (Shape.extents (e :: shape)) (Int.ofNat i :: rest) 0 =
          offset? (Shape.extents shape) rest (0 * e + i) := if_pos hrange
      rw [hstep, hcounts, Nat.zero_mul, Nat.zero_add] at hplace
      exact (Option.some.inj hplace).symm
    have hpiece : (cut (volume shape) e xs)[i]? =
        some ((xs.drop (i * volume shape)).take (volume shape)) := getElem?_cut hie
    have hlength := length_of_mem_cut h (List.mem_of_getElem? hpiece)
    calc (ofFlat (e :: shape) xs).get? (Int.ofNat i :: rest)
        = (ofFlat shape ((xs.drop (i * volume shape)).take (volume shape))).get? rest := by
          have hcomponent : (Int.ofNat i).toNat = i := rfl
          have hnonneg : 0 ≤ Int.ofNat i := Int.natCast_nonneg i
          rw [ofFlat, get?, if_pos hnonneg, hcomponent, getAt?_eq, List.getElem?_map, hpiece,
            Option.map_some, Option.bind_some]
      _ = ((xs.drop (i * volume shape)).take (volume shape))[m]? := ih hlength hrest hstart
      _ = xs[n]? := by rw [List.getElem?_take_of_lt hm, List.getElem?_drop, hn]

end Nested

/-! ### Elements written down -/

/-- An element written down. -/
def Loose.ofElem : (k : Kind) → k.Elem → Loose
  | .boolean => Loose.boolean
  | .integer => fun x => .integer (Int64.toInt x)
  | .decimal => Loose.decimal

/-- The elements of an array written down as nested lists, one level for each axis. -/
def Dense.listed (k : Kind) (a : Dense k.Elem) : Nested Loose := (a.map (Loose.ofElem k)).toNested

namespace Loose

/-- An element is read as it was written down. -/
lemma convert_ofElem (k : Kind) (x : k.Elem) : convert k (ofElem k x) = .ok x := by
  cases k with
  | boolean => rfl
  | decimal => rfl
  | integer =>
    have hfit : Int64.minValue.toInt ≤ Int64.toInt x ∧ Int64.toInt x ≤ Int64.maxValue.toInt :=
      ⟨Int64.minValue_le_toInt x, Int64.toInt_le x⟩
    calc convert .integer (ofElem .integer x) = fit (Int64.toInt x) := rfl
      _ = .ok x := by rw [fit, if_pos hfit, Int64.ofInt_toInt]

lemma ofElem_ne_missing (k : Kind) (x : k.Elem) : ofElem k x ≠ .missing := by
  cases k <;> exact Loose.noConfusion

/-- Elements of one kind need no other, provided that there are any. -/
lemma commonKind_ofElem (k : Kind) {xs : List k.Elem} (h : xs ≠ []) :
    commonKind (xs.map (ofElem k)) = k := by
  obtain ⟨x, xs, rfl⟩ := List.exists_cons_of_ne_nil h
  cases k <;> simp [commonKind, ofElem]

end Loose

/-! ### Read back -/

/-- Extents that are natural numbers are never negative. -/
lemma Dense.make_extents (shape : List Nat) (xs : List α) :
    make (Shape.extents shape) xs = fill shape xs := by
  have hnone : (Shape.extents shape).any (· < 0) = false := by
    rw [List.any_eq_false]
    intro e he
    obtain ⟨n, -, rfl⟩ := List.mem_map.mp he
    exact fun h => absurd (of_decide_eq_true h) (Int.not_lt.mpr (Int.natCast_nonneg n))
  rw [make, hnone, Shape.map_toNat_extents]
  rfl

/-- Nested lists of elements of one kind are made an array of it, of the shape asked for or else of
the one that can be seen. -/
lemma Noun.ofValues_of_leaves {v : Nested Loose} {own shape : List Nat} {k : Kind}
    {xs : List k.Elem} {shape? : Option (List Int)} {kind? : Option Kind}
    (hown : v.shape? = some own) (hleaves : v.leaves = xs.map (Loose.ofElem k))
    (hkind : kind?.getD (Loose.commonKind v.leaves) = k)
    (hshape : shape?.getD (Shape.extents own) = Shape.extents shape)
    (hfills : xs.length = volume shape) :
    ofValues v shape? kind? = .ok (.array k ⟨shape, xs, hfills⟩) := by
  have hread : v.leaves.mapM (Loose.convert k) = .ok xs := by
    rw [hleaves, mapM_map_ok (k := id) fun x _ => Loose.convert_ofElem k x, List.map_id]
  subst hkind
  refine (if_neg fun hmissing => ?_).trans ?_
  · obtain ⟨x, hx, hm⟩ := List.any_eq_true.mp hmissing
    rw [hleaves] at hx
    obtain ⟨y, -, hy⟩ := List.mem_map.mp hx
    have hpresent := Loose.ofElem_ne_missing _ y
    rw [hy] at hpresent
    cases x with
    | missing => exact hpresent rfl
    | boolean | integer | decimal => cases hm
  · have hfill : (Dense.fill shape xs).mapError Error.shape = .ok ⟨shape, xs, hfills⟩ := by
      rw [Dense.fill_eq_ok hfills]
      rfl
    simp only [hown, hshape, hread, Dense.make_extents]
    exact congrArg (fun r => r >>= fun a => pure (Noun.array _ a)) hfill

section Listed

variable {k : Kind} (a : Dense k.Elem)

lemma Dense.leaves_listed : (a.listed k).leaves = a.data.map (Loose.ofElem k) :=
  Nested.leaves_ofFlat (a.map (Loose.ofElem k)).fills

lemma Dense.shape?_listed : (a.listed k).shape? = some (Shape.visible a.shape) :=
  Nested.shape?_ofFlat (a.map (Loose.ofElem k)).fills

/-- An array that has a zero extent has no elements. -/
lemma Dense.data_eq_nil_of_zero_mem (h : 0 ∈ a.shape) : a.data = [] := by
  obtain ⟨front, rest, hshape⟩ := List.append_of_mem h
  rw [← List.length_eq_zero_iff, a.fills, hshape, volume_append, volume_cons, Nat.zero_mul,
    Nat.mul_zero]

end Listed

/-- **Nested lists hold an array.**  At each index they have what the array has there.  Made an
array of its shape and of its kind, they are the array again.  Without shape and kind being asked
for they are too, as long as no extent is zero; if one is, only the extents up to the first zero are
found, and the array without elements is of the kind asked for or else of that of decimals. -/
theorem listed_reads_back (k : Kind) (a : Dense k.Elem) :
    (∀ index ∈ odometer (Shape.extents a.shape), ∃ x,
      a.get index = .ok x ∧ (a.listed k).get? index = some (.ofElem k x)) ∧
    Noun.ofValues (a.listed k) (some (Shape.extents a.shape)) (some k) = .ok (.array k a) ∧
    ((∀ e ∈ a.shape, 0 < e) → Noun.ofValues (a.listed k) none none = .ok (.array k a)) ∧
    (∀ front rest, a.shape = front ++ 0 :: rest → 0 ∉ front →
      (a.listed k).shape? = some (front ++ [0]) ∧
      ∀ kind?, ∃ b, Noun.ofValues (a.listed k) none kind? =
          .ok (.array (kind?.getD .decimal) b) ∧ b.shape = front ++ [0]) := by
  refine ⟨fun index hindex => ?get, ?asked, fun hpos => ?found,
    fun front rest hshape hfront => ?cut⟩
  case get =>
    obtain ⟨n, x, hplace, hx, hget⟩ := Dense.exists_get_of_mem hindex
    refine ⟨x, hget, ?_⟩
    have hlisted := Nested.get?_ofFlat (a.map (Loose.ofElem k)).fills hindex hplace
    rw [Dense.data_map, List.getElem?_map, hx] at hlisted
    exact hlisted
  case asked =>
    exact Noun.ofValues_of_leaves a.shape?_listed a.leaves_listed rfl rfl a.fills
  case found =>
    have hvisible := a.shape?_listed
    rw [Shape.visible_of_pos hpos] at hvisible
    have hdata : a.data ≠ [] := List.ne_nil_of_length_pos (a.fills ▸ volume_pos hpos)
    refine Noun.ofValues_of_leaves hvisible a.leaves_listed ?_ rfl a.fills
    rw [a.leaves_listed]
    exact Loose.commonKind_ofElem k hdata
  case cut =>
    have hvisible := a.shape?_listed
    rw [hshape, Shape.visible_append_zero hfront] at hvisible
    have hleaves : (a.listed k).leaves = [] := by
      rw [a.leaves_listed, a.data_eq_nil_of_zero_mem (hshape ▸ by simp), List.map_nil]
    refine ⟨hvisible, fun kind? => ?_⟩
    have hnone : (a.listed k).leaves =
        ([] : List (kind?.getD Kind.decimal).Elem).map (Loose.ofElem _) := hleaves
    have hkind : kind?.getD (Loose.commonKind (a.listed k).leaves) = kind?.getD .decimal := by
      rw [hleaves]
      rfl
    have hfills : ([] : List (kind?.getD Kind.decimal).Elem).length = volume (front ++ [0]) := by
      rw [volume_append, volume_cons, Nat.zero_mul, Nat.mul_zero]
      rfl
    exact ⟨_, Noun.ofValues_of_leaves hvisible hnone hkind rfl hfills, rfl⟩

/-- Of two rows without elements the rest of the shape is lost, and so is the kind unless it is
asked for; a row of two booleans is found again from its list alone. -/
theorem reads_back_empty_rows :
    let a : Dense Int64 := ⟨[2, 0, 3], [], rfl⟩
    let b : Dense Bool := ⟨[1, 2], [true, false], rfl⟩
    ([2, 0, 3] = [2] ++ 0 :: [3] ∧ 0 ∉ [2] ∧ (a.listed .integer).shape? = some [2, 0] ∧
      ∃ c, Noun.ofValues (a.listed .integer) none none = .ok (.array .decimal c) ∧
        c.shape = [2, 0]) ∧
    ((∀ e ∈ [1, 2], 0 < e) ∧
      Noun.ofValues (b.listed .boolean) none none = .ok (.array .boolean b)) := by
  intro a b
  have hfront : 0 ∉ [2] := by decide
  have hpos : ∀ e ∈ [1, 2], 0 < e := by decide
  obtain ⟨hshape, hvalues⟩ := (listed_reads_back .integer a).2.2.2 [2] [3] rfl hfront
  exact ⟨⟨rfl, hfront, hshape, hvalues none⟩, hpos, (listed_reads_back .boolean b).2.2.1 hpos⟩

end ArrayCalc
