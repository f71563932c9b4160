import ArrayCalc.Proofs.Array.Indexing
import Mathlib.Data.List.Nodup
/-!
Neighbours in an enumeration.

From one index of a shape to the next, the odometer turns the last axis, and further axes before it
as long as they are at their end.

* `divergence`: the first axis at which two indices differ;
* `stacked`: pieces along a list of indices, and between neighbours what belongs to the axis at
  which they differ; `stacked_odometer_cons`: **along a shape, these are blocks of the leading
  axis**;
* `turns`: how many axes turn from each index of a shape to the next; `turns_cons`: those of a
  leading axis part the blocks; `mem_turns`, `length_mem_turns`: the most there are;
* `turns_injective`: **no two shapes turn alike**, if all extents are at least two.
-/

namespace ArrayCalc

/-- The first axis at which two indices differ. -/
def divergence : List Int → List Int → Nat
  | x :: i, y :: j => if x = y then divergence i j + 1 else 0
  | _, _ => 0

section Stacked

variable {β : Type}

/-- Pieces along a list of indices, one for each index, and between neighbours what belongs to the
axis at which they differ. -/
def stacked (gap : Nat → List β) (piece : List Int → List β) : List (List Int) → List β
  | [] => []
  | [i] => piece i
  | i :: j :: rest => piece i ++ (gap (divergence i j) ++ stacked gap piece (j :: rest))

variable {gap : Nat → List β} {piece : List Int → List β}

lemma mem_stacked {x : β} {i : List Int} {is : List (List Int)} (hi : i ∈ is)
    (hx : x ∈ piece i) : x ∈ stacked gap piece is := by
  induction is with
  | nil => cases hi
  | cons j is ih =>
    cases is with
    | nil => rwa [List.mem_singleton.mp hi] at hx
    | cons j' is =>
      rw [stacked]
      rcases List.mem_cons.mp hi with rfl | hi
      · exact List.mem_append_left _ hx
      · exact List.mem_append_right _ (List.mem_append_right _ (ih hi))

/-- A common leading component moves the axis at which neighbours differ. -/
lemma stacked_map_cons (x : Int) (is : List (List Int)) :
    stacked gap piece (is.map (x :: ·)) =
      stacked (fun axis => gap (axis + 1)) (fun i => piece (x :: i)) is := by
  induction is with
  | nil => rfl
  | cons i is ih =>
    cases is with
    | nil => rfl
    | cons j is =>
      have hdivergence : divergence (x :: i) (x :: j) = divergence i j + 1 := if_pos rfl
      rw [List.map_cons, List.map_cons, stacked, stacked, hdivergence, ← List.map_cons, ih]

/-- Indices that differ from all later ones at the leading axis are a block of their own. -/
lemma stacked_append {is js : List (List Int)} (his : is ≠ []) (hjs : js ≠ [])
    (hapart : ∀ i ∈ is, ∀ j ∈ js, divergence i j = 0) :
    stacked gap piece (is ++ js) = stacked gap piece is ++ gap 0 ++ stacked gap piece js := by
  induction is with
  | nil => exact absurd rfl his
  | cons i is ih =>
    cases is with
    | nil =>
      obtain ⟨j, js, rfl⟩ := List.exists_cons_of_ne_nil hjs
      have hdivergence := hapart i List.mem_cons_self j List.mem_cons_self
      rw [List.singleton_append, stacked, stacked, hdivergence, List.append_assoc]
    | cons i' is =>
      have hrest := ih (List.cons_ne_nil i' is) fun k hk => hapart k (List.mem_cons_of_mem i hk)
      rw [List.cons_append] at hrest
      rw [List.cons_append, List.cons_append, stacked, hrest, stacked]
      simp only [List.append_assoc]

/-- Blocks of indices, one for each leading component. -/
lemma stacked_flatMap {xs : List Nat} (hxs : xs.Nodup) {is : List (List Int)} (his : is ≠ []) :
    stacked gap piece (xs.flatMap fun x => is.map (Int.ofNat x :: ·)) =
      (gap 0).intercalate (xs.map fun x =>
        stacked (fun axis => gap (axis + 1)) (fun i => piece (Int.ofNat x :: i)) is) := by
  induction xs with
  | nil => rfl
  | cons x xs ih =>
    obtain ⟨hx, hxs⟩ := List.nodup_cons.mp hxs
    have hblock : is.map (Int.ofNat x :: ·) ≠ [] := by rwa [Ne, List.map_eq_nil_iff]
    cases xs with
    | nil =>
      rw [List.flatMap_singleton, stacked_map_cons, List.map_singleton,
        List.intercalate_singleton]
    | cons y xs =>
      have hrest : ((y :: xs).flatMap fun x => is.map (Int.ofNat x :: ·)) ≠ [] := by
        rw [List.flatMap_cons]
        exact List.append_ne_nil_of_left_ne_nil (by rwa [Ne, List.map_eq_nil_iff]) _
      -- a leading component does not come up again
      have hapart : ∀ i ∈ is.map (Int.ofNat x :: ·),
          ∀ j ∈ (y :: xs).flatMap fun x => is.map (Int.ofNat x :: ·), divergence i j = 0 := by
        intro i hi j hj
        obtain ⟨i, -, rfl⟩ := List.mem_map.mp hi
        obtain ⟨z, hz, hj⟩ := List.mem_flatMap.mp hj
        obtain ⟨j, -, rfl⟩ := List.mem_map.mp hj
        refine if_neg fun heq => hx ?_
        rwa [Int.ofNat_inj.mp heq]
      rw [List.flatMap_cons, stacked_append hblock hrest hapart, stacked_map_cons, ih hxs,
        List.map_cons, List.map_cons, List.map_cons, List.intercalate_cons_cons]

/-- A shape of positive extents has an index. -/
lemma odometer_ne_nil {shape : List Nat} (h : ∀ e ∈ shape, 0 < e) :
    odometer (Shape.extents shape) ≠ [] := by
  induction shape with
  | nil => exact List.cons_ne_nil _ _
  | cons e shape ih =>
    obtain ⟨he, hshape⟩ := List.forall_mem_cons.mp h
    obtain ⟨i, hi⟩ := List.exists_mem_of_ne_nil _ (ih hshape)
    exact List.ne_nil_of_mem (mem_odometer_cons.mpr ⟨0, he, i, hi, rfl⟩)

/-- **Along a shape, pieces are stacked in blocks of the leading axis.** -/
theorem stacked_odometer_cons (e : Nat) {shape : List Nat} (h : ∀ d ∈ shape, 0 < d) :
    stacked gap piece (odometer (Shape.extents (e :: shape))) =
      (gap 0).intercalate ((List.range e).map fun x =>
        stacked (fun axis => gap (axis + 1)) (fun i => piece (Int.ofNat x :: i))
          (odometer (Shape.extents shape))) :=
  stacked_flatMap List.nodup_range (odometer_ne_nil h)

end Stacked

/-! ### Axes that turn -/

/-- How many axes turn from each index of a shape to the next. -/
def turns (shape : List Nat) : List Nat :=
  stacked (fun axis => [shape.length - axis]) (fun _ => []) (odometer (Shape.extents shape))

lemma turns_cons (e : Nat) {shape : List Nat} (h : ∀ d ∈ shape, 0 < d) :
    turns (e :: shape) = [shape.length + 1].intercalate (List.replicate e (turns shape)) := by
  have hbelow : ∀ axis, shape.length + 1 - (axis + 1) = shape.length - axis := fun axis =>
    Nat.add_sub_add_right _ _ _
  rw [turns, stacked_odometer_cons e h, turns]
  simp only [List.length_cons, hbelow, Nat.sub_zero, List.map_const', List.length_range]

lemma mem_of_mem_intercalate {β : Type} {sep : List β} {ls : List (List β)} {x : β}
    (h : x ∈ sep.intercalate ls) : x ∈ sep ∨ ∃ l ∈ ls, x ∈ l := by
  induction ls with
  | nil => cases h
  | cons l ls ih =>
    cases ls with
    | nil =>
      rw [List.intercalate_singleton] at h
      exact .inr ⟨l, List.mem_singleton_self l, h⟩
    | cons l' ls =>
      rw [List.intercalate_cons_cons, List.mem_append, List.mem_append] at h
      rcases h with (h | h) | h
      · exact .inr ⟨l, List.mem_cons_self, h⟩
      · exact .inl h
      · obtain hsep | ⟨k, hk, hx⟩ := ih h
        · exact .inl hsep
        · exact .inr ⟨k, List.mem_cons_of_mem l hk, hx⟩

/-- At least one axis turns, and no more than there are. -/
lemma mem_turns {shape : List Nat} (h : ∀ e ∈ shape, 0 < e) {n : Nat} (hn : n ∈ turns shape) :
    0 < n ∧ n ≤ shape.length := by
  induction shape with
  | nil => cases hn
  | cons e shape ih =>
    obtain ⟨-, hshape⟩ := List.forall_mem_cons.mp h
    rw [turns_cons e hshape] at hn
    rw [List.length_cons]
    obtain hn | ⟨block, hblock, hn⟩ := mem_of_mem_intercalate hn
    · rw [List.mem_singleton.mp hn]
      exact ⟨Nat.succ_pos _, Nat.le_refl _⟩
    · rw [List.eq_of_mem_replicate hblock] at hn
      obtain ⟨hpos, hle⟩ := ih hshape hn
      exact ⟨hpos, Nat.le_succ_of_le hle⟩

section TwoOrMore

variable {s t : List Nat}

lemma pos_of_two_le (h : ∀ e ∈ s, 2 ≤ e) : ∀ e ∈ s, 0 < e := fun e he =>
  Nat.lt_of_lt_of_le Nat.two_pos (h e he)

/-- All axes turn once. -/
lemma length_mem_turns (h : ∀ e ∈ s, 2 ≤ e) (hne : s ≠ []) : s.length ∈ turns s := by
  obtain ⟨e, s, rfl⟩ := List.exists_cons_of_ne_nil hne
  obtain ⟨he, hs⟩ := List.forall_mem_cons.mp h
  obtain ⟨e, rfl⟩ := Nat.exists_eq_add_of_le' he
  rw [turns_cons _ (pos_of_two_le hs), List.replicate_succ, List.replicate_succ,
    List.intercalate_cons_cons]
  simp

/-- The number of axes is the most that turn. -/
lemma length_le_of_turns (hs : ∀ e ∈ s, 2 ≤ e) (ht : ∀ e ∈ t, 2 ≤ e) (h : turns s = turns t) :
    s.length ≤ t.length := by
  by_cases hne : s = []
  · rw [hne]
    exact Nat.zero_le _
  · have hmem := length_mem_turns hs hne
    rw [h] at hmem
    exact (mem_turns (pos_of_two_le ht) hmem).2

/-- **No two shapes turn alike.** -/
theorem turns_injective (hs : ∀ e ∈ s, 2 ≤ e) (ht : ∀ e ∈ t, 2 ≤ e) (h : turns s = turns t) :
    s = t := by
  have hlength : s.length = t.length :=
    Nat.le_antisymm (length_le_of_turns hs ht h) (length_le_of_turns ht hs h.symm)
  induction s generalizing t with
  | nil => exact (List.eq_nil_of_length_eq_zero hlength.symm).symm
  | cons e s ih =>
    cases t with
    | nil => cases hlength
    | cons d t =>
      obtain ⟨he, hs⟩ := List.forall_mem_cons.mp hs
      obtain ⟨hd, ht⟩ := List.forall_mem_cons.mp ht
      have hlength : s.length = t.length := Nat.succ.inj hlength
      -- the turns of all axes part the blocks, in which fewer axes turn
      have hparts : ∀ {shape : List Nat} {count : Nat}, (∀ e ∈ shape, 2 ≤ e) → 2 ≤ count →
          (turns (count :: shape)).splitOn (shape.length + 1) =
            List.replicate count (turns shape) := by
        intro shape count hshape hcount
        have hpos := pos_of_two_le hshape
        rw [turns_cons count hpos]
        refine List.splitOn_intercalate _ (fun block hblock hmem => ?_) ?_
        · rw [List.eq_of_mem_replicate hblock] at hmem
          exact absurd (mem_turns hpos hmem).2 (Nat.not_succ_le_self _)
        · rw [Ne, List.replicate_eq_nil_iff]
          omega
      have hblocks : List.replicate e (turns s) = List.replicate d (turns t) := by
        rw [← hparts hs he, ← hparts ht hd, h, hlength]
      obtain ⟨hed, hzero | hturns⟩ := List.replicate_inj.mp hblocks
      · omega
      · rw [hed, ih hs ht hturns hlength]

example : turns [2, 3] = [1, 1, 2, 1, 1] := by decide

end TwoOrMore

end ArrayCalc
