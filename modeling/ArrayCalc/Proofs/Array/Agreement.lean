import ArrayCalc.Proofs.Array.Indexing
/-!
Arrays that agree.

Two arrays are combined on their row-major data alone: the elements of the one with fewer axes are
repeated until there are as many as in the other.  Here this is told by indices: an element of the
result comes from the elements at the trailing components of its index.

* `Shape.longer`: the shape of the result; `trailing`: the last components of an index;
* `Dense.getElem?_tile`: what stands where in a repeated list; `Dense.exists_get_tile`: at the place
  of an index, a repeated array has its element at the trailing components;
* `Dense.agreementMap_both`: arrays that agree, repeated and combined, fill the longer shape;
* `ShapeError.exchanged`, `Dense.agreementMap_exchange`: arrays that change sides, and how their
  failure is told then;
* `Dense.agreementMap_by_index`: **the agreement of arrays, index by index**, and the failure of
  those that do not agree.
-/

namespace ArrayCalc

/-- Of two shapes the one with more axes. -/
def Shape.longer (s t : List Nat) : List Nat := if s.length < t.length then t else s

/-- The same error about operands that have changed sides. -/
def ShapeError.exchanged : ShapeError → ShapeError
  | disagreement s t => disagreement t s
  | e => e

/-- The last components of an index. -/
def trailing (count : Nat) (index : List Int) : List Int := index.drop (index.length - count)

lemma trailing_append {i j : List Int} {count : Nat} (h : j.length = count) :
    trailing count (i ++ j) = j := by
  rw [trailing, List.length_append, h, Nat.add_sub_cancel, List.drop_left]

namespace Shape

variable {s t : List Nat}

lemma suffix_longer_left (h : s <:+ t ∨ t <:+ s) : s <:+ longer s t := by
  rw [longer]
  split
  · rcases h with h | h
    · exact h
    · have hle := h.length_le
      omega
  · exact List.suffix_refl s

lemma suffix_longer_right (h : s <:+ t ∨ t <:+ s) : t <:+ longer s t := by
  rw [longer]
  split
  · exact List.suffix_refl t
  · rename_i hlt
    rcases h with h | h
    · obtain rfl : s = t := h.eq_of_length_le (by omega)
      exact List.suffix_refl s
    · exact h

/-- Shapes that agree and have as many axes are the same. -/
lemma eq_of_length_eq (h : s <:+ t ∨ t <:+ s) (hlength : s.length = t.length) : s = t := by
  rcases h with h | h
  · exact h.eq_of_length hlength
  · exact (h.eq_of_length hlength.symm).symm

lemma volume_dvd_of_suffix (h : s <:+ t) : volume s ∣ volume t := by
  obtain ⟨frame, rfl⟩ := h
  rw [volume_append]
  exact Nat.dvd_mul_left _ _

end Shape

namespace Dense

variable {α β γ : Type}

/-! ### Repeated lists -/

/-- A list repeated as often as it goes into its own length is itself, the empty list too. -/
lemma tile_self (xs : List α) : tile xs xs.length = xs := by
  rw [tile]
  rcases Nat.eq_zero_or_pos xs.length with h | h
  · rw [h, List.length_eq_zero_iff.mp h]
    rfl
  · rw [Nat.div_self h, List.replicate_one, List.flatten_singleton]

lemma getElem?_flatten_replicate (xs : List α) {count i : Nat} (h : i < count * xs.length) :
    (List.replicate count xs).flatten[i]? = xs[i % xs.length]? := by
  induction count generalizing i with
  | zero => omega
  | succ count ih =>
    rw [List.replicate_succ, List.flatten_cons, List.getElem?_append]
    split
    · rename_i hlt
      rw [Nat.mod_eq_of_lt hlt]
    · rename_i hge
      rw [Nat.succ_mul] at h
      rw [ih (by omega), Nat.mod_eq_sub_mod (Nat.le_of_not_lt hge)]

/-- In a repeated list the elements come round again and again. -/
lemma getElem?_tile {xs : List α} {size i : Nat} (h : xs.length ∣ size) (hi : i < size) :
    (tile xs size)[i]? = xs[i % xs.length]? :=
  getElem?_flatten_replicate xs (by rwa [Nat.div_mul_cancel h])

/-- At the place of an index of a longer shape, a repeated array has its element at the trailing
components of the index. -/
lemma exists_get_tile {a : Dense α} {shape : List Nat} (h : a.shape <:+ shape) {index : List Int}
    (hindex : index ∈ odometer (Shape.extents shape)) :
    ∃ n x, offset? (Shape.extents shape) index 0 = some n ∧
      (tile a.data (volume shape))[n]? = some x ∧ a.get (trailing a.rank index) = .ok x := by
  obtain ⟨frame, rfl⟩ := h
  rw [Shape.extents_append] at hindex
  obtain ⟨i, hi, j, hj, rfl⟩ := mem_odometer_append.mp hindex
  obtain ⟨m, x, hm, hx, hget⟩ := exists_get_of_mem (a := a) hj
  obtain ⟨p, hp, n, hn, hjn, hplace⟩ := exists_offset_append hi hj
  obtain rfl : m = n := Option.some.inj (hm.symm.trans hjn)
  have hlength : j.length = a.rank := (length_of_mem_odometer hj).trans (List.length_map _)
  have hdvd : a.data.length ∣ volume (frame ++ a.shape) :=
    a.fills ▸ Shape.volume_dvd_of_suffix (List.suffix_append frame a.shape)
  have hbound : p * volume a.shape + m < volume (frame ++ a.shape) := by
    calc p * volume a.shape + m < p * volume a.shape + volume a.shape := Nat.add_lt_add_left hn _
      _ = (p + 1) * volume a.shape := (Nat.succ_mul p _).symm
      _ ≤ volume frame * volume a.shape := Nat.mul_le_mul_right _ hp
      _ = volume (frame ++ a.shape) := (volume_append frame a.shape).symm
  refine ⟨_, x, hplace, ?_, by rwa [trailing_append hlength]⟩
  rw [getElem?_tile hdvd hbound, a.fills, Nat.mul_comm, Nat.mul_add_mod, Nat.mod_eq_of_lt hn, hx]

/-! ### Arrays combined -/

/-- Arrays that agree are both repeated to the longer shape, where this changes at most one of them,
and combined there. -/
lemma agreementMap_both (f : α → β → γ) {a : Dense α} {b : Dense β}
    (h : a.shape <:+ b.shape ∨ b.shape <:+ a.shape) :
    ∃ c, agreementMap (Run.both f) a b = .ok c ∧ c.shape = Shape.longer a.shape b.shape ∧
      c.data = List.zipWith f (tile a.data (volume c.shape)) (tile b.data (volume c.shape)) := by
  have hagrees : agrees a.shape b.shape = true := agrees_iff.mpr h
  rw [agreementMap, if_pos hagrees]
  by_cases heq : a.rank = b.rank
  · have hshape : a.shape = b.shape := Shape.eq_of_length_eq h heq
    have hlength : a.data.length = b.data.length := by rw [a.fills, b.fills, hshape]
    have hfills : (List.zipWith f a.data b.data).length = volume a.shape := by
      rw [List.length_zipWith, hlength, Nat.min_self, b.fills, hshape]
    rw [if_pos heq]
    refine ⟨_, fill_eq_ok hfills, ?_, ?_⟩
    · rw [Shape.longer, hshape, if_neg (Nat.lt_irrefl _)]
    · show List.zipWith f a.data b.data = _
      rw [← a.fills, tile_self, hlength, tile_self]
  · rw [if_neg heq]
    by_cases hlt : a.rank < b.rank
    · have hsuffix : a.shape <:+ b.shape := by
        rcases h with h | h
        · exact h
        · have hle := h.length_le
          exact absurd hlt (Nat.not_lt.mpr hle)
      have hdvd : a.data.length ∣ b.size := by
        rw [a.fills, b.size_eq]
        exact Shape.volume_dvd_of_suffix hsuffix
      have hfills : (List.zipWith f (tile a.data b.size) b.data).length = volume b.shape := by
        rw [List.length_zipWith, length_tile hdvd, size, Nat.min_self, b.fills]
      rw [if_pos hlt]
      refine ⟨_, fill_eq_ok hfills, (if_pos hlt).symm, ?_⟩
      show List.zipWith f (tile a.data b.size) b.data = _
      rw [← b.fills, tile_self, size]
    · have hsuffix : b.shape <:+ a.shape := by
        rcases h with h | h
        · have hle := h.length_le
          exact absurd (Nat.le_antisymm hle (Nat.le_of_not_lt hlt)) heq
        · exact h
      have hdvd : b.data.length ∣ a.size := by
        rw [b.fills, a.size_eq]
        exact Shape.volume_dvd_of_suffix hsuffix
      have hfills : (List.zipWith f a.data (tile b.data a.size)).length = volume a.shape := by
        rw [List.length_zipWith, length_tile hdvd, size, Nat.min_self, a.fills]
      rw [if_neg hlt]
      refine ⟨_, fill_eq_ok hfills, (if_neg hlt).symm, ?_⟩
      show List.zipWith f a.data (tile b.data a.size) = _
      rw [← a.fills, tile_self, size]

/-- Data that do not fill a shape are no matter of two shapes. -/
lemma fill_exchanged (shape : List Nat) (data : List α) :
    (fill shape data).mapError ShapeError.exchanged = fill shape data := by
  rw [fill]
  split <;> rfl

/-- Arrays agree from either side, and whichever is repeated is repeated from either side. -/
lemma agreementMap_exchange (fn : Run α → Run β → Run γ) (a : Dense α) (b : Dense β) :
    agreementMap (fun y x => fn x y) b a =
      (agreementMap fn a b).mapError ShapeError.exchanged := by
  rw [agreementMap, agreementMap, agrees_comm b.shape]
  by_cases hagrees : agrees a.shape b.shape = true
  · rw [if_pos hagrees, if_pos hagrees]
    rcases Nat.lt_trichotomy a.rank b.rank with hlt | heq | hgt
    · rw [if_neg (Nat.ne_of_gt hlt), if_neg (Nat.lt_asymm hlt), if_neg (Nat.ne_of_lt hlt),
        if_pos hlt, fill_exchanged]
    · have hshape : a.shape = b.shape := Shape.eq_of_length_eq (agrees_iff.mp hagrees) heq
      rw [if_pos heq.symm, if_pos heq, fill_exchanged, hshape]
    · rw [if_neg (Nat.ne_of_lt hgt), if_pos hgt, if_neg (Nat.ne_of_gt hgt),
        if_neg (Nat.lt_asymm hgt), fill_exchanged]
  · rw [if_neg hagrees, if_neg hagrees]
    rfl

/-- Arrays that agree may change sides if the rule does. -/
lemma agreementMap_flip (f : α → β → γ) {a : Dense α} {b : Dense β}
    (h : a.shape <:+ b.shape ∨ b.shape <:+ a.shape) :
    agreementMap (Run.both fun y x => f x y) b a = agreementMap (Run.both f) a b := by
  obtain ⟨c, hc, -⟩ := agreementMap_both f h
  have hflip : Run.both (fun y x => f x y) = fun y x => Run.both f x y :=
    funext fun y => funext fun x => Run.both_flip f x y
  have hexchange := agreementMap_exchange (Run.both f) a b
  rw [hc] at hexchange
  rw [hflip, hc]
  exact hexchange

lemma agreementMap_eq_error (fn : Run α → Run β → Run γ) {a : Dense α} {b : Dense β}
    (h : ¬ (a.shape <:+ b.shape ∨ b.shape <:+ a.shape)) :
    agreementMap fn a b = .error (.disagreement a.shape b.shape) := by
  rw [agreementMap, if_neg (fun hagrees => h (agrees_iff.mp hagrees))]

/-- **The agreement of arrays.**  Two arrays cannot be combined exactly when neither shape is the
tail of the other, and the failure carries the two shapes in order.  Otherwise the result has the
longer shape, and its element at an index is made of the elements of both arrays at the trailing
components of the index, always in the same order. -/
theorem agreementMap_by_index (f : α → β → γ) (a : Dense α) (b : Dense β) :
    ((∃ e, agreementMap (Run.both f) a b = .error e) ↔
      ¬ (a.shape <:+ b.shape ∨ b.shape <:+ a.shape)) ∧
    (∀ e, agreementMap (Run.both f) a b = .error e →
      e = .disagreement a.shape b.shape ∧
      e.shapes = [Shape.extents a.shape, Shape.extents b.shape]) ∧
    (∀ c, agreementMap (Run.both f) a b = .ok c →
      c.shape = Shape.longer a.shape b.shape ∧
      ∀ index ∈ odometer (Shape.extents c.shape), ∃ x y,
        a.get (trailing a.rank index) = .ok x ∧ b.get (trailing b.rank index) = .ok y ∧
        c.get index = .ok (f x y)) := by
  by_cases h : a.shape <:+ b.shape ∨ b.shape <:+ a.shape
  · obtain ⟨c, hc, hshape, hdata⟩ := agreementMap_both f h
    rw [hc]
    refine ⟨⟨?_, fun hn => absurd h hn⟩, ?_, ?_⟩
    · rintro ⟨e, ⟨⟩⟩
    · rintro e ⟨⟩
    rintro _ ⟨⟩
    refine ⟨hshape, fun index hindex => ?_⟩
    have hleft : a.shape <:+ c.shape := hshape ▸ Shape.suffix_longer_left h
    have hright : b.shape <:+ c.shape := hshape ▸ Shape.suffix_longer_right h
    obtain ⟨n, x, hn, hx, ha⟩ := exists_get_tile hleft hindex
    obtain ⟨m, y, hm, hy, hb⟩ := exists_get_tile hright hindex
    obtain rfl : n = m := Option.some.inj (hn.symm.trans hm)
    refine ⟨x, y, ha, hb, get_of_offset hn ?_⟩
    rw [hdata, List.getElem?_zipWith, hx, hy]
  · have herror := agreementMap_eq_error (Run.both f) h
    rw [herror]
    refine ⟨⟨fun _ => h, fun _ => ⟨_, rfl⟩⟩, ?_, ?_⟩
    · rintro _ ⟨⟩
      exact ⟨rfl, rfl⟩
    · rintro c ⟨⟩

end Dense

end ArrayCalc
