import ArrayCalc.Proofs.Error.Outcomes
import ArrayCalc.Proofs.Verb.Catalog
/-!
Results element by element.

The elements of an operand with fewer axes come round again and again while those of the other one
are gone through once.  So all operands are taken for sequences without an end here, and what a verb
does is told for one place in them.

* `Shaped.element?`: the elements of a shaped value in row-major order, from the first again after
  the last; `Shaped.ext_element`: type, shape and elements are all that there is;
* `Shaped.element?_zipRun`: **a pointwise kernel combines elements at the same place**, whichever of
  the operands are atoms and whichever has more axes;
* `dyadic_eq_ok`: the elements of a result of a dyad are combined at the common kind.
-/

namespace ArrayCalc

variable {α β γ : Type}

namespace Shaped

/-- The elements in row-major order, from the first again after the last. -/
def element? (v : Shaped α) (j : Nat) : Option α := v.data[j % v.data.length]?

lemma exists_element? {v : Shaped α} (h : v.data.length ≠ 0) (j : Nat) :
    ∃ x, v.element? j = some x :=
  ⟨_, List.getElem?_eq_getElem (Nat.mod_lt j (Nat.pos_of_ne_zero h))⟩

lemma element?_map (f : α → β) (v : Shaped α) (j : Nat) :
    (v.map f).element? j = (v.element? j).map f := by
  rw [element?, element?, data_map, List.length_map, List.getElem?_map]

/-- Shaped values of one type, one shape and the same elements are the same. -/
lemma ext_element {v w : Shaped α} (hatom : v.isAtom = w.isAtom) (hshape : v.shape = w.shape)
    (helement : ∀ j, v.element? j = w.element? j) : v = w := by
  have hlength : v.data.length = w.data.length := by rw [length_data, length_data, hshape]
  have hdata : v.data = w.data := by
    refine List.ext_getElem? fun j => ?_
    rcases Nat.lt_or_ge j v.data.length with hj | hj
    · have h := helement j
      rwa [element?, element?, ← hlength, Nat.mod_eq_of_lt hj] at h
    · rw [List.getElem?_eq_none hj, List.getElem?_eq_none (hlength ▸ hj)]
  cases v with
  | atom x =>
    cases w with
    | atom y => rw [List.singleton_inj.mp hdata]
    | array b => cases hatom
  | array a =>
    cases w with
    | atom y => cases hatom
    | array b => rw [Dense.ext hshape hdata]

lemma data_ofDense (atomic : Bool) (a : Dense α) : (ofDense atomic a).data = a.data := by
  unfold ofDense
  split
  · rename_i hx
    exact hx.symm
  · rfl

/-- Repeated to a longer shape, a shaped value has the same elements at all places. -/
lemma getElem?_tile_toDense {v : Shaped α} {size : Nat} (h : v.data.length ∣ size) {j : Nat}
    (hsize : size ≠ 0) : (Dense.tile v.toDense.data size)[j % size]? = v.element? j := by
  rw [data_toDense, Dense.getElem?_tile h (Nat.mod_lt j (Nat.pos_of_ne_zero hsize)),
    Nat.mod_mod_of_dvd j h, element?]

/-- **A pointwise kernel combines elements at the same place.** -/
theorem element?_zipRun {f : α → β → γ} {l : Shaped α} {r : Shaped β} {v : Shaped γ}
    (h : l.zipRun (Run.both f) r = .ok v) (hsize : v.data.length ≠ 0) (j : Nat) :
    ∃ x y, l.element? j = some x ∧ r.element? j = some y ∧ v.element? j = some (f x y) := by
  rw [zipRun_both] at h
  by_cases hagree : l.toDense.shape <:+ r.toDense.shape ∨ r.toDense.shape <:+ l.toDense.shape
  · obtain ⟨c, hc, hshape, hdata⟩ := Dense.agreementMap_both f hagree
    rw [hc] at h
    cases h
    rw [data_ofDense, c.fills] at hsize
    have hleft : l.data.length ∣ volume c.shape := by
      rw [← data_toDense, l.toDense.fills, hshape]
      exact Shape.volume_dvd_of_suffix (Shape.suffix_longer_left hagree)
    have hright : r.data.length ∣ volume c.shape := by
      rw [← data_toDense, r.toDense.fills, hshape]
      exact Shape.volume_dvd_of_suffix (Shape.suffix_longer_right hagree)
    have hpos : ∀ {count : Nat}, count ∣ volume c.shape → count ≠ 0 :=
      fun hdvd hzero => hsize (Nat.eq_zero_of_zero_dvd (hzero ▸ hdvd))
    obtain ⟨x, hx⟩ := exists_element? (hpos hleft) j
    obtain ⟨y, hy⟩ := exists_element? (hpos hright) j
    refine ⟨x, y, hx, hy, ?_⟩
    rw [element?, data_ofDense, c.fills, hdata, List.getElem?_zipWith,
      getElem?_tile_toDense hleft hsize, getElem?_tile_toDense hright hsize, hx, hy]
  · rw [Dense.agreementMap_eq_error _ hagree] at h
    cases h

end Shaped

/-- The result of a dyad made of pointwise kernels comes from both operands at their common kind. -/
lemma dyadic_eq_ok {result : Kind → Kind} {f : (k : Kind) → k.Elem → k.Elem → (result k).Elem}
    {l r n : Noun} (h : dyadic (.pointwise result f) l r = .ok n) :
    ∃ v, (l.value.map (Kind.widen (l.kind_le_join_left r))).zipRun
        (Run.both (f (Kind.join l.kind r.kind)))
        (r.value.map (Kind.widen (l.kind_le_join_right r))) = .ok v ∧
      n = ⟨result (Kind.join l.kind r.kind), v⟩ := by
  obtain ⟨v, hv, hn⟩ := map_eq_ok_iff.mp (eq_ok_of_mapError_eq_ok h)
  exact ⟨v, hv, hn⟩

end ArrayCalc
