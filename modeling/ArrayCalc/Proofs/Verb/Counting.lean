import ArrayCalc.Primitive
import ArrayCalc.Proofs.Array.Enumeration
/-!
Counting up.

The monad `i.` takes the elements of its operand for extents and fills an array of that shape with
the numbers from zero on.

* `Noun.integers`: the elements of a noun as integers, truth values counted as one and zero;
* `Primitive.obstacle?`: what stands in the way of counting up, the first of four things that are
  looked at in turn; `obstacle?_eq_none_iff`: when there is nothing;
* `iota_of_obstacle`, `exists_iota_of_clear`: counting up fails with the obstacle, and has a result
  if there is none;
* `Dense.get_range`: an array filled with the numbers from zero on has at each index its place;
* `iota_counts_up`: **counting up**, what it makes, of which nouns, and how it fails for others.
-/

namespace ArrayCalc

/-! ### Extents asked for -/

/-- The elements as integers; those of a decimal noun are left out. -/
def Noun.integers : Noun → List Int
  | ⟨.boolean, v⟩ => v.data.map fun b => if b then 1 else 0
  | ⟨.integer, v⟩ => v.data.map Int64.toInt
  | ⟨.decimal, _⟩ => []

namespace Primitive

/-- What stands in the way of counting up within a limit: decimals, more axes than one, an extent
below zero, and an extent or a number of elements beyond the limit, looked at in this order. -/
def obstacle? (limit : Nat) (n : Noun) : Option DomainError :=
  if n.kind = .decimal then some .fractionalExtents
  else if n.isAtom = false ∧ n.rank ≠ 1 then some (.extentsRank n.rank)
  else if ∃ e ∈ n.integers, e < 0 then some (.negativeExtents n.integers)
  else if (∃ e ∈ n.integers, (limit : Int) < e) ∨ (limit : Int) < n.integers.prod then
    some (.tooLarge n.integers limit)
  else none

variable {limit : Nat} {n : Noun}

lemma obstacle?_eq_none_iff :
    obstacle? limit n = none ↔ n.kind ≠ .decimal ∧ (n.isAtom = true ∨ n.rank = 1) ∧
      (∀ e ∈ n.integers, 0 ≤ e) ∧ (∀ e ∈ n.integers, e ≤ limit) ∧ n.integers.prod ≤ limit := by
  rw [obstacle?]
  split_ifs with hkind hrank hneg hlimit
  · exact ⟨nofun, fun h => absurd hkind h.1⟩
  · refine ⟨nofun, fun h => ?_⟩
    rcases h.2.1 with hatom | hone
    · rw [hatom] at hrank
      cases hrank.1
    · exact absurd hone hrank.2
  · obtain ⟨e, he, hlt⟩ := hneg
    exact ⟨nofun, fun h => absurd hlt (Int.not_lt.mpr (h.2.2.1 e he))⟩
  · refine ⟨nofun, fun h => ?_⟩
    rcases hlimit with ⟨e, he, hlt⟩ | hlt
    · exact absurd hlt (Int.not_lt.mpr (h.2.2.2.1 e he))
    · exact absurd hlt (Int.not_lt.mpr h.2.2.2.2)
  · rw [not_or, Int.not_lt] at hlimit
    refine ⟨fun _ => ⟨hkind, ?_, ?_, ?_, hlimit.2⟩, fun _ => rfl⟩
    · by_contra hneither
      rw [not_or, Bool.not_eq_true] at hneither
      exact hrank hneither
    · exact fun e he => Int.not_lt.mp fun hlt => hneg ⟨e, he, hlt⟩
    · exact fun e he => Int.not_lt.mp fun hlt => hlimit.1 ⟨e, he, hlt⟩

/-- The extents are the elements of an atom or of a list. -/
lemma extents_eq (n : Noun) :
    extents n =
      if n.kind = .decimal then .error (.domain .fractionalExtents)
      else if n.isAtom = false ∧ n.rank ≠ 1 then .error (.domain (.extentsRank n.rank))
      else .ok n.integers := by
  have hcount : Int64.toInt ∘ Kind.count = fun b : Bool => if b then (1 : Int) else 0 :=
    funext fun b => by cases b <;> rfl
  obtain ⟨k, v⟩ := n
  cases k with
  | decimal => rfl
  | boolean =>
    cases v with
    | atom b => cases b <;> rfl
    | array a =>
      by_cases hrank : a.rank = 1
      · have hdata : (a.data.map Kind.count).map Int64.toInt =
            a.data.map fun b : Bool => if b then (1 : Int) else 0 := by rw [List.map_map, hcount]
        exact (if_pos hrank).trans ((congrArg Except.ok hdata).trans
          (if_neg fun h => h.2 hrank).symm)
      · exact (if_neg hrank).trans (if_pos ⟨rfl, hrank⟩).symm
  | integer =>
    cases v with
    | atom x => rfl
    | array a =>
      by_cases hrank : a.rank = 1
      · have hdata : (a.data.map fun x : Int64 => x).map Int64.toInt = a.data.map Int64.toInt := by
          rw [List.map_id']
        exact (if_pos hrank).trans ((congrArg Except.ok hdata).trans
          (if_neg fun h => h.2 hrank).symm)
      · exact (if_neg hrank).trans (if_pos ⟨rfl, hrank⟩).symm

end Primitive

/-! ### Numbers in an array -/

namespace Dense

variable {limit : Nat} {shape : List Int}

lemma any_neg_eq_false (h : ∀ e ∈ shape, 0 ≤ e) : ¬ shape.any (· < 0) = true := by
  rw [List.any_eq_true]
  rintro ⟨e, he, hlt⟩
  exact absurd (of_decide_eq_true hlt) (Int.not_lt.mpr (h e he))

/-- With natural extents, the limit is exceeded as it is with integers. -/
lemma exceeds_iff (h : ∀ e ∈ shape, 0 ≤ e) :
    (limit < volume (shape.map Int.toNat) ∨ (shape.map Int.toNat).any (limit < ·) = true) ↔
      (∃ e ∈ shape, (limit : Int) < e) ∨ (limit : Int) < shape.prod := by
  rw [or_comm, ← volume_toNat h, Int.ofNat_lt, List.any_map, List.any_eq_true]
  refine or_congr (exists_congr fun e => and_congr_right fun he => ?_) Iff.rfl
  have hnonneg := h e he
  rw [Function.comp_apply, decide_eq_true_iff]
  omega

lemma iota_eq_error (h : ∀ e ∈ shape, 0 ≤ e)
    (hlimit : (∃ e ∈ shape, (limit : Int) < e) ∨ (limit : Int) < shape.prod) :
    iota limit shape = .error (.domain (.tooLarge shape limit)) := by
  rw [iota, if_neg (any_neg_eq_false h)]
  exact if_pos ((exceeds_iff h).mpr hlimit)

lemma exists_iota_eq_ok (h : ∀ e ∈ shape, 0 ≤ e)
    (hlimit : ¬ ((∃ e ∈ shape, (limit : Int) < e) ∨ (limit : Int) < shape.prod)) :
    ∃ a, iota limit shape = .ok a ∧ a.shape = shape.map Int.toNat ∧
      a.data = (List.range (volume a.shape)).map Int64.ofNat := by
  rw [iota, if_neg (any_neg_eq_false h)]
  exact ⟨_, if_neg fun hexceeds => hlimit ((exceeds_iff h).mp hexceeds), rfl, rfl⟩

/-- Filled with the numbers from zero on, an array has at each index the place of the index. -/
lemma get_range {a : Dense Int64} (h : a.data = (List.range (volume a.shape)).map Int64.ofNat)
    {index : List Int} (hindex : index ∈ odometer (Shape.extents a.shape)) :
    ∃ p < volume a.shape, flatIndex (Shape.extents a.shape) index = .ok p ∧
      a.get index = .ok (Int64.ofNat p) := by
  obtain ⟨p, hp, hplaces⟩ := exists_offset_of_mem hindex
  have hplace := hplaces 0
  rw [Nat.zero_mul, Nat.zero_add] at hplace
  refine ⟨p, hp, flatIndex_eq_ok_iff.mpr hplace, get_of_offset hplace ?_⟩
  rw [h, List.getElem?_map, List.getElem?_range hp, Option.map_some]

end Dense

/-! ### The verb -/

namespace Primitive

variable {limit : Nat} {n : Noun}

lemma iota_of_extents_error {e : Error} (h : extents n = .error e) : iota limit n = .error e := by
  rw [iota, h]
  rfl

lemma iota_of_extents_ok {shape : List Int} (h : extents n = .ok shape)
    (hshape : ∀ e ∈ shape, 0 ≤ e) :
    iota limit n = (Dense.iota limit shape).map (.array .integer) := by
  rw [iota, h]
  refine (if_neg (Dense.any_neg_eq_false hshape)).trans ?_
  cases Dense.iota limit shape <;> rfl

/-- Counting up fails with the obstacle. -/
lemma iota_of_obstacle {d : DomainError} (h : obstacle? limit n = some d) :
    iota limit n = .error (.domain d) := by
  have hextents := extents_eq n
  rw [obstacle?] at h
  split_ifs at h with hkind hrank hneg hlimit
  · cases h
    exact iota_of_extents_error (hextents.trans (if_pos hkind))
  · cases h
    exact iota_of_extents_error (hextents.trans ((if_neg hkind).trans (if_pos hrank)))
  · cases h
    rw [if_neg hkind, if_neg hrank] at hextents
    obtain ⟨e, he, hlt⟩ := hneg
    rw [iota, hextents]
    exact if_pos (List.any_eq_true.mpr ⟨e, he, decide_eq_true hlt⟩)
  · cases h
    rw [if_neg hkind, if_neg hrank] at hextents
    have hnonneg : ∀ e ∈ n.integers, 0 ≤ e :=
      fun e he => Int.not_lt.mp fun hlt => hneg ⟨e, he, hlt⟩
    rw [iota_of_extents_ok hextents hnonneg, Dense.iota_eq_error hnonneg hlimit]
    rfl

/-- With nothing in the way, there is room for all elements. -/
lemma volume_le_of_clear (h : obstacle? limit n = none) :
    volume (n.integers.map Int.toNat) ≤ limit := by
  obtain ⟨-, -, hnonneg, -, hprod⟩ := obstacle?_eq_none_iff.mp h
  exact Int.ofNat_le.mp (volume_toNat hnonneg ▸ hprod)

/-- With nothing in the way, counting up makes an array of the shape asked for. -/
lemma exists_iota_of_clear (h : obstacle? limit n = none) :
    ∃ a, iota limit n = .ok (.array .integer a) ∧ a.shape = n.integers.map Int.toNat ∧
      a.data = (List.range (volume a.shape)).map Int64.ofNat := by
  have hextents := extents_eq n
  rw [obstacle?] at h
  split_ifs at h with hkind hrank hneg hlimit
  rw [if_neg hkind, if_neg hrank] at hextents
  have hnonneg : ∀ e ∈ n.integers, 0 ≤ e :=
    fun e he => Int.not_lt.mp fun hlt => hneg ⟨e, he, hlt⟩
  obtain ⟨a, ha, hshape, hdata⟩ := Dense.exists_iota_eq_ok hnonneg hlimit
  refine ⟨a, ?_, hshape, hdata⟩
  rw [iota_of_extents_ok hextents hnonneg, ha]
  rfl

end Primitive

open Primitive

/-- **Counting up.**  There is a result exactly if the noun is no decimal one, is an atom or a list,
has no element below zero or beyond the limit, and asks for no more elements than the limit, their
number being counted without any bound.  The result is an integer array whose extents are the
elements of the noun, and has at each index the place of the index; for an empty list it is one zero
without axes.  For any other noun the verb fails for the first thing that is in the way. -/
theorem iota_counts_up (limit : Nat) (n : Noun) :
    (Registry.standard limit).monad "i." = .ok (iota limit) ∧
    ((∃ r, iota limit n = .ok r) ↔
      n.kind ≠ .decimal ∧ (n.isAtom = true ∨ n.rank = 1) ∧ (∀ e ∈ n.integers, 0 ≤ e) ∧
        (∀ e ∈ n.integers, e ≤ limit) ∧ n.integers.prod ≤ limit) ∧
    (∀ r, iota limit n = .ok r → ∃ a : Dense Int64, r = .array .integer a ∧
      Shape.extents a.shape = n.integers ∧
      (∀ index ∈ odometer (Shape.extents a.shape), ∃ p,
        flatIndex (Shape.extents a.shape) index = .ok p ∧ a.get index = .ok (Int64.ofNat p) ∧
        (limit ≤ 2 ^ 63 → (Int64.ofNat p).toInt = p)) ∧
      (n.integers = [] → a.shape = [] ∧ a.data = [0])) ∧
    (∀ e, iota limit n = .error e → ∃ d, obstacle? limit n = some d ∧ e = .domain d) := by
  refine ⟨rfl, ?_⟩
  rw [← obstacle?_eq_none_iff]
  cases hobstacle : obstacle? limit n with
  | some d =>
    rw [iota_of_obstacle hobstacle]
    refine ⟨⟨?_, nofun⟩, nofun, ?_⟩
    · rintro ⟨r, ⟨⟩⟩
    · rintro e ⟨⟩
      exact ⟨d, rfl, rfl⟩
  | none =>
    obtain ⟨a, ha, hshape, hdata⟩ := exists_iota_of_clear hobstacle
    rw [ha]
    refine ⟨⟨fun _ => rfl, fun _ => ⟨_, rfl⟩⟩, ?_, nofun⟩
    rintro r ⟨⟩
    obtain ⟨-, -, hnonneg, -⟩ := obstacle?_eq_none_iff.mp hobstacle
    have hextents : Shape.extents a.shape = n.integers := by
      rw [hshape, Shape.extents, List.map_map]
      calc n.integers.map (Int.ofNat ∘ Int.toNat)
          = n.integers.map id :=
            List.map_congr_left fun e he => Int.toNat_of_nonneg (hnonneg e he)
        _ = n.integers := List.map_id _
    refine ⟨a, rfl, hextents, fun index hindex => ?_, fun hnone => ?_⟩
    · obtain ⟨p, hp, hflat, hget⟩ := Dense.get_range hdata hindex
      refine ⟨p, hflat, hget, fun hlimit => Int64.toInt_ofNat_of_lt ?_⟩
      calc p < volume a.shape := hp
        _ ≤ limit := hshape ▸ volume_le_of_clear hobstacle
        _ ≤ 2 ^ 63 := hlimit
    · rw [hnone] at hshape
      rw [hshape] at hdata
      exact ⟨hshape, hdata⟩

/-- Six elements are as many as a limit of six admits, and a huge extent does not hide behind a zero
one. -/
theorem counts_up_two_by_three :
    let n : Noun := .array .integer ⟨[2], [2, 3], rfl⟩
    let m : Noun := .array .integer ⟨[2], [0, 7], rfl⟩
    (∃ a : Dense Int64, iota 6 n = .ok (.array .integer a) ∧ Shape.extents a.shape = [2, 3] ∧
      a.get [1, 2] = .ok 5) ∧
    iota 6 (.array .integer ⟨[0], [], rfl⟩) = .ok (.array .integer ⟨[], [0], rfl⟩) ∧
    iota 6 m = .error (.domain (.tooLarge [0, 7] 6)) ∧
    obstacle? 6 m = some (.tooLarge [0, 7] 6) := by
  intro n m
  have hclear : n.kind ≠ .decimal ∧ (n.isAtom = true ∨ n.rank = 1) ∧ (∀ e ∈ n.integers, 0 ≤ e) ∧
      (∀ e ∈ n.integers, e ≤ (6 : Nat)) ∧ n.integers.prod ≤ (6 : Nat) := by decide
  obtain ⟨r, hr⟩ := (iota_counts_up 6 n).2.1.mpr hclear
  obtain ⟨a, rfl, hextents, hplaces, -⟩ := (iota_counts_up 6 n).2.2.1 r hr
  have hextents : Shape.extents a.shape = [2, 3] := hextents
  rw [hextents] at hplaces
  obtain ⟨p, hp, hget, -⟩ := hplaces [1, 2] (by decide)
  cases hp
  have hlarge : iota 6 m = .error (.domain (.tooLarge [0, 7] 6)) := rfl
  obtain ⟨d, hd, hsame⟩ := (iota_counts_up 6 m).2.2.2 _ hlarge
  cases hsame
  exact ⟨⟨a, hr, hextents, hget⟩, rfl, hlarge, hd⟩

end ArrayCalc
