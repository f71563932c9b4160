import ArrayCalc.Proofs.Verb.IntegerLaws
/-!
Negatives, magnitudes and signs of integers.

The least integer is its own negative, and so its own magnitude.  What is known of negatives,
magnitudes and signs of all integers holds of it too, because the verbs wrap.

* `toInt_neg_cases`: a negative is the one of all integers, but for the least; `magnitude_neg`,
  `magnitude_magnitude`, `IntegerMonad.signum_mul_magnitude`: the laws; `magnitude_lt_zero_iff`: the
  one magnitude that is negative;
* `IntegerMonad.magnitude`, `IntegerMonad.signum`: the verbs as rules of integers;
  `IntegerTerm.same_negative_negative` and so on: the laws, for terms;
* `IntegerTerm.Same.run_eq`: a term that stands for a noun gives the noun;
  `integers_have_sign_and_magnitude`: **the laws hold of integer nouns**, which are found again from
  their signs and magnitudes.
-/

namespace ArrayCalc

open Primitive

/-! ### Integers -/

section Integers

variable (x : Int64)

lemma magnitude_eq : magnitude .integer x = if x < 0 then -x else x := rfl

/-- A negative is the one of all integers, unless that is out of range. -/
lemma toInt_neg_cases :
    x.toInt ≠ -2 ^ 63 ∧ (-x).toInt = -x.toInt ∨ x = Int64.minValue ∧ -x = x := by
  by_cases hmin : x = Int64.minValue
  · subst hmin
    exact .inr ⟨rfl, rfl⟩
  · have hne : x.toInt ≠ -2 ^ 63 := by
      rwa [← Int64.toInt_minValue, Ne, Int64.toInt_inj]
    have hlow := Int64.le_toInt x
    have hhigh := Int64.toInt_lt x
    refine .inl ⟨hne, ?_⟩
    rw [Int64.toInt_neg, Int.bmod_eq_of_le] <;> omega

lemma magnitude_neg : magnitude .integer (-x) = magnitude .integer x := by
  rcases toInt_neg_cases x with ⟨-, hneg⟩ | ⟨-, hneg⟩
  · rw [magnitude_eq, magnitude_eq, Int64.neg_neg, ← Int64.toInt_inj]
    simp only [Int64.lt_iff_toInt_lt, hneg, Int64.toInt_zero]
    split_ifs <;> omega
  · rw [hneg]

lemma magnitude_magnitude : magnitude .integer (magnitude .integer x) = magnitude .integer x := by
  by_cases hneg : x < 0
  · have hx : magnitude .integer x = -x := if_pos hneg
    rw [hx, magnitude_neg, hx]
  · have hx : magnitude .integer x = x := if_neg hneg
    rw [hx, hx]

/-- The only magnitude that is negative is that of the least integer. -/
lemma magnitude_lt_zero_iff : (magnitude .integer x : Int64) < 0 ↔ x = Int64.minValue := by
  rcases toInt_neg_cases x with ⟨hne, hneg⟩ | ⟨rfl, -⟩
  · rw [magnitude_eq, ← Int64.toInt_inj, Int64.toInt_minValue]
    simp only [Int64.lt_iff_toInt_lt, Int64.toInt_zero]
    split_ifs <;> omega
  · decide

end Integers

/-! ### Terms -/

namespace IntegerMonad

/-- The magnitude; that of a truth value is itself. -/
def magnitude : IntegerMonad where
  result := id
  rule := Primitive.magnitude
  op := Primitive.magnitude .integer
  result_le _ h := h
  whole_rule k h x := by
    cases k with
    | boolean => revert x; decide
    | integer => rfl
    | decimal => exact absurd h (by decide)

/-- The sign; that of a truth value is itself. -/
def signum : IntegerMonad where
  result := signKind
  rule := sign
  op := sign .integer
  result_le k h := by
    cases k with
    | boolean | integer => exact h
    | decimal => exact absurd h (by decide)
  whole_rule k h x := by
    cases k with
    | boolean => cases x <;> rfl
    | integer => rfl
    | decimal => exact absurd h (by decide)

/-- An integer is made of its sign and its magnitude, the least one too. -/
lemma signum_mul_magnitude (x : Int64) : signum.op x * magnitude.op x = x := by
  show (if 0 < x then 1 else if x < 0 then -1 else 0 : Int64) * (if x < 0 then -x else x) = x
  split_ifs with hpos hneg hneg
  · rw [Int64.lt_iff_toInt_lt] at hpos hneg
    omega
  · exact Int64.one_mul x
  · rw [Int64.neg_mul_neg, Int64.one_mul]
  · rw [Int64.lt_iff_toInt_lt, Int64.toInt_zero] at hpos hneg
    rw [Int64.zero_mul, ← Int64.toInt_inj, Int64.toInt_zero]
    omega

end IntegerMonad

namespace IntegerTerm

section Laws

variable {t : IntegerTerm} (h : t.kind = .integer)
include h

lemma same_negative_negative : (monad .negative (monad .negative t)).Same t where
  leaves _ := Iff.rfl
  kind := by
    have hle : t.kind ≤ .integer := h ▸ Kind.le_refl _
    exact (arithmetic_of_le (arithmetic_le hle)).trans h.symm
  value _ := Int64.neg_neg

lemma same_magnitude_negative :
    (monad .magnitude (monad .negative t)).Same (monad .magnitude t) where
  leaves _ := Iff.rfl
  kind := (arithmetic_of_le (h ▸ Kind.le_refl _)).trans h.symm
  value _ := magnitude_neg _

lemma same_signum_magnitude :
    (dyad .product (monad .signum t) (monad .magnitude t)).Same t where
  leaves m := by rw [leaves, leaves, leaves, List.mem_append, or_self]
  kind := by
    show Kind.join (signKind t.kind) t.kind = t.kind
    rw [h]
    rfl
  value _ := IntegerMonad.signum_mul_magnitude _

end Laws

lemma same_magnitude_magnitude (t : IntegerTerm) :
    (monad .magnitude (monad .magnitude t)).Same (monad .magnitude t) where
  leaves _ := Iff.rfl
  kind := rfl
  value _ := magnitude_magnitude _

/-- A term gives the noun that another term gives, if it stands for the same integers. -/
lemma Same.run_eq {s t : IntegerTerm} {n : Noun} (h : s.Same t)
    (hkind : ∀ m ∈ s.leaves, m.kind ≤ .integer) (ht : t.run = .ok n) : s.run = .ok n := by
  have halike := h.alike hkind
  rw [ht] at halike
  generalize s.run = run at halike
  cases halike
  rfl

end IntegerTerm

open IntegerTerm

/-- **Integers have a sign and a magnitude**, wherever they are in the range of the machine, alone
or in an array of any shape: the negative of the negative is the noun itself; a noun, its negative
and its magnitude have one magnitude, of the same type, shape and kind; and the noun is the product
of its sign and its magnitude.  Yet that magnitude is below zero just where the noun has the least
integer. -/
theorem integers_have_sign_and_magnitude (limit : Nat) (v : Shaped Int64) :
    let x : Noun := ⟨.integer, v⟩
    ∃ negative size sign times, ∃ w : Shaped Int64,
      ((Registry.standard limit).monad "-" = .ok negative ∧
        (Registry.standard limit).monad "|" = .ok size ∧
        (Registry.standard limit).monad "*" = .ok sign ∧
        (Registry.standard limit).dyad "*" = .ok times) ∧
      (negative x >>= negative) = .ok x ∧
      (size x = .ok ⟨.integer, w⟩ ∧ w.isAtom = v.isAtom ∧ w.shape = v.shape) ∧
      (negative x >>= size) = .ok ⟨.integer, w⟩ ∧
      (size x >>= size) = .ok ⟨.integer, w⟩ ∧
      (do times.apply (← sign x) (← size x)) = .ok x ∧
      ∀ (j : Nat) (e : Int64), v.data[j]? = some e →
        ∃ e', w.data[j]? = some e' ∧ (e' < 0 ↔ e = Int64.minValue) := by
  intro x
  have hleaf : ∀ m ∈ [x], m.kind ≤ .integer := List.forall_mem_singleton.mpr (Kind.le_refl _)
  have hleaves : ∀ m ∈ [x] ++ [x], m.kind ≤ .integer :=
    List.forall_mem_append.mpr ⟨hleaf, hleaf⟩
  have hx : (noun x).kind = .integer := rfl
  have hsize : (monad .magnitude (noun x)).run = .ok ⟨.integer, v.map (magnitude .integer)⟩ :=
    monadic_pointwise id magnitude x
  refine ⟨_, _, _, _, v.map (magnitude .integer), ⟨rfl, rfl, rfl, rfl⟩, ?negative,
    ⟨hsize, Shaped.isAtom_map _ _, Shaped.shape_map _ _⟩, ?of_negative, ?of_size, ?product, ?below⟩
  case negative => exact (same_negative_negative hx).run_eq hleaf rfl
  case of_negative => exact (same_magnitude_negative hx).run_eq hleaf hsize
  case of_size => exact (same_magnitude_magnitude (noun x)).run_eq hleaf hsize
  case product => exact (same_signum_magnitude hx).run_eq hleaves rfl
  case below =>
    intro j e he
    refine ⟨magnitude .integer e, ?_, magnitude_lt_zero_iff e⟩
    rw [Shaped.data_map, List.getElem?_map, he, Option.map_some]

/-- The least integer beside its neighbour and the greatest. -/
theorem sign_and_magnitude_of_least :
    let v : Shaped Int64 :=
      .array ⟨[3], [-9223372036854775808, -9223372036854775807, 9223372036854775807], rfl⟩
    v.data[0]? = some Int64.minValue ∧
    ∃ negative size sign times,
      (Registry.standard 9).monad "-" = .ok negative ∧
      (Registry.standard 9).monad "|" = .ok size ∧
      (Registry.standard 9).monad "*" = .ok sign ∧
      (Registry.standard 9).dyad "*" = .ok times ∧
      negative ⟨.integer, v⟩ = .ok (.array .integer
        ⟨[3], [-9223372036854775808, 9223372036854775807, -9223372036854775807], rfl⟩) ∧
      (negative ⟨.integer, v⟩ >>= negative) = .ok ⟨.integer, v⟩ ∧
      (do times.apply (← sign ⟨.integer, v⟩) (← size ⟨.integer, v⟩)) = .ok ⟨.integer, v⟩ ∧
      ∃ w : Shaped Int64, size ⟨.integer, v⟩ = .ok ⟨.integer, w⟩ ∧ ∃ e ∈ w.data[0]?, e < 0 := by
  intro v
  have hleast : v.data[0]? = some Int64.minValue := rfl
  obtain ⟨negative, size, sign, times, w, ⟨hnegative, hsize, hsign, htimes⟩, htwice, ⟨hw, -⟩, -, -,
    hproduct, hbelow⟩ := integers_have_sign_and_magnitude 9 v
  obtain ⟨e, he, hiff⟩ := hbelow 0 _ hleast
  have honce : negative ⟨.integer, v⟩ = .ok (.array .integer
      ⟨[3], [-9223372036854775808, 9223372036854775807, -9223372036854775807], rfl⟩) := by
    cases hnegative
    cbv
  exact ⟨hleast, negative, size, sign, times, hnegative, hsize, hsign, htimes, honce, htwice,
    hproduct, w, hw, e, he, hiff.mpr rfl⟩

end ArrayCalc
