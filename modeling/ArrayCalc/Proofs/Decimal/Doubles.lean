import ArrayCalc.Proofs.Decimal.Rounding
import Mathlib
/-!
Doubles and the numbers they hold.

* `Scaled.whole?_eq_some_iff`: a number is found to be whole when it is;
* `unpack_of_isFinite`, `unpack_of_isInf`: what the bits of a double say: a sign and the number that
  `Scaled.ofFloat` reads, or a sign and nothing else;
* `Scaled.Fits`: the numbers that a double can hold; `fits_ofFloat`: a finite double holds one;
* `Scaled.toFloat`: the double of a sign and a number; a finite double is that of its own
  (`toFloat_ofFloat`), and they can be read off it again (`sign_toFloat`, `ofFloat_toFloat`);
* `neg_toFloat`, `abs_eq`: negation and absolute value change the sign alone; `signed_abs`: the sign
  and the absolute value make the double; `eq_of_isInf`: there are two infinities.
-/

namespace ArrayCalc.Decimal

open Float.Model Float.Model.UnpackedFloat

namespace Scaled

lemma unpacked_of_pos {s : Sign} {b : Scaled} (h : 0 < b.significand) :
    b.unpacked s = .finite s b.significand b.exponent h := dif_neg h.ne'

lemma unpacked_of_eq_zero {s : Sign} {b : Scaled} (h : b.significand = 0) :
    b.unpacked s = .zero s := dif_pos h

@[simp] lemma isNaN_unpacked (s : Sign) (b : Scaled) : (b.unpacked s).isNaN = false := by
  unfold unpacked; split <;> rfl

@[simp] lemma isInf_unpacked (s : Sign) (b : Scaled) : (b.unpacked s).isInf = false := by
  unfold unpacked; split <;> rfl

lemma neg_unpacked (s : Sign) (b : Scaled) : (b.unpacked s).neg = b.unpacked (-s) := by
  unfold unpacked; split <;> rfl

lemma abs_unpacked (s : Sign) (b : Scaled) : (b.unpacked s).abs = b.unpacked .positive := by
  unfold unpacked; split <;> rfl

lemma value_of_nonneg {b : Scaled} (h : 0 ≤ b.exponent) :
    b.value = (b.significand * 2 ^ b.exponent.toNat : ℕ) := by
  rw [value]
  push_cast
  rw [← zpow_natCast, Int.toNat_of_nonneg h]

lemma value_of_neg {b : Scaled} (h : ¬ 0 ≤ b.exponent) :
    b.value = b.significand / (2 ^ (-b.exponent).toNat : ℕ) := by
  rw [value]
  push_cast
  rw [← zpow_natCast, Int.toNat_of_nonneg (by omega), zpow_neg, div_inv_eq_mul]

lemma value_nonneg (b : Scaled) : 0 ≤ b.value := by
  rw [value]
  positivity

lemma value_eq_zero_iff {b : Scaled} : b.value = 0 ↔ b.significand = 0 := by
  rw [value, mul_eq_zero, Nat.cast_eq_zero, or_iff_left (by positivity)]

/-- Whole numbers are found as such. -/
lemma whole?_eq_some_iff {b : Scaled} {n : ℕ} : b.whole? = some n ↔ b.value = n := by
  rw [whole?, truncated, Nat.pow_eq, Nat.pow_eq]
  by_cases h : 0 ≤ b.exponent
  · simp only [h, true_or, if_true, Option.some.injEq]
    rw [value_of_nonneg h, Nat.cast_inj]
  · have hpos : 0 < 2 ^ (-b.exponent).toNat := by positivity
    rw [value_of_neg h, div_eq_iff (by positivity)]
    simp only [h, false_or, if_false]
    norm_cast
    generalize 2 ^ (-b.exponent).toNat = d at *
    split_ifs with hd
    · rw [Option.some_inj, Nat.div_eq_iff_eq_mul_left hpos (Nat.dvd_of_mod_eq_zero hd)]
    · simp only [false_iff]
      intro hn
      exact hd (by rw [hn, Nat.mul_mod_left])

/-- Numbers that a double can hold: 53 places, all of them used unless the last is the lowest. -/
structure Fits (b : Scaled) : Prop where
  small : b.significand < 2 ^ 53
  least : -1074 ≤ b.exponent
  most : b.exponent ≤ 971
  leading : 2 ^ 52 ≤ b.significand ∨ b.exponent = -1074

/-- What fits is spelled in one way only. -/
lemma unpacked_inj {a b : Scaled} {s t : Sign} (ha : a.Fits) (hb : b.Fits)
    (h : a.unpacked s = b.unpacked t) : s = t ∧ a = b := by
  obtain ⟨n, e⟩ := a
  obtain ⟨m, f⟩ := b
  unfold unpacked at h
  split_ifs at h with hn hm hm
  · simp only at hn hm
    have he := ha.leading.resolve_left (by simp [hn])
    have hf := hb.leading.resolve_left (by simp [hm])
    simp only at he hf
    injection h with hs
    rw [hs, hn, hm, he, hf]
    exact ⟨rfl, rfl⟩
  · injection h with hs hnm hef
    simp only at hnm hef
    exact ⟨hs, by rw [hnm, hef]⟩

end Scaled

/-! ### The bits of a double -/

/-- The sign of a double. -/
def sign (x : Float) : Sign := if isNegative x then .negative else .positive

/-- The exponent bits. -/
def exponentField (x : Float) : ℕ := x.toBits.toNat / 2 ^ 52 % 2 ^ 11

/-- The bits of the significand, the leading one left out. -/
def fractionField (x : Float) : ℕ := x.toBits.toNat % 2 ^ 52

lemma ofFloat_eq (x : Float) :
    Scaled.ofFloat x =
      if exponentField x = 0 then ⟨fractionField x, -1074⟩
      else ⟨2 ^ 52 + fractionField x, exponentField x - 1075⟩ := rfl

lemma toNat_unpackExponent (x : Float) :
    (@unpackExponent .binary64 x.toBits.toBitVec).toNat = exponentField x := by
  rw [unpackExponent_def, BitVec.extractLsb'_toNat, Nat.shiftRight_eq_div_pow]
  rfl

lemma toNat_unpackMantissa (x : Float) :
    (@unpackMantissa .binary64 x.toBits.toBitVec).toNat = fractionField x := by
  rw [unpackMantissa_def, BitVec.extractLsb'_toNat, Nat.shiftRight_zero]
  rfl

lemma ofBitVec_unpackSign (x : Float) :
    Sign.ofBitVec (@unpackSign .binary64 x.toBits.toBitVec) = sign x := by
  have hbit : @unpackSign .binary64 x.toBits.toBitVec = 0#1 ↔
      ¬ 2 ^ 63 ≤ x.toBits.toNat := by
    have hlt := x.toBits.toNat_lt
    have h : (@unpackSign .binary64 x.toBits.toBitVec).toNat =
        x.toBits.toNat / 2 ^ 63 % 2 := by
      rw [unpackSign_def, BitVec.extractLsb'_toNat, Nat.shiftRight_eq_div_pow]
      rfl
    rw [← BitVec.toNat_inj, h, BitVec.toNat_ofNat]
    omega
  unfold Sign.ofBitVec sign isNegative
  rw [Nat.pow_eq]
  by_cases hx : 2 ^ 63 ≤ x.toBits.toNat
  · rw [if_neg (by rwa [hbit, not_not]), if_pos (decide_eq_true hx)]
  · rw [if_pos (hbit.2 hx), if_neg (by simpa using hx)]

lemma toNat_one_append (v : BitVec 52) : (1#1 ++ v).toNat = 2 ^ 52 + v.toNat := by
  rw [BitVec.toNat_append, Nat.shiftLeft_eq, Nat.mul_comm]
  exact (Nat.two_pow_add_eq_or_of_lt v.isLt 1).symm

/-- What the bits say: all exponent bits set mark infinities and what is not a number. -/
lemma unpack_toModel (x : Float) :
    x.toModel.unpack =
      if exponentField x = 2047 then
        if fractionField x = 0 then .infinity (sign x) else .notANumber
      else (Scaled.ofFloat x).unpacked (sign x) := by
  have hexp (k : ℕ) (hk : k < 2 ^ 11) :
      @unpackExponent .binary64 x.toBits.toBitVec = BitVec.ofNat 11 k ↔
        exponentField x = k := by
    rw [← BitVec.toNat_inj, toNat_unpackExponent, BitVec.toNat_ofNat, Nat.mod_eq_of_lt hk]
  have hman : @unpackMantissa .binary64 x.toBits.toBitVec = 0#52 ↔
      fractionField x = 0 := by
    rw [← BitVec.toNat_inj, toNat_unpackMantissa, BitVec.toNat_ofNat, Nat.zero_mod]
  have hall : (-1#11 : BitVec 11) = BitVec.ofNat 11 2047 := by decide
  rw [← ofBitVec_unpackSign, ofFloat_eq]
  change UnpackedFloat.unpack .binary64 x.toBits.toBitVec = _
  unfold UnpackedFloat.unpack
  simp only [hall, hexp 2047 (by decide), hexp 0 (by decide), hman]
  split_ifs with h1 h2 h3 h4
  · rfl
  · rfl
  · rw [Scaled.unpacked_of_eq_zero h4]
  · rw [Scaled.unpacked_of_pos (Nat.pos_of_ne_zero h4)]
    simp only [toNat_unpackMantissa, toNat_unpackExponent, h3]
    rfl
  · rw [Scaled.unpacked_of_pos (by simp)]
    simp only [toNat_unpackExponent, toNat_one_append, toNat_unpackMantissa]
    rfl

/-! ### Finite doubles -/

/-- Neither an infinity nor something that is not a number. -/
def IsFinite (x : Float) : Prop := x.isNaN = false ∧ x.isInf = false

lemma isNaN_eq (x : Float) : x.isNaN = x.toModel.unpack.isNaN := rfl

lemma isInf_eq (x : Float) : x.isInf = x.toModel.unpack.isInf := rfl

lemma isFinite_iff (x : Float) : IsFinite x ↔ exponentField x ≠ 2047 := by
  rw [IsFinite, isNaN_eq, isInf_eq, unpack_toModel]
  split_ifs with h1 h2
  · simp [UnpackedFloat.isInf, h1]
  · simp [UnpackedFloat.isNaN, h1]
  · simp [h1]

lemma unpack_of_isFinite {x : Float} (h : IsFinite x) :
    x.toModel.unpack = (Scaled.ofFloat x).unpacked (sign x) := by
  rw [unpack_toModel, if_neg ((isFinite_iff x).1 h)]

lemma unpack_of_isInf {x : Float} (h : x.isInf = true) : x.toModel.unpack = .infinity (sign x) := by
  rw [isInf_eq, unpack_toModel] at h
  rw [unpack_toModel]
  split_ifs at h ⊢ with h1 h2
  · rfl
  · cases h
  · simp at h

lemma fits_ofFloat {x : Float} (h : IsFinite x) : (Scaled.ofFloat x).Fits := by
  have h2047 := (isFinite_iff x).1 h
  have hf : fractionField x < 2 ^ 52 := Nat.mod_lt _ (by decide)
  have he : exponentField x < 2 ^ 11 := Nat.mod_lt _ (by decide)
  rw [ofFloat_eq]
  split_ifs with h0
  · exact ⟨by simp only; omega, by simp, by simp, .inr rfl⟩
  · exact ⟨by simp only; omega, by simp only; omega, by simp only; omega, .inl (by simp)⟩

/-! ### Packing -/

lemma exponentBias_eq : Format.binary64.exponentBias = 1023 := rfl

lemma mantissaBits_eq : Format.binary64.mantissaBits = 53 := rfl

/-- Numbers with too high an exponent become infinite. -/
lemma pack_unpacked_of_large {b : Scaled} (s : Sign) (h : 0 < b.significand)
    (h' : 971 < b.exponent) :
    UnpackedFloat.pack .binary64 (b.unpacked s) = packedInfinity .binary64 s := by
  rw [Scaled.unpacked_of_pos h, UnpackedFloat.pack, exponentBias_eq, if_pos]
  simp only
  omega

lemma log2_eq_iff_leading {n : ℕ} (h : 0 < n) (h' : n < 2 ^ 53) :
    n.log2 + 1 = 53 ↔ 2 ^ 52 ≤ n := by
  rw [Nat.succ_inj, Nat.log2_eq_iff h.ne']
  exact and_iff_left h'

/-- The bits of a number that fits.  When all 53 places are in use the leading one is left out. -/
lemma pack_unpacked {b : Scaled} (s : Sign) (hb : b.Fits) (h : 0 < b.significand) :
    UnpackedFloat.pack .binary64 (b.unpacked s) =
      if 2 ^ 52 ≤ b.significand then
        packComponents .binary64 s (BitVec.ofNat 11 (b.exponent + 1075).toNat)
          (BitVec.ofNat 52 b.significand)
      else packComponents .binary64 s 0#11 (BitVec.ofNat 52 b.significand) := by
  have most := hb.most
  have hbias : b.exponent + (1023 : ℕ) + (52 : ℕ) = b.exponent + 1075 := by omega
  rw [Scaled.unpacked_of_pos h, UnpackedFloat.pack, exponentBias_eq, mantissaBits_eq, if_neg]
  · simp only [log2_eq_iff_leading h hb.small, hbias]
  · simp only
    omega

/-- What fits survives packing. -/
lemma unpack_pack_unpacked {b : Scaled} (s : Sign) (hb : b.Fits) :
    UnpackedFloat.unpack .binary64 (UnpackedFloat.pack .binary64 (b.unpacked s)) =
      b.unpacked s := by
  rcases b.significand.eq_zero_or_pos with hn | hn
  · rw [Scaled.unpacked_of_eq_zero hn]
    exact unpack_packedZero
  have small := hb.small
  have least := hb.least
  have most := hb.most
  rw [pack_unpacked s hb hn, Scaled.unpacked_of_pos hn]
  split_ifs with h
  · have hm : (BitVec.ofNat 52 b.significand).toNat = b.significand - 2 ^ 52 := by
      rw [BitVec.toNat_ofNat]; omega
    have he : (BitVec.ofNat 11 (b.exponent + 1075).toNat).toNat = (b.exponent + 1075).toNat := by
      rw [BitVec.toNat_ofNat]; omega
    have he0 : BitVec.ofNat 11 (b.exponent + 1075).toNat ≠ 0#11 := by
      rw [Ne, ← BitVec.toNat_inj, he, BitVec.toNat_ofNat]; omega
    have he1 : BitVec.ofNat 11 (b.exponent + 1075).toNat ≠ -1#11 := by
      rw [Ne, ← BitVec.toNat_inj, he, show (-1#11).toNat = 2047 from rfl]; omega
    unfold UnpackedFloat.unpack
    simp only [unpackExponent_packComponents, unpackMantissa_packComponents,
      unpackSign_packComponents, Sign.ofBitVec_toBitVec, he0, he1, toNat_one_append, hm, he,
      if_false]
    rw [UnpackedFloat.finite.injEq, exponentBias_eq]
    exact ⟨rfl, by omega, by omega⟩
  · have hm : (BitVec.ofNat 52 b.significand).toNat = b.significand := by
      rw [BitVec.toNat_ofNat]; omega
    have hm0 : BitVec.ofNat 52 b.significand ≠ 0#52 := by
      rw [Ne, ← BitVec.toNat_inj, hm, BitVec.toNat_ofNat]; omega
    unfold UnpackedFloat.unpack
    simp only [unpackExponent_packComponents, unpackMantissa_packComponents,
      unpackSign_packComponents, Sign.ofBitVec_toBitVec, hm0, hm, dite_false]
    rw [if_neg (by decide), if_pos trivial, UnpackedFloat.finite.injEq, exponentBias_eq]
    exact ⟨rfl, rfl, (hb.leading.resolve_left h).symm⟩

/-! ### The double of a number -/

/-- Doubles whose bits say the same are the same. -/
lemma float_ext {x y : Float} (h : x.toModel.unpack = y.toModel.unpack) : x = y := by
  rw [← Float.toBits_inj, ← UInt64.toBitVec_inj]
  exact (unpack_inj_of_valid x.toModel.valid y.toModel.valid).1 h

/-- The double of a number and a sign. -/
def Scaled.toFloat (s : Sign) (b : Scaled) : Float := .ofModel (.pack (b.unpacked s))

lemma unpack_toFloat {b : Scaled} (s : Sign) (hb : b.Fits) :
    (b.toFloat s).toModel.unpack = b.unpacked s := unpack_pack_unpacked s hb

/-- A finite double is that of its sign and its number. -/
lemma toFloat_ofFloat {x : Float} (h : IsFinite x) : (Scaled.ofFloat x).toFloat (sign x) = x :=
  float_ext (by rw [unpack_toFloat _ (fits_ofFloat h), unpack_of_isFinite h])

/-- Negation turns the sign. -/
lemma neg_toFloat {b : Scaled} (s : Sign) (hb : b.Fits) : -(b.toFloat s) = b.toFloat (-s) := by
  change Float.ofModel (.pack (b.toFloat s).toModel.unpack.neg) = _
  rw [unpack_toFloat s hb, Scaled.neg_unpacked]
  rfl

/-- The absolute value has the number, without the sign. -/
lemma abs_eq {x : Float} (h : IsFinite x) : x.abs = (Scaled.ofFloat x).toFloat .positive := by
  change Float.ofModel (.pack x.toModel.unpack.abs) = _
  rw [unpack_of_isFinite h, Scaled.abs_unpacked]
  rfl

lemma isFinite_toFloat {b : Scaled} (s : Sign) (hb : b.Fits) : IsFinite (b.toFloat s) := by
  rw [IsFinite, isNaN_eq, isInf_eq, unpack_toFloat s hb]
  simp

lemma sign_and_ofFloat_toFloat {b : Scaled} (s : Sign) (hb : b.Fits) :
    sign (b.toFloat s) = s ∧ Scaled.ofFloat (b.toFloat s) = b := by
  have hf := isFinite_toFloat s hb
  refine Scaled.unpacked_inj (fits_ofFloat hf) hb ?_
  rw [← unpack_of_isFinite hf, unpack_toFloat s hb]

lemma sign_toFloat {b : Scaled} (s : Sign) (hb : b.Fits) : sign (b.toFloat s) = s :=
  (sign_and_ofFloat_toFloat s hb).1

lemma ofFloat_toFloat {b : Scaled} (s : Sign) (hb : b.Fits) : Scaled.ofFloat (b.toFloat s) = b :=
  (sign_and_ofFloat_toFloat s hb).2

lemma isNegative_toFloat {b : Scaled} (hb : b.Fits) (negative : Bool) :
    isNegative (b.toFloat (if negative then .negative else .positive)) = negative := by
  have h := sign_toFloat (if negative then .negative else .positive) hb
  rw [sign] at h
  cases hn : isNegative (b.toFloat (if negative then .negative else .positive)) <;>
    cases negative <;> simp_all

/-- A finite double is its absolute value with its sign. -/
lemma signed_abs {x : Float} (h : IsFinite x) : (if isNegative x then -x.abs else x.abs) = x := by
  have hx := toFloat_ofFloat h
  rw [abs_eq h]
  cases hs : isNegative x with
  | true =>
    rw [sign, hs] at hx
    rw [if_pos rfl, neg_toFloat _ (fits_ofFloat h)]
    exact hx
  | false =>
    rw [sign, hs] at hx
    exact hx

/-- The number that a finite double holds, with its sign; both zeros are zero. -/
def signedValue (x : Float) : ℚ :=
  if isNegative x then -(Scaled.ofFloat x).value else (Scaled.ofFloat x).value

lemma signedValue_toFloat {b : Scaled} (hb : b.Fits) (negative : Bool) :
    signedValue (b.toFloat (if negative then .negative else .positive)) =
      if negative then -b.value else b.value := by
  rw [signedValue, isNegative_toFloat hb, ofFloat_toFloat _ hb]

/-! ### Infinities -/

/-- There are two infinities. -/
lemma eq_of_isInf {x y : Float} (hx : x.isInf = true) (hy : y.isInf = true)
    (h : isNegative x = isNegative y) : x = y := by
  apply float_ext
  rw [unpack_of_isInf hx, unpack_of_isInf hy, sign, sign, h]

lemma isNaN_of_isInf {x : Float} (h : x.isInf = true) : x.isNaN = false := by
  rw [isNaN_eq, unpack_of_isInf h]
  rfl

end ArrayCalc.Decimal
