import ArrayCalc.Decimal.Narrow
import ArrayCalc.Proofs.Decimal.Closest
/-!
Doubles rounded to fewer places.

* `Precision.Narrow`: precisions whose numbers are all doubles; `narrow_half`, `narrow_brain`,
  `narrow_single`: the storage formats are of this sort;
* `Precision.place`: the exponent of the last place that a precision keeps of a number,
  `Precision.rounded`: the number rounded to it; `Precision.Holds`: the numbers of a precision;
* `divideToEven_eq`, `powerOfTwo_eq`, `exists_ofNat_mul_powerOfTwo`: integers divided, powers of
  two, and the product that puts a result together, which is exact;
* `narrowed_cases`: the double that comes out holds the number rounded, or is infinite if that is
  out of range;
* `narrowed_rounds`: **it is the closest one of the precision**; `narrowed_of_holds`: what the
  precision holds is kept.
-/

namespace ArrayCalc.Decimal

open Float.Model Float.Model.UnpackedFloat

/-- A number that a double holds is spelled in one way only. -/
lemma Scaled.Fits.eq_of_value {a b : Scaled} (ha : a.Fits) (hb : b.Fits)
    (h : a.value = b.value) : a = b := by
  rcases a.significand.eq_zero_or_pos with h0 | hpos
  · have h0' : b.significand = 0 := value_eq_zero_iff.1 (h ▸ value_eq_zero_iff.2 h0)
    have hleast : ∀ {c : Scaled}, c.Fits → c.significand = 0 → c = ⟨0, -1074⟩ := by
      rintro ⟨n, e⟩ hc rfl
      have he : e = -1074 := hc.leading.resolve_left (by simp)
      rw [he]
    rw [hleast ha h0, hleast hb h0']
  · have hpos' : 0 < b.significand := by
      refine Nat.pos_of_ne_zero fun h0' => hpos.ne' ?_
      exact value_eq_zero_iff.1 (h.trans (value_eq_zero_iff.2 h0'))
    rw [← rounded_value ha hpos, h, rounded_value hb hpos']

/-! ### Precisions -/

namespace Precision

/-- A precision of which every number is a double, and a normal one in its last place. -/
structure Narrow (p : Precision) : Prop where
  some : 0 < p.bits
  few : p.bits < 53
  least : -1022 ≤ p.least
  top : p.top ≤ 1024
  room : p.least < p.top

lemma narrow_half : half.Narrow := by constructor <;> decide

lemma narrow_brain : brain.Narrow := by constructor <;> decide

lemma narrow_single : single.Narrow := by constructor <;> decide

/-- The exponent of the last place kept of a number: as many places as there are bits, but none
below the finest unit. -/
def place (p : Precision) (v : ℚ) : ℤ := max (Int.log 2 v + 1 - p.bits) p.least

/-- A number in units of its last place, rounded. -/
def units (p : Precision) (v : ℚ) : ℕ := nearestEven (v / 2 ^ p.place v)

/-- A number rounded to a precision, whatever the range of that is. -/
def rounded (p : Precision) (v : ℚ) : ℚ := p.units v * 2 ^ p.place v

/-- The numbers of a precision. -/
def Holds (p : Precision) (q : ℚ) : Prop :=
  |q| < 2 ^ p.top ∧ ∃ k e : ℤ, |k| < 2 ^ p.bits ∧ p.least ≤ e ∧ q = k * 2 ^ e

variable {p : Precision}

lemma Holds.neg {q : ℚ} (h : p.Holds q) : p.Holds (-q) := by
  obtain ⟨hrange, k, e, hk, he, rfl⟩ := h
  refine ⟨by rwa [abs_neg], -k, e, by rwa [abs_neg], he, ?_⟩
  push_cast
  ring

lemma holds_abs {q : ℚ} : p.Holds |q| ↔ p.Holds q := by
  rcases abs_choice q with h | h
  · rw [h]
  · rw [h]
    exact ⟨fun hq => neg_neg q ▸ hq.neg, Holds.neg⟩

/-- In units of its last place a number has no more digits than the precision has bits. -/
lemma div_place_lt (p : Precision) (v : ℚ) : v / 2 ^ p.place v < 2 ^ p.bits := by
  rw [div_lt_iff₀ (by positivity), ← zpow_natCast, ← zpow_add₀ two_ne_zero]
  have h := Int.lt_zpow_succ_log_self (b := 2) one_lt_two v
  refine lt_of_lt_of_le (by exact_mod_cast h) (zpow_le_zpow_right₀ one_le_two ?_)
  have hplace : Int.log 2 v + 1 - p.bits ≤ p.place v := le_max_left _ _
  omega

lemma units_le {v : ℚ} (hv : 0 ≤ v) : p.units v ≤ 2 ^ p.bits :=
  nearestEven_le (div_nonneg hv (by positivity)) (by exact_mod_cast (p.div_place_lt v).le)

/-- A number rounded is one of the precision, unless it is out of range. -/
lemma holds_rounded (hp : p.Narrow) {v : ℚ} (hv : 0 ≤ v) (h : p.rounded v < 2 ^ p.top) :
    p.Holds (p.rounded v) := by
  have hnonneg : 0 ≤ p.rounded v := by
    rw [rounded]
    positivity
  refine ⟨by rwa [abs_of_nonneg hnonneg], ?_⟩
  have hplace : p.least ≤ p.place v := le_max_right _ _
  rcases (units_le (p := p) hv).lt_or_eq with hlt | heq
  · refine ⟨p.units v, p.place v, ?_, hplace, by rw [rounded, Int.cast_natCast]⟩
    rw [abs_of_nonneg (Int.natCast_nonneg _)]
    exact_mod_cast hlt
  · -- rounding has carried into one more place
    refine ⟨1, p.place v + p.bits, ?_, by omega, ?_⟩
    · rw [abs_one]
      exact one_lt_pow₀ one_lt_two hp.some.ne'
    · rw [rounded, heq, zpow_add₀ two_ne_zero, zpow_natCast]
      push_cast
      ring

/-- What a precision holds is a whole number of units, or it lies below all numbers that use every
place there. -/
lemma Holds.comparable (hp : p.Narrow) {q v : ℚ} (hq : p.Holds q) (hv : 0 < v) :
    (∃ k : ℤ, q = k * 2 ^ p.place v) ∨
      q < (2 ^ (p.bits - 1) : ℤ) * 2 ^ p.place v ∧
        (2 ^ (p.bits - 1) : ℤ) * 2 ^ p.place v ≤ v := by
  obtain ⟨-, k, e, hk, he, rfl⟩ := hq
  rcases le_or_gt (p.place v) e with hle | hlt
  · obtain ⟨n, rfl⟩ := Int.le.dest hle
    refine .inl ⟨k * 2 ^ n, ?_⟩
    rw [zpow_add₀ two_ne_zero, zpow_natCast]
    push_cast
    ring
  · have hplace : p.place v = Int.log 2 v + 1 - p.bits := by
      rw [place] at hlt ⊢
      omega
    have hleading : ((2 ^ (p.bits - 1) : ℤ) : ℚ) * 2 ^ p.place v = 2 ^ Int.log 2 v := by
      rw [Int.cast_pow, Int.cast_ofNat, ← zpow_natCast, ← zpow_add₀ two_ne_zero, hplace]
      congr 1
      have hbits := hp.some
      omega
    refine .inr ⟨?_, ?_⟩
    · have hsmall : (k : ℚ) < 2 ^ p.bits := by exact_mod_cast lt_of_abs_lt hk
      calc (k : ℚ) * 2 ^ e < 2 ^ p.bits * 2 ^ e := by gcongr
        _ = 2 ^ (e + p.bits) := by
            rw [zpow_add₀ two_ne_zero, zpow_natCast, mul_comm]
        _ ≤ 2 ^ Int.log 2 v := zpow_le_zpow_right₀ one_le_two (by omega)
        _ = (2 ^ (p.bits - 1) : ℤ) * 2 ^ p.place v := hleading.symm
    · rw [hleading]
      exact_mod_cast Int.zpow_log_le_self one_lt_two hv

/-- **No number of a precision is closer to a number than the number rounded.** -/
theorem abs_rounded_sub_le (hp : p.Narrow) {q v : ℚ} (hq : p.Holds q) (hv : 0 ≤ v) :
    |p.rounded v - v| ≤ |q - v| := by
  rcases hv.eq_or_lt with rfl | hpos
  · simp [rounded, units, nearestEven_eq_zero]
  have hunit : (0 : ℚ) < 2 ^ p.place v := by positivity
  rcases hq.comparable hp hpos with ⟨k, rfl⟩ | ⟨hbelow, hle⟩
  · exact abs_nearestUnits_sub_le hunit hv k
  · exact (abs_nearestUnits_sub_lt hunit hv hbelow hle).le

/-- If another number of the precision is as close, the significand is even. -/
lemma even_units (hp : p.Narrow) {q v : ℚ} (hq : p.Holds q) (hv : 0 ≤ v) (hne : q ≠ p.rounded v)
    (htie : |q - v| = |p.rounded v - v|) : p.units v % 2 = 0 := by
  rcases hv.eq_or_lt with rfl | hpos
  · simp [units, nearestEven_eq_zero]
  have hunit : (0 : ℚ) < 2 ^ p.place v := by positivity
  rcases hq.comparable hp hpos with ⟨k, rfl⟩ | ⟨hbelow, hle⟩
  · have hk : k ≠ p.units v := by
      rintro rfl
      exact hne (by rw [rounded, Int.cast_natCast])
    exact even_nearestUnits hunit hv hk htie
  · exact absurd htie (abs_nearestUnits_sub_lt hunit hv hbelow hle).ne'

/-- What a precision holds is not changed by rounding. -/
lemma Holds.rounded_eq (hp : p.Narrow) {q : ℚ} (hq : p.Holds q) (h : 0 ≤ q) : p.rounded q = q := by
  have hclosest := abs_rounded_sub_le hp hq h
  rw [sub_self, abs_zero] at hclosest
  exact sub_eq_zero.1 (abs_nonpos_iff.1 hclosest)

end Precision

/-! ### The pieces of the algorithm -/

/-- Integers are divided to the nearest quotient. -/
lemma divideToEven_eq (n : ℕ) {d : ℕ} (hd : 0 < d) : divideToEven n d = nearestEven (n / d) := by
  have hpos : (0 : ℚ) < d := by exact_mod_cast hd
  have hrest := div_eq_units_add n hd
  have hbelow : (n : ℚ) / d < (n / d : ℕ) + 1 / 2 ↔ 2 * (n % d) < d := by
    rw [hrest, add_lt_add_iff_left, div_lt_div_iff₀ hpos two_pos]
    norm_cast
    omega
  have habove : ((n / d : ℕ) : ℚ) + 1 / 2 < n / d ↔ d < 2 * (n % d) := by
    rw [hrest, add_lt_add_iff_left, div_lt_div_iff₀ two_pos hpos]
    norm_cast
    omega
  have hfloor : ⌊(n : ℚ) / d⌋₊ = n / d := Nat.floor_div_eq_div n d
  unfold nearestEven divideToEven
  simp only [hfloor, hbelow, habove]

/-- A number times a power of two. -/
def Scaled.shift (b : Scaled) (e : ℤ) : Scaled := ⟨b.significand, b.exponent + e⟩

lemma Scaled.value_shift (b : Scaled) (e : ℤ) : (b.shift e).value = b.value * 2 ^ e := by
  rw [value, value, shift, zpow_add₀ two_ne_zero, mul_assoc]

/-- A natural number times a power of two is a double as long as this is in the normal range. -/
lemma Scaled.fits_shift_ofNat {n : ℕ} (hn : 0 < n) (hsmall : n < 2 ^ 53) {e : ℤ}
    (hleast : -1022 ≤ e) (hmost : e + n.log2 ≤ 1023) : ((ofNat n).shift e).Fits := by
  refine ⟨(fits_ofNat hn hsmall).small, ?_, ?_, .inl (le_significand_ofNat hn hsmall)⟩
  · simp only [shift, ofNat]
    omega
  · simp only [shift, ofNat]
    omega

lemma Scaled.fits_power {e : ℤ} (hleast : -1022 ≤ e) (hmost : e ≤ 1023) :
    ((ofNat 1).shift e).Fits :=
  fits_shift_ofNat one_pos (by norm_num) hleast (by
    rwa [show Nat.log2 1 = 0 from rfl, Nat.cast_zero, add_zero])

/-- The double of a power of two has all places in use. -/
lemma powerOfTwo_eq {e : ℤ} (hleast : -1022 ≤ e) (hmost : e ≤ 1023) :
    powerOfTwo e = ((Scaled.ofNat 1).shift e).toFloat .positive := by
  have hfits := Scaled.fits_power hleast hmost
  have hbits : BitVec.ofNat 64 ((e + 1023).toNat * Nat.pow 2 52) =
      UnpackedFloat.pack .binary64 (((Scaled.ofNat 1).shift e).unpacked .positive) := by
    have hsignificand : ((Scaled.ofNat 1).shift e).significand = 2 ^ 52 := rfl
    have hexponent : (((Scaled.ofNat 1).shift e).exponent + 1075).toNat = (e + 1023).toNat := by
      show ((Nat.log2 1 : ℤ) - 52 + e + 1075).toNat = _
      rw [show Nat.log2 1 = 0 from rfl]
      omega
    have hfield : (e + 1023).toNat < 2 ^ 11 := by omega
    rw [pack_unpacked .positive hfits (by rw [hsignificand]; norm_num), hsignificand,
      if_pos le_rfl, hexponent, ← BitVec.toNat_inj]
    generalize (e + 1023).toNat = field at hfield
    have hlt : field * 2 ^ 52 < 2 ^ 64 := by omega
    change _ = ((0#1 ++ BitVec.ofNat 11 field : BitVec 12) ++ BitVec.ofNat 52 (2 ^ 52)).toNat
    rw [BitVec.toNat_append, BitVec.toNat_append, BitVec.toNat_ofNat, BitVec.toNat_ofNat,
      BitVec.toNat_ofNat, Nat.mod_eq_of_lt hfield, Nat.shiftLeft_eq]
    simpa using hlt
  change Float.ofModel (.pack (.unpack .binary64 (BitVec.ofNat 64 _))) = _
  rw [hbits, unpack_pack_unpacked _ hfits]
  rfl

/-- A natural number times a power of two, both taken as doubles, is exact. -/
lemma exists_ofNat_mul_powerOfTwo {n : ℕ} (hsmall : n < 2 ^ 53) {e : ℤ} (hleast : -1022 ≤ e)
    (hmost : e ≤ 1023) (hrange : (n : ℚ) * 2 ^ e < 2 ^ (1024 : ℤ)) :
    ∃ b : Scaled, b.Fits ∧ b.value = n * 2 ^ e ∧
      Float.ofNat n * powerOfTwo e = b.toFloat .positive := by
  have hone := Scaled.fits_power hleast hmost
  rw [ofNat_eq_nearest, powerOfTwo_eq hleast hmost]
  rcases n.eq_zero_or_pos with rfl | hn
  · refine ⟨⟨0, -1074⟩, ⟨by decide, by decide, by decide, .inr rfl⟩, by simp [Scaled.value], ?_⟩
    rw [Nat.cast_zero, nearest_zero]
    change Float.ofModel (.pack (UnpackedFloat.mul .binary64 _
      (Scaled.toFloat _ _).toModel.unpack)) = _
    rw [unpack_toFloat _ hone]
    rfl
  · have hlog : e + n.log2 ≤ 1023 := by
      have h := log_lt (by positivity) hrange
      rw [log_mul_zpow hn] at h
      omega
    have hfits := Scaled.fits_shift_ofNat hn hsmall hleast hlog
    have hleading := Scaled.le_significand_ofNat hn hsmall
    have hvalue : (Scaled.ofNat n).value * ((Scaled.ofNat 1).shift e).value =
        ((Scaled.ofNat n).shift e).value := by
      rw [Scaled.value_shift, Scaled.value_shift, Scaled.value_ofNat one_pos (by norm_num),
        Nat.cast_one, one_mul]
    refine ⟨_, hfits, by rw [Scaled.value_shift, Scaled.value_ofNat hn hsmall], ?_⟩
    rw [nearest, rounded_natCast hn hsmall]
    change Float.ofModel (.pack (UnpackedFloat.mul .binary64 (Scaled.toFloat _ _).toModel.unpack
      (Scaled.toFloat _ _).toModel.unpack)) = _
    rw [unpack_toFloat _ (Scaled.fits_ofNat hn hsmall), unpack_toFloat _ hone,
      mul_leading hleading le_rfl, hvalue,
      rounded_value hfits (lt_of_lt_of_le (by norm_num) hleading)]
    rfl

/-- Out of range is what has the first power of two that does not fit, or more. -/
lemma pow_toNat_le_iff {n : ℕ} {top e : ℤ} :
    Nat.pow 2 (top - e).toNat ≤ n ∧ n ≠ 0 ↔ (2 : ℚ) ^ top ≤ n * 2 ^ e := by
  have hunit : (0 : ℚ) < 2 ^ e := by positivity
  rw [← div_le_iff₀ hunit, ← zpow_sub₀ two_ne_zero, Nat.pow_eq]
  rcases le_or_gt e top with hle | hlt
  · have hcast : (2 : ℚ) ^ (top - e) = (2 ^ (top - e).toNat : ℕ) := by
      rw [Nat.cast_pow, Nat.cast_ofNat, ← zpow_natCast, Int.toNat_of_nonneg (by omega)]
    rw [hcast, Nat.cast_le]
    refine ⟨fun h => h.1, fun h => ⟨h, ?_⟩⟩
    have hpos : 0 < 2 ^ (top - e).toNat := by positivity
    omega
  · have hlow : (2 : ℚ) ^ (top - e) < 1 := zpow_lt_one_of_neg₀ one_lt_two (by omega)
    rw [show (top - e).toNat = 0 by omega, pow_zero]
    constructor
    · rintro ⟨hn, -⟩
      exact hlow.le.trans (by exact_mod_cast hn)
    · intro h
      have hn : n ≠ 0 := by
        rintro rfl
        have hpos : (0 : ℚ) < 2 ^ (top - e) := by positivity
        rw [Nat.cast_zero] at h
        linarith
      omega

/-- The exponent of the last place kept, as it is found from the significand and its exponent. -/
def Precision.unit (p : Precision) (b : Scaled) : ℤ :=
  max (b.exponent + (b.significand.log2 + 1 : ℕ) - p.bits) p.least

section
variable {p : Precision} {b : Scaled}

lemma Precision.unit_eq_place (h : 0 < b.significand) : p.unit b = p.place b.value := by
  rw [unit, place, Scaled.value, log_mul_zpow h]
  congr 1
  push_cast
  ring

lemma Precision.rounded_eq (p : Precision) (b : Scaled) :
    p.rounded b.value = nearestEven (b.value / 2 ^ p.unit b) * 2 ^ p.unit b := by
  rcases b.significand.eq_zero_or_pos with h | h
  · simp [rounded, units, Scaled.value, h, nearestEven_eq_zero]
  · rw [unit_eq_place h, rounded, units]

lemma Precision.nearestEven_unit_le (p : Precision) (b : Scaled) :
    nearestEven (b.value / 2 ^ p.unit b) ≤ 2 ^ p.bits := by
  rcases b.significand.eq_zero_or_pos with h | h
  · simp [Scaled.value, h, nearestEven_eq_zero]
  · rw [unit_eq_place h]
    exact units_le b.value_nonneg

lemma Precision.unit_bounds (hp : p.Narrow) (hb : b.Fits) :
    -1022 ≤ p.unit b ∧ p.unit b ≤ 1023 := by
  have hlog : b.significand.log2 < 53 := by
    rcases b.significand.eq_zero_or_pos with h | h
    · rw [h]
      decide
    · exact (Nat.log2_lt h.ne').2 hb.small
  have hsome := hp.some
  have hleast := hp.least
  have htop := hp.top
  have hroom := hp.room
  have hmost := hb.most
  rw [unit]
  omega

/-- The significand moved to another exponent, where places that are lost are rounded off. -/
lemma moved_eq (b : Scaled) (t : ℤ) :
    (if t ≤ b.exponent then b.significand * Nat.pow 2 (b.exponent - t).toNat
      else divideToEven b.significand (Nat.pow 2 (t - b.exponent).toNat)) =
    nearestEven (b.value / 2 ^ t) := by
  rw [Scaled.value, mul_div_assoc, ← zpow_sub₀ two_ne_zero, Nat.pow_eq, Nat.pow_eq]
  split_ifs with h
  · rw [← nearestEven_natCast (b.significand * _)]
    congr 1
    push_cast
    rw [← zpow_natCast, Int.toNat_of_nonneg (by omega)]
  · rw [divideToEven_eq _ (by positivity)]
    congr 1
    push_cast
    rw [← zpow_natCast, Int.toNat_of_nonneg (by omega), div_eq_mul_inv, ← zpow_neg, neg_sub]

end

/-! ### Rounding to a precision -/

section
variable {p : Precision} {x : Float}

lemma withSign_toFloat {b : Scaled} (hb : b.Fits) (x : Float) :
    withSign (isNegative x) (b.toFloat .positive) = b.toFloat (sign x) := by
  rw [withSign, sign]
  split_ifs
  · exact neg_toFloat _ hb
  · rfl

/-- **What comes out of a finite double**: an infinity if the number rounded is out of range, and
otherwise the double that holds it, with the sign kept in both cases. -/
theorem narrowed_cases (hp : p.Narrow) (hx : IsFinite x) :
    2 ^ p.top ≤ p.rounded (Scaled.ofFloat x).value ∧
        narrowed p x = withSign (isNegative x) (1 / 0) ∨
      ∃ b : Scaled, b.Fits ∧ b.value = p.rounded (Scaled.ofFloat x).value ∧ b.value < 2 ^ p.top ∧
        narrowed p x = b.toFloat (sign x) := by
  have hrounded := p.rounded_eq (Scaled.ofFloat x)
  have hcount := p.nearestEven_unit_le (Scaled.ofFloat x)
  obtain ⟨hleast, hmost⟩ := p.unit_bounds hp (fits_ofFloat hx)
  have hnarrowed : narrowed p x =
      if Nat.pow 2 (p.top - p.unit (Scaled.ofFloat x)).toNat ≤
            nearestEven ((Scaled.ofFloat x).value / 2 ^ p.unit (Scaled.ofFloat x)) ∧
          nearestEven ((Scaled.ofFloat x).value / 2 ^ p.unit (Scaled.ofFloat x)) ≠ 0 then
        withSign (isNegative x) (1 / 0)
      else withSign (isNegative x)
        (Float.ofNat (nearestEven ((Scaled.ofFloat x).value / 2 ^ p.unit (Scaled.ofFloat x))) *
          powerOfTwo (p.unit (Scaled.ofFloat x))) := by
    rw [← moved_eq, narrowed, hx.1, hx.2]
    rfl
  rw [hnarrowed, hrounded]
  generalize nearestEven ((Scaled.ofFloat x).value / 2 ^ p.unit (Scaled.ofFloat x)) = n at *
  generalize p.unit (Scaled.ofFloat x) = unit at *
  split_ifs with h
  · exact .inl ⟨pow_toNat_le_iff.1 h, rfl⟩
  · have hrange : (n : ℚ) * 2 ^ unit < 2 ^ p.top := not_le.1 (mt pow_toNat_le_iff.2 h)
    have hsmall : n < 2 ^ 53 := lt_of_le_of_lt hcount (Nat.pow_lt_pow_right one_lt_two hp.few)
    obtain ⟨b, hb, hvalue, hproduct⟩ := exists_ofNat_mul_powerOfTwo hsmall hleast hmost
      (hrange.trans_le (zpow_le_zpow_right₀ one_le_two hp.top))
    refine .inr ⟨b, hb, hvalue, hvalue ▸ hrange, ?_⟩
    rw [hproduct, withSign_toFloat hb]

lemma withSign_infinity (negative : Bool) :
    (withSign negative (1 / 0)).isInf = true ∧
      isNegative (withSign negative (1 / 0)) = negative := by
  decide +kernel +revert

/-- What a double holds, and a competitor of it, both without the sign of the double. -/
lemma abs_sub_signedValue (q : ℚ) (x : Float) :
    |q - signedValue x| =
      |(if isNegative x then -q else q) - (Scaled.ofFloat x).value| := by
  rw [signedValue]
  split_ifs
  · rw [← abs_neg]
    congr 1
    ring
  · rfl

/-- **A double is rounded to the closest number of the precision**, of two to the one with an even
significand; or to infinity, if that number is out of range.  The sign is kept. -/
theorem narrowed_rounds (hp : p.Narrow) (hx : IsFinite x) :
    (narrowed p x).isNaN = false ∧ isNegative (narrowed p x) = isNegative x ∧
    ((narrowed p x).isInf = true ↔ 2 ^ p.top ≤ p.rounded |signedValue x|) ∧
    ((narrowed p x).isInf = false → p.Holds (signedValue (narrowed p x)) ∧
      ∀ q, p.Holds q → |signedValue (narrowed p x) - signedValue x| ≤ |q - signedValue x| ∧
        (q ≠ signedValue (narrowed p x) →
          |q - signedValue x| = |signedValue (narrowed p x) - signedValue x| →
          p.units |signedValue x| % 2 = 0)) := by
  have hv := (Scaled.ofFloat x).value_nonneg
  rw [abs_signedValue]
  rcases narrowed_cases hp hx with ⟨hlarge, hnarrowed⟩ | ⟨b, hb, hvalue, hrange, hnarrowed⟩
  · obtain ⟨hinf, hneg⟩ := withSign_infinity (isNegative x)
    rw [hnarrowed]
    refine ⟨isNaN_of_isInf hinf, hneg, ⟨fun _ => hlarge, fun _ => hinf⟩, fun h => ?_⟩
    rw [hinf] at h
    cases h
  · obtain ⟨hnumber, hinf⟩ := isFinite_toFloat (sign x) hb
    have hneg : isNegative (b.toFloat (sign x)) = isNegative x := isNegative_toFloat hb _
    have hsigned : signedValue (b.toFloat (sign x)) =
        if isNegative x then -p.rounded (Scaled.ofFloat x).value
        else p.rounded (Scaled.ofFloat x).value := by
      rw [← hvalue]
      exact signedValue_toFloat hb _
    rw [hnarrowed, hinf, hsigned]
    rw [hvalue] at hrange
    refine ⟨hnumber, hneg, ⟨nofun, fun h => absurd hrange h.not_gt⟩,
      fun _ => ⟨?_, fun q hq => ?_⟩⟩
    · have hholds := p.holds_rounded hp hv hrange
      split_ifs
      · exact hholds.neg
      · exact hholds
    · have hq' : p.Holds (if isNegative x then -q else q) := by
        split_ifs
        · exact hq.neg
        · exact hq
      rw [abs_sub_signedValue q, signedValue, abs_signed_sub]
      refine ⟨Precision.abs_rounded_sub_le hp hq' hv, fun hne => ?_⟩
      refine Precision.even_units hp hq' hv fun heq => hne ?_
      rw [← heq]
      split_ifs <;> simp

/-- A tenth in half precision, and the least of the doubles that are too large for it. -/
example : narrowed .half 0.1 = 0.0999755859375 ∧ narrowed .half 65520 = 1 / 0 := by decide +kernel

/-- What is not finite is kept. -/
lemma narrowed_of_not_isFinite (p : Precision) (hx : ¬ IsFinite x) : narrowed p x = x := by
  have h : (x.isNaN || x.isInf) = true := by
    rw [IsFinite] at hx
    cases hnan : x.isNaN <;> cases hinf : x.isInf <;> simp_all
  rw [narrowed, if_pos h]

/-- **What a precision holds is kept.** -/
theorem narrowed_of_holds (hp : p.Narrow) (hx : IsFinite x) (h : p.Holds (signedValue x)) :
    narrowed p x = x := by
  have hv := (Scaled.ofFloat x).value_nonneg
  have hholds : p.Holds (Scaled.ofFloat x).value := abs_signedValue x ▸ Precision.holds_abs.2 h
  have hrounded := hholds.rounded_eq hp hv
  rcases narrowed_cases hp hx with ⟨hlarge, -⟩ | ⟨b, hb, hvalue, -, hnarrowed⟩
  · rw [hrounded] at hlarge
    have hrange := hholds.1
    rw [abs_of_nonneg hv] at hrange
    exact absurd hlarge hrange.not_ge
  · have hsame : b = Scaled.ofFloat x := hb.eq_of_value (fits_ofFloat hx) (hvalue.trans hrounded)
    rw [hnarrowed, hsame, toFloat_ofFloat hx]

/-- Rounding twice is rounding once. -/
theorem narrowed_narrowed (hp : p.Narrow) (x : Float) :
    narrowed p (narrowed p x) = narrowed p x := by
  by_cases hx : IsFinite x
  · obtain ⟨hnumber, -, -, hholds⟩ := narrowed_rounds hp hx
    cases hinf : (narrowed p x).isInf with
    | true => exact narrowed_of_not_isFinite p fun h => by simp [h.2] at hinf
    | false => exact narrowed_of_holds hp ⟨hnumber, hinf⟩ (hholds hinf).1
  · rw [narrowed_of_not_isFinite p hx, narrowed_of_not_isFinite p hx]

end

end ArrayCalc.Decimal
