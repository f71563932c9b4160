import ArrayCalc.Decimal.Shortest
import ArrayCalc.Proofs.Decimal.Doubles
/-!
The double nearest to a number.

* `nearest`: the double that a number rounds to; `nearest_value`: a number that a double holds is
  its own nearest;
* `mul_finite`, `div_finite`: products and quotients of doubles round the exact ones;
* `toFloat_eq_nearest`: a decimal is read as the double nearest to it, however many digits it has
  and however large its exponent is; `ofNat_eq_nearest`: a natural number is made a double in the
  same way; `exists_nearest_natCast`: small whole numbers stay whole.
-/

namespace ArrayCalc.Decimal

open Float.Model Float.Model.UnpackedFloat

/-! ### Rounded numbers -/

lemma place_le_exponent_rounded (v : ℚ) : place v ≤ (rounded v).exponent := by
  unfold rounded; split_ifs <;> simp

/-- Rounding gives what a double can hold, unless the exponent is too high. -/
lemma fits_rounded {v : ℚ} (hv : 0 < v) (h : (rounded v).exponent ≤ 971) : (rounded v).Fits := by
  have hle := significand_le hv
  have hplace : -1074 ≤ place v := le_max_right _ _
  unfold rounded at h ⊢
  split_ifs at h ⊢ with hc
  · exact ⟨by simp, by simp only; omega, h, .inl le_rfl⟩
  · refine ⟨lt_of_le_of_ne hle hc, hplace, h, ?_⟩
    rcases hplace.lt_or_eq with hlt | heq
    · exact .inl (le_significand hv hlt)
    · exact .inr heq.symm

lemma significand_rounded_pos {v : ℚ} (hv : 0 < v) (h : 971 < (rounded v).exponent) :
    0 < (rounded v).significand := by
  unfold rounded at h ⊢
  split_ifs at h ⊢ with hc
  · simp
  · have := le_significand hv (lt_trans (by norm_num) h)
    exact lt_of_lt_of_le (by norm_num) this

lemma rounded_zero (s : Sign) : (rounded 0).unpacked s = .zero s :=
  Scaled.unpacked_of_eq_zero (by simp [rounded, significand, nearestEven])

/-- A number that a double holds has its last place where the double has it. -/
lemma place_value {b : Scaled} (hb : b.Fits) (h : 0 < b.significand) :
    place b.value = b.exponent := by
  have hsmall : b.significand.log2 < 53 := (Nat.log2_lt h.ne').2 hb.small
  have hlead := log2_eq_iff_leading h hb.small
  have hleast := hb.least
  rw [place, Scaled.value, log_mul_zpow h]
  rcases hb.leading with h' | h' <;> omega

/-- What a double holds is not changed by rounding. -/
lemma rounded_value {b : Scaled} (hb : b.Fits) (h : 0 < b.significand) : rounded b.value = b := by
  have hs : significand b.value = b.significand := by
    rw [significand, place_value hb h, Scaled.value, mul_div_cancel_right₀ _ (by positivity),
      nearestEven_natCast]
  rw [rounded, hs, if_neg hb.small.ne, place_value hb h]

/-- Less than half of the finest unit rounds to zero. -/
lemma rounded_of_tiny {v : ℚ} (s : Sign) (hv : 0 < v) (h : v < 2 ^ (-1075 : ℤ)) :
    (rounded v).unpacked s = .zero s := by
  have hlog := log_lt hv h
  have hplace : place v = -1074 := by rw [place]; omega
  have hs : significand v = 0 := by
    rw [significand, hplace]
    apply nearestEven_eq_zero
    rw [div_lt_iff₀ (by positivity)]
    refine lt_of_lt_of_eq h ?_
    rw [show (-1075 : ℤ) = -1 + -1074 by rfl, zpow_add₀ two_ne_zero]
    norm_num
  exact Scaled.unpacked_of_eq_zero (by rw [rounded, hs, if_neg (by norm_num)])

/-- What is too large for a double becomes infinite. -/
lemma pack_rounded_of_huge {v : ℚ} (s : Sign) (h : 2 ^ (1024 : ℤ) ≤ v) :
    UnpackedFloat.pack .binary64 ((rounded v).unpacked s) = packedInfinity .binary64 s := by
  have hv : 0 < v := lt_of_lt_of_le (by positivity) h
  have hlog := le_log h
  have hplace : 971 < place v := by rw [place]; omega
  have he := lt_of_lt_of_le hplace (place_le_exponent_rounded v)
  exact pack_unpacked_of_large s (significand_rounded_pos hv he) he

/-! ### The nearest double -/

/-- The double nearest to a number, infinite when it is too large. -/
def nearest (v : ℚ) : Float := (rounded v).toFloat .positive

lemma nearest_zero : nearest 0 = Float.ofModel (.pack (.zero .positive)) := by
  rw [nearest, Scaled.toFloat, rounded_zero]

/-- A number that a double holds is its own nearest. -/
lemma nearest_value {b : Scaled} (hb : b.Fits) : nearest b.value = b.toFloat .positive := by
  rcases b.significand.eq_zero_or_pos with h | h
  · rw [Scaled.value, h, Nat.cast_zero, zero_mul, nearest_zero, Scaled.toFloat,
      Scaled.unpacked_of_eq_zero h]
  · rw [nearest, rounded_value hb h]

/-! ### Products and quotients -/

/-- A product of doubles is the exact one rounded, provided that it has places to round off. -/
lemma mul_finite {m n : ℕ} {e f : ℤ} (s t : Sign) (hm : 0 < m) (hn : 0 < n)
    (h : e + f ≤ place ((m * 2 ^ e) * (n * 2 ^ f))) :
    UnpackedFloat.mul .binary64 (.finite s m e hm) (.finite t n f hn) =
      (rounded ((m * 2 ^ e) * (n * 2 ^ f))).unpacked (s * t) := by
  refine roundWithAccuracy_eq _ (by positivity) ?_ h
  have hv : ((m : ℚ) * 2 ^ e) * (n * 2 ^ f) / 2 ^ (e + f) = (m * n : ℕ) := by
    rw [zpow_add₀ two_ne_zero]
    field_simp
    push_cast
    ring
  rw [hv]
  exact Reads.exact _

/-- A quotient in whole units and a rest. -/
lemma div_eq_units_add (m : ℕ) {n : ℕ} (hn : 0 < n) :
    (m : ℚ) / n = (m / n : ℕ) + (m % n : ℕ) / n := by
  have hm : (m : ℚ) = (m / n : ℕ) * n + (m % n : ℕ) := by
    exact_mod_cast (Nat.div_add_mod' m n).symm
  rw [hm, add_div, mul_div_cancel_right₀ _ (by positivity)]

/-- A quotient cut off at the units, its rest compared with a half. -/
lemma reads_div (m : ℕ) {n : ℕ} (hn : 0 < n) :
    Reads (.ofMantissaAndAccuracy (m / n) (accuracyOfFraction (m % n) n)) (m / n) := by
  have hpos : (0 : ℚ) < n := by exact_mod_cast hn
  have hlt : ((m % n : ℕ) : ℚ) / n < 1 := (div_lt_one hpos).2 (by exact_mod_cast Nat.mod_lt m hn)
  rw [div_eq_units_add m hn]
  generalize m / n = q at *
  generalize m % n = r at *
  unfold accuracyOfFraction
  split_ifs with h0
  · subst h0
    simpa using Reads.exact q
  have h0' : (0 : ℚ) < r / n := by positivity
  rcases lt_trichotomy (2 * r) n with h | h | h
  · have hhalf : (r : ℚ) / n < 1 / 2 := by
      rw [div_lt_div_iff₀ hpos two_pos]
      exact_mod_cast (by omega : r * 2 < 1 * n)
    rw [Nat.compare_eq_lt.2 h]
    constructor <;> simp [ExtendedMantissa.ofMantissaAndAccuracy] <;> grind
  · have hhalf : (r : ℚ) / n = 1 / 2 := by
      rw [div_eq_div_iff hpos.ne' two_ne_zero]
      exact_mod_cast (by omega : r * 2 = 1 * n)
    rw [Nat.compare_eq_eq.2 h]
    constructor <;> simp [ExtendedMantissa.ofMantissaAndAccuracy] <;> grind
  · have hhalf : 1 / 2 < (r : ℚ) / n := by
      rw [div_lt_div_iff₀ two_pos hpos]
      exact_mod_cast (by omega : 1 * n < r * 2)
    rw [Nat.compare_eq_gt.2 h]
    constructor <;> simp [ExtendedMantissa.ofMantissaAndAccuracy] <;> grind

/-- The leading place of a quotient is that of the operands, or one lower. -/
lemma le_log_div {m n : ℕ} {e f : ℤ} (hm : 0 < m) (hn : 0 < n) :
    m.log2 + e - (n.log2 + f) - 1 ≤ Int.log 2 (((m : ℚ) * 2 ^ e) / (n * 2 ^ f)) := by
  have hm' := Nat.log2_self_le hm.ne'
  have hn' := Nat.lt_log2_self (n := n)
  apply le_log
  rw [le_div_iff₀ (by positivity)]
  calc (2 : ℚ) ^ (m.log2 + e - (n.log2 + f) - 1) * (n * 2 ^ f)
      ≤ 2 ^ (m.log2 + e - (n.log2 + f) - 1) * (2 ^ ((n.log2 : ℤ) + 1) * 2 ^ f) := by
        gcongr
        exact_mod_cast hn'.le
    _ = 2 ^ (m.log2 : ℤ) * 2 ^ e := by
        simp only [← zpow_add₀ (two_ne_zero (α := ℚ))]
        congr 1
        ring
    _ ≤ m * 2 ^ e := by
        gcongr
        exact_mod_cast hm'

/-- A quotient of doubles is the exact one rounded. -/
lemma div_finite {m n : ℕ} {e f : ℤ} (s t : Sign) (hm : 0 < m) (hn : 0 < n) :
    UnpackedFloat.div .binary64 (.finite s m e hm) (.finite t n f hn) =
      (rounded ((m * 2 ^ e) / (n * 2 ^ f))).unpacked (s / t) := by
  have hlog := le_log_div (e := e) (f := f) hm hn
  simp only [UnpackedFloat.div, divCore, targetExponent_eq, totalExponent]
  generalize ht : min (e - f) (max ((m.log2 : ℤ) + 1 + e - (n.log2 + 1 + f) - 53) (-1074)) = t
  refine roundWithAccuracy_eq _ (by positivity) ?_ ?_
  · have hv : ((m : ℚ) * 2 ^ e) / (n * 2 ^ f) / 2 ^ t = (m <<< (e - f - t).toNat : ℕ) / n := by
      have hk : (2 : ℚ) ^ e = 2 ^ (e - f - t).toNat * 2 ^ f * 2 ^ t := by
        rw [← zpow_natCast, ← zpow_add₀ two_ne_zero, ← zpow_add₀ two_ne_zero]
        congr 1
        omega
      rw [Nat.shiftLeft_eq, hk]
      push_cast
      field_simp
    rw [hv]
    exact reads_div _ hn
  · rw [place]
    omega

/-! ### Natural numbers -/

/-- Rounding a significand without guard bits, which may first have to move down. -/
lemma round_eq {m : ℕ} {e : ℤ} (s : Sign) (hm : 0 < m) :
    UnpackedFloat.round .binary64 s m e = (rounded (m * 2 ^ e)).unpacked s := by
  have hplace : Format.binary64.targetExponent (totalExponent m e) = place (m * 2 ^ e) := by
    rw [targetExponent_eq, totalExponent, place, log_mul_zpow hm]
    omega
  rw [UnpackedFloat.round, hplace, decreaseExponent]
  generalize hk : (e - place (m * 2 ^ e)).toNat = k
  refine roundWithAccuracy_eq s (by positivity) ?_ (by omega)
  have hv : (m : ℚ) * 2 ^ e / 2 ^ (e - k : ℤ) = (m <<< k : ℕ) := by
    rw [Nat.shiftLeft_eq, zpow_sub₀ two_ne_zero, zpow_natCast]
    push_cast
    field_simp
  rw [hv]
  exact Reads.exact _

/-- A natural number moved up until all 53 places are in use. -/
def Scaled.ofNat (m : ℕ) : Scaled := ⟨m * 2 ^ (52 - m.log2), m.log2 - 52⟩

section
variable {m : ℕ} (hm : 0 < m) (h : m < 2 ^ 53)
include hm h

lemma Scaled.le_significand_ofNat : 2 ^ 52 ≤ (Scaled.ofNat m).significand := by
  have hl : m.log2 < 53 := (Nat.log2_lt hm.ne').2 h
  calc 2 ^ 52 = 2 ^ m.log2 * 2 ^ (52 - m.log2) := by rw [← pow_add]; congr 1; omega
    _ ≤ m * 2 ^ (52 - m.log2) := Nat.mul_le_mul_right _ (Nat.log2_self_le hm.ne')

lemma Scaled.fits_ofNat : (Scaled.ofNat m).Fits := by
  have hl : m.log2 < 53 := (Nat.log2_lt hm.ne').2 h
  refine ⟨?_, by simp only [ofNat]; omega, by simp only [ofNat]; omega,
    .inl (le_significand_ofNat hm h)⟩
  calc m * 2 ^ (52 - m.log2) < 2 ^ (m.log2 + 1) * 2 ^ (52 - m.log2) :=
        Nat.mul_lt_mul_of_pos_right Nat.lt_log2_self (by positivity)
    _ = 2 ^ 53 := by rw [← pow_add]; congr 1; omega

lemma Scaled.value_ofNat : (Scaled.ofNat m).value = m := by
  have hl : m.log2 < 53 := (Nat.log2_lt hm.ne').2 h
  rw [value, ofNat]
  push_cast
  rw [mul_assoc, ← zpow_natCast, ← zpow_add₀ two_ne_zero,
    show ((52 - m.log2 : ℕ) : ℤ) + (m.log2 - 52) = 0 by omega, zpow_zero, mul_one]

lemma rounded_natCast : rounded m = Scaled.ofNat m := by
  have hpos : 0 < (Scaled.ofNat m).significand :=
    lt_of_lt_of_le (by positivity) (Scaled.le_significand_ofNat hm h)
  simpa [Scaled.value_ofNat hm h] using rounded_value (Scaled.fits_ofNat hm h) hpos

/-- Natural numbers below `2 ^ 53` are doubles. -/
lemma unpack_toFloat_ofNat :
    m.toUInt64.toFloat.toModel.unpack = (Scaled.ofNat m).unpacked .positive := by
  have hof : UnpackedFloat.ofNat .binary64 m = (Scaled.ofNat m).unpacked .positive := by
    rw [UnpackedFloat.ofNat, UnpackedFloat.ofInt, UnpackedFloat.normalize,
      Int.compare_eq_gt.2 (by exact_mod_cast hm)]
    simp only [Int.toNat_natCast]
    rw [round_eq _ hm, zpow_zero, mul_one, rounded_natCast hm h]
  have hmod : m.toUInt64.toNat = m := by
    rw [Nat.toUInt64, UInt64.toNat_ofNat']
    exact Nat.mod_eq_of_lt (by omega)
  change UnpackedFloat.unpack .binary64 (UnpackedFloat.pack .binary64
    (UnpackedFloat.ofNat .binary64 m.toUInt64.toNat)) = _
  rw [hmod, hof, unpack_pack_unpacked _ (Scaled.fits_ofNat hm h)]

end

/-- Small whole numbers stay whole when they are rounded, and the bound, which is a double itself,
bounds them still. -/
lemma exists_nearest_natCast {n : ℕ} (hn : n ≤ 10 ^ 16) :
    ∃ b : Scaled, b.Fits ∧ nearest n = b.toFloat .positive ∧
      ∃ m ≤ 10 ^ 16, b.value = (m : ℕ) := by
  rcases n.eq_zero_or_pos with rfl | hpos
  · refine ⟨⟨0, -1074⟩, ⟨by decide, by decide, by decide, .inr rfl⟩, ?_, 0, by norm_num, ?_⟩
    · rw [Nat.cast_zero, nearest_zero]
      rfl
    · simp [Scaled.value]
  rcases Nat.lt_or_ge n (2 ^ 53) with h | h
  · refine ⟨_, Scaled.fits_ofNat hpos h, ?_, n, hn, Scaled.value_ofNat hpos h⟩
    rw [nearest, rounded_natCast hpos h]
  -- between 2 ^ 53 and the bound the last place counts twos
  have hlog : Int.log 2 (n : ℚ) = 53 := by
    apply log_eq
    · exact_mod_cast h
    · exact_mod_cast lt_of_le_of_lt hn (by norm_num)
  have hplace : place n = 1 := by rw [place, hlog]; rfl
  have hs : significand n ≤ 5 * 10 ^ 15 := by
    rw [significand, hplace]
    apply nearestEven_le (by positivity)
    rw [div_le_iff₀ (by positivity)]
    exact_mod_cast hn
  have hr : rounded n = ⟨significand n, 1⟩ := by rw [rounded, if_neg (by omega), hplace]
  refine ⟨rounded n, ?_, rfl, 2 * significand n, by omega, ?_⟩
  · exact fits_rounded (by positivity) (by rw [hr]; norm_num)
  · rw [hr, Scaled.value]
    push_cast
    ring

/-! ### Powers of ten -/

lemma powersOfTen_table (k : Fin 23) :
    let x := Float.exactlyRepresentablePowersOfTen[k]
    exponentField x ≠ 2047 ∧ isNegative x = false ∧ 2 ^ 52 ≤ (Scaled.ofFloat x).significand ∧
      (Scaled.ofFloat x).whole? = some (10 ^ k.val) := by
  decide +kernel +revert

/-- The powers of ten in the table are exact, with all places in use. -/
lemma exists_unpack_powerOfTen {k : ℕ} (hk : k < Float.exactlyRepresentablePowersOfTen.size) :
    ∃ b : Scaled,
      Float.exactlyRepresentablePowersOfTen[k].toModel.unpack = b.unpacked .positive ∧
        2 ^ 52 ≤ b.significand ∧ b.value = 10 ^ k := by
  obtain ⟨hfin, hneg, hlead, hwhole⟩ := powersOfTen_table ⟨k, hk⟩
  refine ⟨_, ?_, hlead, by simpa using Scaled.whole?_eq_some_iff.1 hwhole⟩
  have h := unpack_of_isFinite ((isFinite_iff _).2 hfin)
  rwa [sign, hneg, if_neg (by decide)] at h

/-- Two significands with all places in use leave places to round off. -/
lemma mul_leading {a b : Scaled} (ha : 2 ^ 52 ≤ a.significand) (hb : 2 ^ 52 ≤ b.significand) :
    UnpackedFloat.mul .binary64 (a.unpacked .positive) (b.unpacked .positive) =
      (rounded (a.value * b.value)).unpacked .positive := by
  rw [Scaled.unpacked_of_pos (by omega), Scaled.unpacked_of_pos (by omega)]
  refine mul_finite _ _ _ _ ?_
  have ha' : (2 : ℚ) ^ (52 : ℤ) ≤ a.significand := by exact_mod_cast ha
  have hb' : (2 : ℚ) ^ (52 : ℤ) ≤ b.significand := by exact_mod_cast hb
  have hlog : 104 + a.exponent + b.exponent ≤ Int.log 2 (a.value * b.value) := by
    apply le_log
    calc (2 : ℚ) ^ (104 + a.exponent + b.exponent)
        = 2 ^ (52 : ℤ) * 2 ^ a.exponent * (2 ^ (52 : ℤ) * 2 ^ b.exponent) := by
          simp only [← zpow_add₀ (two_ne_zero (α := ℚ))]
          congr 1
          ring
      _ ≤ a.value * b.value := by
          rw [Scaled.value, Scaled.value]
          gcongr
  rw [Scaled.value, Scaled.value] at hlog
  rw [place]
  omega

lemma div_unpacked {a b : Scaled} (ha : 0 < a.significand) (hb : 0 < b.significand) :
    UnpackedFloat.div .binary64 (a.unpacked .positive) (b.unpacked .positive) =
      (rounded (a.value / b.value)).unpacked .positive := by
  rw [Scaled.unpacked_of_pos ha, Scaled.unpacked_of_pos hb]
  exact div_finite _ _ _ _

/-! ### Decimals -/

lemma le_place_of_one_le {v : ℚ} (h : 1 ≤ v) : -52 ≤ place v := by
  have hlog : 0 ≤ Int.log 2 v := le_log (by simpa using h)
  rw [place]
  omega

lemma huge_power {m : ℕ} {e : ℤ} (hm : 0 < m) (he : 2 ^ 11 < e) :
    (2 : ℚ) ^ (1024 : ℤ) ≤ m * 10 ^ e := by
  have h1 : (1 : ℚ) ≤ m := by exact_mod_cast hm
  calc (2 : ℚ) ^ (1024 : ℤ) ≤ 2 ^ e := zpow_le_zpow_right₀ one_le_two (by omega)
    _ ≤ 10 ^ e := zpow_le_zpow_left₀ (by omega) (by norm_num) (by norm_num)
    _ ≤ m * 10 ^ e := le_mul_of_one_le_left (by positivity) h1

lemma tiny_power {m : ℕ} {e : ℤ} (he : e < -(2 ^ 11 + m.log2)) :
    m * (10 : ℚ) ^ e < 2 ^ (-1075 : ℤ) := by
  have hm : (m : ℚ) < 2 ^ ((m.log2 : ℤ) + 1) := by exact_mod_cast Nat.lt_log2_self
  have h10 : (10 : ℚ) ^ e ≤ 2 ^ e := by
    have h : (2 : ℚ) ^ (-e) ≤ 10 ^ (-e) :=
      zpow_le_zpow_left₀ (by omega) (by norm_num) (by norm_num)
    simpa [zpow_neg] using inv_anti₀ (by positivity) h
  calc (m : ℚ) * 10 ^ e < 2 ^ ((m.log2 : ℤ) + 1) * 10 ^ e := by gcongr
    _ ≤ 2 ^ ((m.log2 : ℤ) + 1) * 2 ^ e := by gcongr
    _ = 2 ^ ((m.log2 : ℤ) + 1 + e) := (zpow_add₀ two_ne_zero _ _).symm
    _ ≤ 2 ^ (-1075 : ℤ) := zpow_le_zpow_right₀ one_le_two (by omega)

lemma zpow_of_nonneg {e : ℤ} (h : 0 ≤ e) : (10 : ℚ) ^ e = (10 ^ e.toNat : ℕ) := by
  rw [Nat.cast_pow, ← zpow_natCast, Int.toNat_of_nonneg h]
  rfl

lemma zpow_of_neg {e : ℤ} (h : ¬ 0 ≤ e) : (10 : ℚ) ^ e = ((10 ^ (-e).toNat : ℕ) : ℚ)⁻¹ := by
  rw [Nat.cast_pow, ← zpow_natCast, ← zpow_neg, Int.toNat_of_nonneg (by omega), neg_neg]
  rfl

/-- A product with a power of ten, as the slow way computes it: the coefficient is moved down by
more places than are kept. -/
lemma mul_power {m : ℕ} {e : ℤ} (hm : 0 < m) (h : 0 ≤ e) (hm' : 0 < m <<< 53) :
    UnpackedFloat.mul .binary64 (.finite .positive (m <<< 53) (-53) hm')
        (.finite .positive (10 ^ e.toNat) 0 (Nat.pow_pos (by decide))) =
      (rounded (m * 10 ^ e)).unpacked .positive := by
  have hv : ((m <<< 53 : ℕ) : ℚ) * 2 ^ (-53 : ℤ) * ((10 ^ e.toNat : ℕ) * 2 ^ (0 : ℤ)) =
      m * 10 ^ e := by
    rw [zpow_of_nonneg h, Nat.shiftLeft_eq]
    push_cast
    norm_num
    ring
  have h1 : 1 ≤ (m : ℚ) * 10 ^ e :=
    one_le_mul_of_one_le_of_one_le (by exact_mod_cast hm) (one_le_zpow₀ (by norm_num) h)
  have hplace := le_place_of_one_le (hv ▸ h1)
  rw [mul_finite .positive .positive hm' _ (by omega), hv]
  rfl

lemma pack_ofScientific (m : ℕ) (e : ℤ) :
    UnpackedFloat.pack .binary64 (UnpackedFloat.ofScientific .binary64 m e) =
      UnpackedFloat.pack .binary64 ((rounded (m * 10 ^ e)).unpacked .positive) := by
  unfold UnpackedFloat.ofScientific
  split_ifs with hm hhuge htiny hnonneg
  · rw [hm, Nat.cast_zero, zero_mul, rounded_zero]
  · rw [pack_rounded_of_huge _ (huge_power (Nat.pos_of_ne_zero hm) hhuge)]
    rfl
  · have hpos : (0 : ℚ) < m * 10 ^ e := by
      have := Nat.pos_of_ne_zero hm
      positivity
    rw [rounded_of_tiny _ hpos (tiny_power htiny)]
  · exact congrArg _ (mul_power (Nat.pos_of_ne_zero hm) hnonneg _)
  · have hv : ((m : ℚ) * 2 ^ (0 : ℤ)) / ((10 ^ (-e).toNat : ℕ) * 2 ^ (0 : ℤ)) = m * 10 ^ e := by
      rw [zpow_of_neg hnonneg, zpow_zero, mul_one, mul_one, div_eq_mul_inv]
    rw [div_finite, hv]
    rfl

/-- The number itself. -/
def Scientific.value (s : Scientific) : ℚ := s.coefficient * 10 ^ s.exponent

lemma pack_congr {u v : UnpackedFloat}
    (h : UnpackedFloat.pack .binary64 u = UnpackedFloat.pack .binary64 v) :
    Float.Model.pack u = Float.Model.pack v := by
  simp only [Float.Model.pack, h]

/-- Few digits and a small exponent: one operation on two exact doubles. -/
lemma ofScientific_fast {m k : ℕ} (negative : Bool) (hm : m < 2 ^ 53) (hk : k ≤ 22) :
    Float.ofScientific m negative k = nearest (m * 10 ^ (if negative then -(k : ℤ) else k)) := by
  have hsize : k < Float.exactlyRepresentablePowersOfTen.size := Nat.lt_succ_of_le hk
  obtain ⟨b, hunpack, hlead, hvalue⟩ := exists_unpack_powerOfTen hsize
  rw [Float.ofScientific, dif_pos ⟨hm, hk⟩]
  rcases m.eq_zero_or_pos with rfl | hpos
  · have hb := Scaled.unpacked_of_pos (s := .positive) (lt_of_lt_of_le (by decide) hlead)
    rw [Nat.cast_zero, zero_mul, nearest_zero]
    cases negative
    · change Float.ofModel (.pack (UnpackedFloat.mul _ _ _)) = _
      rw [hunpack, hb]
      rfl
    · change Float.ofModel (.pack (UnpackedFloat.div _ _ _)) = _
      rw [hunpack, hb]
      rfl
  have hto := unpack_toFloat_ofNat hpos hm
  have hbpos : 0 < b.significand := by omega
  have hmlead := Scaled.le_significand_ofNat hpos hm
  cases negative
  · simp only [Bool.false_eq_true, if_false]
    change Float.ofModel (.pack (UnpackedFloat.mul _ m.toUInt64.toFloat.toModel.unpack _)) = _
    rw [hto, hunpack, mul_leading hmlead hlead, Scaled.value_ofNat hpos hm, hvalue]
    rfl
  · simp only [if_true]
    change Float.ofModel (.pack (UnpackedFloat.div _ m.toUInt64.toFloat.toModel.unpack _)) = _
    rw [hto, hunpack, div_unpacked (by omega) hbpos, Scaled.value_ofNat hpos hm, hvalue,
      zpow_neg, zpow_natCast, div_eq_mul_inv]
    rfl

/-- Anything else: one operation on exact numbers. -/
lemma ofScientific_slow {m k : ℕ} (negative : Bool) (h : ¬ (m < 2 ^ 53 ∧ k ≤ 22)) :
    Float.ofScientific m negative k = nearest (m * 10 ^ (if negative then -(k : ℤ) else k)) := by
  rw [Float.ofScientific, dif_neg h]
  have he : (if negative then Int.negOfNat k else Int.ofNat k) =
      if negative then -(k : ℤ) else k := by
    cases negative
    · rfl
    · exact Int.negOfNat_eq
  change Float.ofModel (.ofScientific m (if negative then Int.negOfNat k else Int.ofNat k)) = _
  rw [he]
  exact congrArg Float.ofModel (pack_congr (pack_ofScientific m _))

/-- **Decimals are read as the double nearest to them**, and so by their value alone. -/
theorem toFloat_eq_nearest (s : Scientific) : s.toFloat = nearest s.value := by
  have he : (if decide (s.exponent < 0) then -(s.exponent.natAbs : ℤ) else s.exponent.natAbs) =
      s.exponent := by
    simp only [decide_eq_true_eq]
    split_ifs <;> omega
  rw [Scientific.value, ← he, Scientific.toFloat]
  by_cases h : s.coefficient < 2 ^ 53 ∧ s.exponent.natAbs ≤ 22
  · rw [ofScientific_fast _ h.1 h.2, he]
  · rw [ofScientific_slow _ h, he]

/-- So are natural numbers. -/
lemma ofNat_eq_nearest (n : ℕ) : Float.ofNat n = nearest n := by
  change Scientific.toFloat ⟨n, 0⟩ = _
  rw [toFloat_eq_nearest, Scientific.value, zpow_zero, mul_one]

end ArrayCalc.Decimal
