import ArrayCalc.Decimal.Scaled
import Mathlib.Algebra.Order.Field.Power
import Mathlib.Data.Int.Log
import Mathlib.Data.Rat.Floor
import Mathlib.Tactic.GCongr
import Mathlib.Tactic.Lemma
import Mathlib.Tactic.Linarith
import Mathlib.Tactic.Positivity
/-!
Rounding to the precision of doubles.

* `nearestEven`: the integer nearest to a number, of two the even one; integers bound it as they
  bound the number (`nearestEven_le`, `le_nearestEven`);
* `Reads`: a significand cut off, with a round bit and a sticky bit for what is lost.  Shifting
  keeps the reading (`Reads.shiftRight`), and the bits are enough to round
  (`Reads.roundedMantissa`);
* `place`: the exponent of the last place that is kept of a number, `rounded`: the number in units
  of it;
* `roundWithAccuracy_eq`: rounding by bits gives the number rounded.
-/

namespace ArrayCalc.Decimal

open Float.Model Float.Model.UnpackedFloat

/-! ### The nearest integer -/

/-- The integer nearest to a number, of two the even one. -/
def nearestEven (w : ℚ) : ℕ :=
  if w < ⌊w⌋₊ + 1 / 2 then ⌊w⌋₊
  else if ⌊w⌋₊ + 1 / 2 < w then ⌊w⌋₊ + 1
  else ⌊w⌋₊ + ⌊w⌋₊ % 2

lemma nearestEven_natCast (n : ℕ) : nearestEven n = n := by
  simp [nearestEven]

lemma nearestEven_eq_zero {w : ℚ} (h : w < 1 / 2) : nearestEven w = 0 := by
  have hf : ⌊w⌋₊ = 0 := Nat.floor_eq_zero.2 (by linarith)
  rw [nearestEven, hf, if_pos (by simpa using h)]

lemma nearestEven_le {w : ℚ} {n : ℕ} (h0 : 0 ≤ w) (h : w ≤ n) : nearestEven w ≤ n := by
  have hlow : (⌊w⌋₊ : ℚ) ≤ w := Nat.floor_le h0
  have hle : ⌊w⌋₊ ≤ n := by exact_mod_cast hlow.trans h
  rcases hle.lt_or_eq with hlt | heq
  · unfold nearestEven
    split_ifs <;> omega
  · have hw : w = n := le_antisymm h (heq ▸ hlow)
    rw [hw, nearestEven_natCast]

lemma le_nearestEven {w : ℚ} {n : ℕ} (h : (n : ℚ) ≤ w) : n ≤ nearestEven w := by
  have hle : n ≤ ⌊w⌋₊ := Nat.le_floor h
  unfold nearestEven
  split_ifs <;> omega

/-! ### Guard bits -/

/-- A significand cut off from `w`: it counts the whole units, the round bit says that the rest is
half a unit or more, the sticky bit that it is neither nothing nor exactly a half. -/
structure Reads (em : ExtendedMantissa) (w : ℚ) : Prop where
  low : em.mantissa ≤ w
  high : w < em.mantissa + 1
  round : em.roundBit = true ↔ em.mantissa + 1 / 2 ≤ w
  sticky : em.stickyBit = true ↔ w ≠ em.mantissa ∧ w ≠ em.mantissa + 1 / 2

namespace Reads

variable {em : ExtendedMantissa} {w : ℚ}

lemma nonneg (h : Reads em w) : 0 ≤ w := le_trans (Nat.cast_nonneg _) h.low

lemma floor (h : Reads em w) : ⌊w⌋₊ = em.mantissa :=
  (Nat.floor_eq_iff h.nonneg).2 ⟨h.low, h.high⟩

lemma exact (m : ℕ) : Reads (.ofMantissaAndAccuracy m .exact) m := by
  constructor <;> simp [ExtendedMantissa.ofMantissaAndAccuracy]

lemma shiftRightOne (h : Reads em w) : Reads em.shiftRightOne (w / 2) := by
  obtain ⟨low, high, round, sticky⟩ := h
  have hm : (em.mantissa : ℚ) = 2 * (em.mantissa / 2 : ℕ) + (em.mantissa % 2 : ℕ) := by
    exact_mod_cast (Nat.div_add_mod _ _).symm
  rcases Nat.mod_two_eq_zero_or_one em.mantissa with hr | hr
  · rw [hr, Nat.cast_zero] at hm
    constructor <;> simp only [ExtendedMantissa.shiftRightOne, hr]
    · linarith
    · linarith
    · simp; linarith
    · grind
  · rw [hr, Nat.cast_one] at hm
    constructor <;> simp only [ExtendedMantissa.shiftRightOne, hr]
    · linarith
    · linarith
    · simp; linarith
    · grind

/-- Shifting divides by a power of two. -/
lemma shiftRight (h : Reads em w) (n : ℕ) : Reads (em >>> n) (w / 2 ^ n) := by
  change Reads (n.repeat ExtendedMantissa.shiftRightOne em) _
  induction n with
  | zero => simpa [Nat.repeat] using h
  | succ n ih => simpa [Nat.repeat, pow_succ, div_mul_eq_div_div] using ih.shiftRightOne

/-- The two bits are enough to round. -/
lemma roundedMantissa (h : Reads em w) : em.roundedMantissa = nearestEven w := by
  rw [nearestEven, h.floor]
  obtain ⟨m, r, s⟩ := em
  obtain ⟨low, high, round, sticky⟩ := h
  cases r <;> cases s <;>
    simp only [ExtendedMantissa.roundedMantissa, ExtendedMantissa.accuracy,
      Accuracy.roundToNearestEven] at * <;>
    grind

end Reads

/-! ### The last place -/

/-- The exponent of the last place kept of a number: 53 places from its leading one on, but none
below the finest unit. -/
def place (v : ℚ) : ℤ := max (Int.log 2 v - 52) (-1074)

/-- A number in units of its last place. -/
def significand (v : ℚ) : ℕ := nearestEven (v / 2 ^ place v)

lemma le_log {v : ℚ} {k : ℤ} (h : 2 ^ k ≤ v) : k ≤ Int.log 2 v :=
  (Int.zpow_le_iff_le_log one_lt_two (lt_of_lt_of_le (by positivity) h)).1 (by exact_mod_cast h)

lemma log_lt {v : ℚ} {k : ℤ} (hv : 0 < v) (h : v < 2 ^ k) : Int.log 2 v < k :=
  (Int.lt_zpow_iff_log_lt one_lt_two hv).1 (by exact_mod_cast h)

/-- The leading place of a number lies between two powers of two. -/
lemma log_eq {v : ℚ} {k : ℤ} (low : 2 ^ k ≤ v) (high : v < 2 ^ (k + 1)) : Int.log 2 v = k :=
  le_antisymm (Int.lt_add_one_iff.1 (log_lt (lt_of_lt_of_le (by positivity) low) high)) (le_log low)

/-- The leading place of a number cut off at some place is that of its whole units. -/
lemma log_eq_of_units {m : ℕ} {e : ℤ} {v : ℚ} (hm : 0 < m) (low : m * 2 ^ e ≤ v)
    (high : v < (m + 1) * 2 ^ e) : Int.log 2 v = m.log2 + e := by
  apply log_eq
  · rw [zpow_add₀ two_ne_zero, zpow_natCast]
    refine le_trans ?_ low
    have := Nat.log2_self_le hm.ne'
    gcongr
    exact_mod_cast this
  · rw [add_right_comm, zpow_add₀ two_ne_zero]
    refine lt_of_lt_of_le high ?_
    have := Nat.lt_log2_self (n := m)
    gcongr
    exact_mod_cast this

lemma log_mul_zpow {m : ℕ} {e : ℤ} (hm : 0 < m) : Int.log 2 ((m : ℚ) * 2 ^ e) = m.log2 + e :=
  log_eq_of_units hm le_rfl (by gcongr; simp)

lemma div_place_lt (v : ℚ) : v / 2 ^ place v < 2 ^ 53 := by
  rw [div_lt_iff₀ (by positivity), ← zpow_natCast, ← zpow_add₀ two_ne_zero]
  have h := Int.lt_zpow_succ_log_self (b := 2) one_lt_two v
  refine lt_of_lt_of_le (by exact_mod_cast h) (zpow_le_zpow_right₀ one_le_two ?_)
  simp only [place]; omega

lemma le_div_place {v : ℚ} (hv : 0 < v) (h : -1074 < place v) : 2 ^ 52 ≤ v / 2 ^ place v := by
  rw [le_div_iff₀ (by positivity), ← zpow_natCast, ← zpow_add₀ two_ne_zero]
  have hl := Int.zpow_log_le_self (b := 2) one_lt_two hv
  refine le_trans (zpow_le_zpow_right₀ one_le_two ?_) (by exact_mod_cast hl)
  simp only [place] at h ⊢; omega

lemma significand_le {v : ℚ} (hv : 0 < v) : significand v ≤ 2 ^ 53 :=
  nearestEven_le (div_pos hv (by positivity)).le (by exact_mod_cast (div_place_lt v).le)

lemma le_significand {v : ℚ} (hv : 0 < v) (h : -1074 < place v) : 2 ^ 52 ≤ significand v :=
  le_nearestEven (by exact_mod_cast le_div_place hv h)

namespace Scaled

/-- The number itself. -/
def value (b : Scaled) : ℚ := b.significand * 2 ^ b.exponent

/-- A number and a sign, unpacked. -/
def unpacked (s : Sign) (b : Scaled) : UnpackedFloat :=
  if h : b.significand = 0 then .zero s
  else .finite s b.significand b.exponent (Nat.pos_of_ne_zero h)

end Scaled

/-- The number rounded.  A significand that carries into one more place moves up. -/
def rounded (v : ℚ) : Scaled :=
  if significand v = 2 ^ 53 then ⟨2 ^ 52, place v + 1⟩ else ⟨significand v, place v⟩

lemma targetExponent_eq (t : ℤ) : Format.binary64.targetExponent t = max (t - 53) (-1074) := rfl

/-- The last place can be found from what has been cut off, even if that is nothing. -/
lemma Reads.targetExponent {m : ℕ} {e : ℤ} {acc : Accuracy} {v : ℚ} (hv : 0 < v)
    (h : Reads (.ofMantissaAndAccuracy m acc) (v / 2 ^ e)) (he : e ≤ place v) :
    Format.binary64.targetExponent (totalExponent m e) = place v := by
  have hm : (ExtendedMantissa.ofMantissaAndAccuracy m acc).mantissa = m := by
    unfold ExtendedMantissa.ofMantissaAndAccuracy; split <;> rfl
  have low := h.low
  have high := h.high
  rw [hm, le_div_iff₀ (by positivity)] at low
  rw [hm, div_lt_iff₀ (by positivity)] at high
  rw [targetExponent_eq, totalExponent]
  rcases m.eq_zero_or_pos with rfl | hpos
  · -- less than one unit in hand: the place is the lowest there is
    have hlog : Int.log 2 v < e := log_lt hv (by simpa using high)
    simp only [place] at he ⊢
    simp
    omega
  · simp only [place, log_eq_of_units hpos low high]
    omega

/-- A significand that has been rounded needs one more shift at most, when rounding carried. -/
lemma shiftToTargetExponent_rounded {n : ℕ} {t : ℤ} (hn : n ≤ 2 ^ 53) (ht : -1074 ≤ t) :
    shiftToTargetExponent .binary64 n t .exact =
      if n = 2 ^ 53 then (⟨2 ^ 52, false, false⟩, t + 1) else (⟨n, false, false⟩, t) := by
  rw [shiftToTargetExponent, shiftToExponent, targetExponent_eq, totalExponent]
  split_ifs with h
  · have hl : n.log2 = 53 := by rw [h]; rfl
    have hs : (max ((n.log2 : ℤ) + 1 + t - 53) (-1074) - t).toNat = 1 := by omega
    simp only [hs]
    rw [h]
    rfl
  · have hl : n.log2 < 53 := by
      rcases Nat.eq_zero_or_pos n with rfl | hpos
      · decide
      · exact (Nat.log2_lt hpos.ne').2 (lt_of_le_of_ne hn h)
    have hs : (max ((n.log2 : ℤ) + 1 + t - 53) (-1074) - t).toNat = 0 := by omega
    simp only [hs]
    refine Prod.ext rfl (add_zero t)

/-- **Rounding by bits is rounding.**  A significand cut off from `v` below its last place, with its
guard bits, rounds to `v` rounded, whatever it was cut off by. -/
theorem roundWithAccuracy_eq {m : ℕ} {e : ℤ} {acc : Accuracy} {v : ℚ} (s : Sign) (hv : 0 < v)
    (h : Reads (.ofMantissaAndAccuracy m acc) (v / 2 ^ e)) (he : e ≤ place v) :
    roundWithAccuracy .binary64 s m e acc = (rounded v).unpacked s := by
  obtain ⟨k, hk⟩ := Int.le.dest he
  have first : shiftToTargetExponent .binary64 m e acc =
      (ExtendedMantissa.ofMantissaAndAccuracy m acc >>> k, place v) := by
    rw [shiftToTargetExponent, h.targetExponent hv he, shiftToExponent, ← hk]
    simp
  have round : (ExtendedMantissa.ofMantissaAndAccuracy m acc >>> k).roundedMantissa =
      significand v := by
    rw [(h.shiftRight k).roundedMantissa, significand, ← hk, zpow_add₀ two_ne_zero, zpow_natCast,
      div_div]
  have second : shiftToTargetExponent .binary64 (significand v) (place v) .exact = _ :=
    shiftToTargetExponent_rounded (significand_le hv) (le_max_right _ _)
  have unfolded : roundWithAccuracy .binary64 s m e acc =
      Scaled.unpacked s
        ⟨(shiftToTargetExponent .binary64 (significand v) (place v) .exact).1.mantissa,
          (shiftToTargetExponent .binary64 (significand v) (place v) .exact).2⟩ := by
    rw [← round, roundWithAccuracy, first]
    rfl
  rw [unfolded, second, rounded]
  split_ifs <;> rfl

end ArrayCalc.Decimal
