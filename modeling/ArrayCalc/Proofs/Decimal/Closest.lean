import ArrayCalc.Proofs.Decimal.Nearest
/-!
The nearest double is the closest one.

* `nearestEven_closest`, `nearestEven_of_tie`: no integer is closer to a number than the nearest
  one, and of two that are as close it is the even one; `abs_nearestUnits_sub_le`,
  `abs_nearestUnits_sub_lt`, `even_nearestUnits`: the same in units of any size;
* `RoundsTo`: the double that a number of either sign rounds to, told by all other doubles; from
  `tooLarge` on it is infinite (`exponent_rounded_le_iff`);
* `abs_rounded_sub_le`, `even_rounded`: the same in the places of doubles, where what another double
  holds is a whole number of units (`comparable_of_fits`);
* `roundsTo_nearest`: `nearest` rounds correctly.
-/

namespace ArrayCalc.Decimal

open Float.Model Float.Model.UnpackedFloat

/-! ### The closest integer -/

lemma abs_nearestEven_sub_le {w : ℚ} (h : 0 ≤ w) : |(nearestEven w : ℚ) - w| ≤ 1 / 2 := by
  have hlow := Nat.floor_le h
  have hhigh := Nat.lt_floor_add_one w
  rw [abs_le]
  unfold nearestEven
  split_ifs with hbelow habove
  · constructor <;> linarith
  · push_cast
    constructor <;> linarith
  · have hhalf : w = ⌊w⌋₊ + 1 / 2 := le_antisymm (not_lt.1 habove) (not_lt.1 hbelow)
    have hrest : ((⌊w⌋₊ % 2 : ℕ) : ℚ) ≤ 1 := by
      exact_mod_cast Nat.le_of_lt_succ (Nat.mod_lt _ two_pos)
    have hrest' : (0 : ℚ) ≤ ((⌊w⌋₊ % 2 : ℕ) : ℚ) := Nat.cast_nonneg _
    push_cast
    constructor <;> linarith

/-- Another integer is at least half a unit away. -/
lemma half_le_abs_sub {w : ℚ} (h : 0 ≤ w) {k : ℤ} (hk : k ≠ nearestEven w) :
    1 / 2 ≤ |(k : ℚ) - w| := by
  have herror := abs_nearestEven_sub_le h
  have hone : (1 : ℚ) ≤ |(k : ℚ) - nearestEven w| := by
    have hne : (1 : ℤ) ≤ |k - nearestEven w| := Int.one_le_abs (sub_ne_zero.2 hk)
    exact_mod_cast hne
  have htriangle := abs_sub_le (k : ℚ) w (nearestEven w)
  rw [abs_sub_comm w] at htriangle
  linarith

lemma nearestEven_closest {w : ℚ} (h : 0 ≤ w) (k : ℤ) :
    |(nearestEven w : ℚ) - w| ≤ |(k : ℚ) - w| := by
  by_cases hk : k = nearestEven w
  · rw [hk, Int.cast_natCast]
  · exact (abs_nearestEven_sub_le h).trans (half_le_abs_sub h hk)

/-- Of two integers as close the even one is taken. -/
lemma nearestEven_of_tie {w : ℚ} (h : 0 ≤ w) {k : ℤ} (hk : k ≠ nearestEven w)
    (htie : |(k : ℚ) - w| = |(nearestEven w : ℚ) - w|) : nearestEven w % 2 = 0 := by
  have hhalf : |(nearestEven w : ℚ) - w| = 1 / 2 :=
    le_antisymm (abs_nearestEven_sub_le h) (htie ▸ half_le_abs_sub h hk)
  have hlow := Nat.floor_le h
  unfold nearestEven at hhalf ⊢
  split_ifs at hhalf ⊢ with hbelow habove
  · rw [abs_sub_comm, abs_of_nonneg (by linarith)] at hhalf
    linarith
  · have hhigh := Nat.lt_floor_add_one w
    push_cast at hhalf
    rw [abs_of_nonneg (by linarith)] at hhalf
    linarith
  · omega

/-! ### The closest number of a grid -/

/-- Distances in units. -/
lemma abs_units_sub {u : ℚ} (hu : 0 < u) (k v : ℚ) : |k * u - v| = |k - v / u| * u := by
  rw [← abs_of_pos hu, ← abs_mul, abs_of_pos hu, sub_mul, div_mul_cancel₀ _ hu.ne']

section
variable {u v t : ℚ} (hu : 0 < u) (hv : 0 ≤ v)
include hu hv

/-- No number of whole units is closer than the nearest one. -/
lemma abs_nearestUnits_sub_le (k : ℤ) : |nearestEven (v / u) * u - v| ≤ |k * u - v| := by
  rw [abs_units_sub hu, abs_units_sub hu]
  exact mul_le_mul_of_nonneg_right (nearestEven_closest (div_nonneg hv hu.le) k) hu.le

/-- What lies below some of these is farther away than they are. -/
lemma abs_nearestUnits_sub_lt {n : ℤ} (h : t < n * u) (h' : n * u ≤ v) :
    |nearestEven (v / u) * u - v| < |t - v| := by
  have hleast := abs_nearestUnits_sub_le hu hv n
  rw [abs_sub_comm (n * u), abs_of_nonneg (sub_nonneg.2 h')] at hleast
  calc |nearestEven (v / u) * u - v| ≤ v - n * u := hleast
    _ < v - t := sub_lt_sub_left h v
    _ = |t - v| := by rw [abs_sub_comm, abs_of_nonneg (sub_nonneg.2 (h.le.trans h'))]

/-- If another number of whole units is as close, the nearest one is even. -/
lemma even_nearestUnits {k : ℤ} (hk : k ≠ nearestEven (v / u))
    (htie : |k * u - v| = |nearestEven (v / u) * u - v|) : nearestEven (v / u) % 2 = 0 := by
  rw [abs_units_sub hu, abs_units_sub hu] at htie
  exact nearestEven_of_tie (div_nonneg hv hu.le) hk (mul_right_cancel₀ hu.ne' htie)

end

/-! ### The closest double -/

/-- The numbers from here on are too large for a double: half way from the largest double to what
would come next. -/
def tooLarge : ℚ := 2 ^ (1024 : ℤ) - 2 ^ (970 : ℤ)

/-- The double is the one that the number rounds to: none is closer, and of two that are as close
the one with an even significand; and a number that is too large becomes infinite. -/
structure RoundsTo (q : ℚ) (x : Float) : Prop where
  number : x.isNaN = false
  infinite : x.isInf = true ↔ tooLarge ≤ |q|
  sign : q ≠ 0 → isNegative x = decide (q < 0)
  closest : |q| < tooLarge → ∀ y, IsFinite y → |signedValue x - q| ≤ |signedValue y - q|
  even : |q| < tooLarge → ∀ y, IsFinite y → signedValue y ≠ signedValue x →
    |signedValue y - q| = |signedValue x - q| → (Scaled.ofFloat x).significand % 2 = 0

lemma value_rounded (v : ℚ) : (rounded v).value = significand v * 2 ^ place v := by
  unfold rounded
  split_ifs with hcarry
  · rw [hcarry, Scaled.value, zpow_add_one₀ two_ne_zero]
    push_cast
    ring
  · rfl

lemma tooLarge_eq : tooLarge = (2 ^ 53 - 1 / 2) * 2 ^ (971 : ℤ) := by
  rw [tooLarge, show (1024 : ℤ) = (53 : ℕ) + 971 by rfl, show (970 : ℤ) = -1 + 971 by rfl,
    zpow_add₀ two_ne_zero, zpow_add₀ two_ne_zero, zpow_neg_one, zpow_natCast, sub_mul, one_div]

lemma pow_le_tooLarge : 2 ^ (1023 : ℤ) ≤ tooLarge := by
  rw [tooLarge_eq, show (1023 : ℤ) = (52 : ℕ) + 971 by rfl, zpow_add₀ two_ne_zero, zpow_natCast]
  gcongr
  norm_num

/-- Rounding a number that is too large carries into a place that doubles do not have. -/
lemma significand_of_tooLarge {v : ℚ} (hplace : place v = 971) (h : tooLarge ≤ v) :
    significand v = 2 ^ 53 := by
  have hunit : (0 : ℚ) < 2 ^ (971 : ℤ) := by positivity
  have hlow : 2 ^ 53 - 1 / 2 ≤ v / 2 ^ place v := by
    rw [hplace, le_div_iff₀ hunit, ← tooLarge_eq]
    exact h
  have hhigh := div_place_lt v
  have hnonneg : 0 ≤ v / 2 ^ place v := le_trans (by norm_num) hlow
  have herror := abs_le.1 (abs_nearestEven_sub_le hnonneg)
  rw [significand]
  generalize v / 2 ^ place v = w at *
  have hle : nearestEven w ≤ 2 ^ 53 := nearestEven_le hnonneg (by exact_mod_cast hhigh.le)
  have hge : 2 ^ 53 ≤ nearestEven w + 1 := by
    have : (2 ^ 53 : ℚ) ≤ nearestEven w + 1 := by linarith [herror.1]
    exact_mod_cast this
  by_contra hne
  -- then the number is half way between the two, and the even one is the larger
  have heq : nearestEven w = 2 ^ 53 - 1 := by omega
  have hcast : ((nearestEven w : ℕ) : ℚ) = 2 ^ 53 - 1 := by
    rw [heq]
    norm_num
  have hhalf : w = 2 ^ 53 - 1 / 2 := by
    rw [hcast] at herror
    linarith [herror.1]
  have heven := nearestEven_of_tie hnonneg (k := 2 ^ 53) (by rw [heq]; norm_num) (by
    rw [hcast, hhalf]
    norm_num)
  omega

/-- The double of a rounded number is finite as long as the number is not too large. -/
lemma exponent_rounded_le_iff {v : ℚ} (hv : 0 < v) :
    (rounded v).exponent ≤ 971 ↔ v < tooLarge := by
  have hunit : (0 : ℚ) < 2 ^ (971 : ℤ) := by positivity
  have hbound : tooLarge < 2 ^ (1024 : ℤ) := sub_lt_self _ (by positivity)
  constructor
  · intro hexponent
    by_contra hlarge
    rw [not_lt] at hlarge
    have hplace := (place_le_exponent_rounded v).trans hexponent
    have hlog : 1023 ≤ Int.log 2 v := le_log (le_trans pow_le_tooLarge hlarge)
    have heq : place v = 971 := by
      rw [place] at hplace ⊢
      omega
    rw [rounded, if_pos (significand_of_tooLarge heq hlarge), heq] at hexponent
    exact absurd hexponent (by decide)
  · intro hsmall
    have hlog := log_lt hv (hsmall.trans hbound)
    have hplace : place v ≤ 971 := by
      rw [place]
      omega
    unfold rounded
    split_ifs with hcarry
    · rcases hplace.lt_or_eq with hlt | heq
      · exact hlt
      · exfalso
        have hw : v / 2 ^ place v < 2 ^ 53 - 1 / 2 := by
          rw [heq, div_lt_iff₀ hunit, ← tooLarge_eq]
          exact hsmall
        have hnonneg := (div_pos hv (zpow_pos two_pos (place v))).le
        have herror := abs_le.1 (abs_nearestEven_sub_le hnonneg)
        rw [significand] at hcarry
        rw [hcarry] at herror
        push_cast at herror
        linarith [herror.2]
    · exact hplace

/-! ### What other doubles hold -/

/-- A number that a double may hold, in terms of the places of another one: a whole number of units
of its last place, or below all that have 53 places there. -/
def Comparable (v t : ℚ) : Prop :=
  (∃ k : ℤ, t = k * 2 ^ place v) ∨ t < 2 ^ 52 * 2 ^ place v ∧ 2 ^ 52 * 2 ^ place v ≤ v

lemma comparable_of_fits {v : ℚ} (hv : 0 < v) {b : Scaled} (hb : b.Fits) (negative : Bool) :
    Comparable v (if negative then -b.value else b.value) := by
  rcases le_or_gt (place v) b.exponent with hle | hlt
  · obtain ⟨n, hn⟩ := Int.le.dest hle
    have hvalue : b.value = ((b.significand * 2 ^ n : ℕ) : ℤ) * 2 ^ place v := by
      rw [Scaled.value, ← hn, zpow_add₀ two_ne_zero, zpow_natCast]
      push_cast
      ring
    refine .inl ?_
    cases negative with
    | false => exact ⟨_, hvalue⟩
    | true =>
      refine ⟨-((b.significand * 2 ^ n : ℕ) : ℤ), ?_⟩
      rw [if_pos rfl, hvalue]
      push_cast
      ring
  · have hlow := le_div_place hv (lt_of_le_of_lt hb.least hlt)
    rw [le_div_iff₀ (zpow_pos two_pos _)] at hlow
    have hvalue : b.value < 2 ^ 52 * 2 ^ place v := by
      have hsmall : (b.significand : ℚ) < 2 ^ 53 := by exact_mod_cast hb.small
      calc b.value < 2 ^ 53 * 2 ^ b.exponent := by
            rw [Scaled.value]
            gcongr
        _ ≤ 2 ^ 53 * 2 ^ (place v - 1) := by
            gcongr
            · norm_num
            · omega
        _ = 2 ^ 52 * 2 ^ place v := by
            rw [zpow_sub_one₀ two_ne_zero]
            ring
    refine .inr ⟨?_, hlow⟩
    cases negative with
    | false => exact hvalue
    | true => exact lt_of_le_of_lt (neg_le_self b.value_nonneg) hvalue

section
variable {v t : ℚ} (hv : 0 < v)
include hv

/-- What lies below all numbers of 53 places is farther away than the least of these. -/
lemma abs_rounded_sub_lt (h : t < 2 ^ 52 * 2 ^ place v) (h' : 2 ^ 52 * 2 ^ place v ≤ v) :
    |(rounded v).value - v| < |t - v| := by
  have hn : (((2 ^ 52 : ℤ) : ℤ) : ℚ) = 2 ^ 52 := by norm_num
  rw [value_rounded]
  exact abs_nearestUnits_sub_lt (by positivity) hv.le (by rwa [hn]) (by rwa [hn])

/-- **No double is closer to a number than the one that it rounds to.** -/
lemma abs_rounded_sub_le (ht : Comparable v t) : |(rounded v).value - v| ≤ |t - v| := by
  rcases ht with ⟨k, rfl⟩ | ⟨hsmall, hle⟩
  · rw [value_rounded]
    exact abs_nearestUnits_sub_le (by positivity) hv.le k
  · exact (abs_rounded_sub_lt hv hsmall hle).le

/-- **If another one is as close, the significand is even.** -/
lemma even_rounded (ht : Comparable v t) (hne : t ≠ (rounded v).value)
    (htie : |t - v| = |(rounded v).value - v|) : (rounded v).significand % 2 = 0 := by
  have hunit : (0 : ℚ) < 2 ^ place v := by positivity
  rcases ht with ⟨k, rfl⟩ | ⟨hsmall, hle⟩
  · have hk : k ≠ significand v := by
      rintro rfl
      exact hne (by rw [value_rounded, Int.cast_natCast])
    rw [value_rounded] at htie
    have heven : significand v % 2 = 0 := even_nearestUnits hunit hv.le hk htie
    unfold rounded
    split_ifs
    · norm_num
    · exact heven
  · exact absurd htie (abs_rounded_sub_lt hv hsmall hle).ne'

end

/-! ### Rounding with a sign -/

/-- A number that is not too large has a double that holds what it rounds to. -/
lemma exists_nearest {v : ℚ} (hv : 0 ≤ v) (hsmall : v < tooLarge) :
    ∃ b : Scaled, b.Fits ∧ nearest v = b.toFloat .positive ∧
      ∀ c : Scaled, c.Fits → ∀ negative : Bool, ∀ t, t = (if negative then -c.value else c.value) →
        |b.value - v| ≤ |t - v| ∧
          (t ≠ b.value → |t - v| = |b.value - v| → b.significand % 2 = 0) := by
  rcases hv.eq_or_lt with rfl | hpos
  · refine ⟨⟨0, -1074⟩, ⟨by decide, by decide, by decide, .inr rfl⟩, nearest_zero, ?_⟩
    rintro c - negative t -
    simp [Scaled.value]
  · refine ⟨rounded v, fits_rounded hpos ((exponent_rounded_le_iff hpos).2 hsmall), rfl, ?_⟩
    rintro c hc negative t rfl
    have ht := comparable_of_fits hpos hc negative
    exact ⟨abs_rounded_sub_le hpos ht, even_rounded hpos ht⟩

lemma nearest_of_tooLarge {v : ℚ} (h : tooLarge ≤ v) :
    nearest v = .ofModel (.pack (.infinity .positive)) := by
  have hv : 0 < v := lt_of_lt_of_le (by rw [tooLarge_eq]; positivity) h
  have hexponent : 971 < (rounded v).exponent :=
    not_le.1 (mt (exponent_rounded_le_iff hv).1 h.not_gt)
  refine congrArg Float.ofModel (pack_congr ?_)
  rw [pack_unpacked_of_large _ (significand_rounded_pos hv hexponent) hexponent]
  rfl

lemma signed_infinity (negative : Bool) :
    let x := Float.ofModel (.pack (.infinity .positive))
    (if negative then -x else x).isInf = true ∧
      isNegative (if negative then -x else x) = negative := by
  decide +kernel +revert

lemma abs_signed (negative : Bool) (a : ℚ) : |if negative then -a else a| = |a| := by
  cases negative with
  | false => rfl
  | true => exact abs_neg a

/-- The size of what a double holds. -/
lemma abs_signedValue (x : Float) : |signedValue x| = (Scaled.ofFloat x).value := by
  rw [signedValue, abs_signed, abs_of_nonneg (Scaled.value_nonneg _)]

lemma abs_signed_sub (negative : Bool) (a b : ℚ) :
    |(if negative then -a else a) - (if negative then -b else b)| = |a - b| := by
  cases negative with
  | false => rfl
  | true => rw [if_pos rfl, if_pos rfl, neg_sub_neg, abs_sub_comm]

/-- What a double holds, seen from a number of either sign. -/
lemma exists_signed (negative : Bool) (y : Float) :
    ∃ t, signedValue y = (if negative then -t else t) ∧
      ∃ other : Bool,
        t = if other then -(Scaled.ofFloat y).value else (Scaled.ofFloat y).value := by
  cases negative with
  | false => exact ⟨signedValue y, rfl, isNegative y, rfl⟩
  | true =>
    refine ⟨-signedValue y, by simp, !isNegative y, ?_⟩
    rw [signedValue]
    cases isNegative y <;> simp

/-- **The nearest double, with the sign of the number, is what the number rounds to.** -/
theorem roundsTo_nearest (negative : Bool) {v : ℚ} (hv : 0 ≤ v) :
    RoundsTo (if negative then -v else v) (if negative then -nearest v else nearest v) ∧
      isNegative (if negative then -nearest v else nearest v) = negative := by
  have habs : |if negative then -v else v| = v := (abs_signed negative v).trans (abs_of_nonneg hv)
  have hsign : (if negative then -v else v) ≠ 0 →
      negative = decide ((if negative then -v else v) < 0) := by
    intro hne
    have hpos : 0 < v := habs ▸ abs_pos.2 hne
    cases negative with
    | false => exact (decide_eq_false hpos.not_gt).symm
    | true => exact (decide_eq_true (neg_lt_zero.2 hpos)).symm
  rcases lt_or_ge v tooLarge with hsmall | hlarge
  · obtain ⟨b, hb, hnearest, hclosest⟩ := exists_nearest hv hsmall
    have hx : (if negative then -nearest v else nearest v) =
        b.toFloat (if negative then .negative else .positive) := by
      rw [hnearest]
      cases negative with
      | false => rfl
      | true => exact neg_toFloat _ hb
    have hneg := isNegative_toFloat hb negative
    obtain ⟨hnumber, hinf⟩ := isFinite_toFloat (if negative then .negative else .positive) hb
    refine ⟨?_, hx ▸ hneg⟩
    rw [hx]
    constructor
    case number => exact hnumber
    case infinite =>
      rw [habs, hinf]
      simpa using hsmall
    case sign => exact fun hne => hneg.trans (hsign hne)
    case closest =>
      intro _ y hy
      obtain ⟨t, ht, other, hother⟩ := exists_signed negative y
      rw [signedValue_toFloat hb, ht, abs_signed_sub, abs_signed_sub]
      exact (hclosest _ (fits_ofFloat hy) other t hother).1
    case even =>
      intro _ y hy hne htie
      obtain ⟨t, ht, other, hother⟩ := exists_signed negative y
      rw [signedValue_toFloat hb, ht] at hne htie
      rw [abs_signed_sub, abs_signed_sub] at htie
      rw [ofFloat_toFloat _ hb]
      exact (hclosest _ (fits_ofFloat hy) other t hother).2 (fun h => hne (by rw [h])) htie
  · rw [nearest_of_tooLarge hlarge]
    obtain ⟨hinf, hneg⟩ := signed_infinity negative
    refine ⟨?_, hneg⟩
    constructor
    case number => exact isNaN_of_isInf hinf
    case infinite => simpa [habs, hinf] using hlarge
    case sign => exact fun hne => hneg.trans (hsign hne)
    case closest => exact fun h => absurd (habs ▸ h) hlarge.not_gt
    case even => exact fun h => absurd (habs ▸ h) hlarge.not_gt

end ArrayCalc.Decimal
