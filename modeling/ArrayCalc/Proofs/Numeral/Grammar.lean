import ArrayCalc.Proofs.Decimal.Closest
import ArrayCalc.Proofs.Numeral.Layout
import ArrayCalc.Proofs.Numeral.Words
/-!
The grammar of numerals.

* `Numeral.Spells`: a text is a numeral written down; `ofText?_eq_some_iff`: **this is what is found
  when a text is taken apart**;
* `Numeral.rational`: the number that a numeral says; `roundsTo_decimal`: a decimal is that number
  rounded; `inRange_iff`: the test of integers, in terms of it;
* `readNumeral_follows_grammar`: **which texts are read, and as what.**
-/

namespace ArrayCalc

open Decimal

namespace Numeral

/-! ### Which texts are numerals -/

/-- The text is this numeral written down: a sign or none; digits, with a point behind them or
among them or without one, or a point and digits behind it; an exponent or none, behind a small or a
capital letter.  One line feed at the end does not count. -/
structure Spells (n : Numeral) (s : List Char) : Prop where
  parts : n.WellSpelled
  digits : n.whole ≠ [] ∨ ∃ d ds, n.fraction = some (d :: ds)
  text : ∃ letter, IsExponentLetter letter ∧
    (s = n.spellingIn letter ∨ s = n.spellingIn letter ++ ['\n'])

lemma hasDigits_iff {n : Numeral} :
    n.hasDigits = true ↔ n.whole ≠ [] ∨ ∃ d ds, n.fraction = some (d :: ds) := by
  rw [hasDigits, Bool.or_eq_true, Bool.not_eq_true', List.isEmpty_eq_false_iff,
    Bool.not_eq_true', List.isEmpty_eq_false_iff]
  refine or_congr_right ?_
  rcases n.fraction with _ | _ | ⟨d, ds⟩ <;> simp

/-- **Taking a text apart finds the numeral that is written down there**, and no other one. -/
theorem ofText?_eq_some_iff {s : List Char} {n : Numeral} : ofText? s = some n ↔ n.Spells s := by
  constructor
  · intro h
    obtain ⟨hparts, hdigits, htext⟩ := ofText?_eq_some h
    exact ⟨hparts, hasDigits_iff.1 hdigits, htext⟩
  · rintro ⟨hparts, hdigits, letter, hletter, rfl | rfl⟩
    · rw [← List.append_nil (n.spellingIn letter)]
      exact ofText?_spellingIn hletter (.inl rfl) hparts (hasDigits_iff.2 hdigits)
    · exact ofText?_spellingIn hletter (.inr rfl) hparts (hasDigits_iff.2 hdigits)

/-! ### What a numeral says -/

/-- Neither a point nor an exponent. -/
def IsPlain (n : Numeral) : Prop := n.fraction = none ∧ n.exponent = none

/-- The exponent with its sign, zero if there is none. -/
def power (n : Numeral) : ℤ :=
  match n.exponent with
  | none => 0
  | some (true, ds) => -number ds
  | some (false, ds) => number ds

/-- The number that a numeral says. -/
def rational (n : Numeral) : ℚ :=
  let fraction := n.fraction.getD []
  (if n.negative then -1 else 1) * (number n.whole + number fraction / 10 ^ fraction.length) *
    10 ^ n.power

/-- At most 4300 digits, and a number of 64 bits. -/
def InRange (n : Numeral) : Prop :=
  n.whole.length ≤ 4300 ∧ -2 ^ 63 ≤ n.rational ∧ n.rational ≤ 2 ^ 63 - 1

lemma isPlain_iff {n : Numeral} :
    n.IsPlain ↔ ¬ (n.fraction.isSome || n.exponent.isSome) = true := by
  rw [IsPlain, Bool.or_eq_true, not_or, Option.not_isSome_iff_eq_none,
    Option.not_isSome_iff_eq_none]

/-- The digits on both sides of the point are read as one number. -/
lemma value_scientific (n : Numeral) :
    n.scientific.value =
      (number n.whole + number (n.fraction.getD []) / 10 ^ (n.fraction.getD []).length) *
        10 ^ n.power := by
  have hten : (10 : ℚ) ≠ 0 := by norm_num
  have hscientific : n.scientific = ⟨number (n.whole ++ n.fraction.getD []),
      n.power - (n.fraction.getD []).length⟩ := by
    rw [scientific, power]
    rcases n.exponent with _ | ⟨_ | _, ds⟩ <;> rfl
  rw [hscientific, Scientific.value, number_append, zpow_sub₀ hten, zpow_natCast]
  push_cast
  field_simp

lemma rational_eq (n : Numeral) :
    n.rational = if n.negative then -n.scientific.value else n.scientific.value := by
  rw [value_scientific, rational]
  cases n.negative with
  | false => rw [if_neg Bool.false_ne_true, if_neg Bool.false_ne_true, one_mul]
  | true => rw [if_pos rfl, if_pos rfl, neg_mul, neg_mul, one_mul]

lemma rational_of_isPlain {n : Numeral} (h : n.IsPlain) : n.rational = n.integer := by
  have hvalue : n.scientific.value = number n.whole := by
    rw [value_scientific, power, h.1, h.2]
    simp [number]
  rw [rational_eq, hvalue, integer]
  cases n.negative with
  | false => rfl
  | true => exact (Int.cast_neg _).symm

/-- **A numeral with a point or an exponent is read as the double that it rounds to.** -/
theorem roundsTo_decimal (n : Numeral) :
    RoundsTo n.rational n.decimal ∧ isNegative n.decimal = n.negative := by
  have hnonneg : 0 ≤ n.scientific.value := by
    rw [Scientific.value]
    positivity
  rw [rational_eq, decimal, toFloat_eq_nearest]
  exact roundsTo_nearest n.negative hnonneg

/-- A plain numeral is in range if the number that it says is found to be. -/
lemma inRange_iff {n : Numeral} (h : n.IsPlain) :
    n.InRange ↔ ¬ maxDigits < n.whole.length ∧
      Int64.minValue.toInt ≤ n.integer ∧ n.integer ≤ Int64.maxValue.toInt := by
  have hleast : Int64.minValue.toInt = -2 ^ 63 := by decide
  have hmost : Int64.maxValue.toInt = 2 ^ 63 - 1 := by decide
  rw [InRange, rational_of_isPlain h, hleast, hmost, not_lt]
  refine and_congr Iff.rfl (and_congr ?_ ?_)
  · norm_cast
  · norm_cast

end Numeral

open Numeral

/-! ### Reading -/

lemma readNumeral_of_isPlain {text : String} {n : Numeral} (h : n.Spells text.toList)
    (hplain : n.IsPlain) (hrange : n.InRange) :
    ∃ k : Int64, readNumeral text = .ok ⟨.integer, k⟩ ∧ (k.toInt : ℚ) = n.rational := by
  obtain ⟨hlength, hbounds⟩ := (inRange_iff hplain).1 hrange
  refine ⟨Int64.ofInt n.integer, ?_, ?_⟩
  · rw [readNumeral_of_ofText? (ofText?_eq_some_iff.2 h), if_neg (isPlain_iff.1 hplain),
      if_neg hlength, if_pos hbounds]
  · rw [rational_of_isPlain hplain,
      Int64.toInt_ofInt_of_le hbounds.1 (Int.lt_add_one_of_le hbounds.2)]

lemma readNumeral_of_not_isPlain {text : String} {n : Numeral} (h : n.Spells text.toList)
    (hplain : ¬ n.IsPlain) : readNumeral text = .ok ⟨.decimal, n.decimal⟩ := by
  have hparts := not_not.1 (mt isPlain_iff.2 hplain)
  rw [readNumeral_of_ofText? (ofText?_eq_some_iff.2 h), if_pos hparts]

lemma readNumeral_of_not_spelled {text : String} (h1 : text ≠ "_") (h2 : text ≠ "__")
    (h : ∀ n : Numeral, ¬ n.Spells text.toList) : readNumeral text = .error (.malformed text) := by
  have hnone : ofText? text.toList = none :=
    Option.eq_none_iff_forall_ne_some.2 fun n hn => h n (ofText?_eq_some_iff.1 hn)
  rw [readNumeral, if_neg h1, if_neg h2, hnone]

/-- A plain numeral out of range is refused, for its length or for its size. -/
lemma readNumeral_of_not_inRange {text : String} {n : Numeral} (h : n.Spells text.toList)
    (hplain : n.IsPlain) (hrange : ¬ n.InRange) :
    (4300 < n.whole.length ∧ readNumeral text = .error (.tooLong n.whole.length)) ∨
      (n.whole.length ≤ 4300 ∧ ¬ (-2 ^ 63 ≤ n.rational ∧ n.rational ≤ 2 ^ 63 - 1) ∧
        readNumeral text = .error (.outOfRange text)) := by
  have hread := readNumeral_of_ofText? (ofText?_eq_some_iff.2 h)
  rw [if_neg (isPlain_iff.1 hplain)] at hread
  by_cases hlength : maxDigits < n.whole.length
  · exact .inl ⟨hlength, hread.trans (if_pos hlength)⟩
  · refine .inr ⟨not_lt.1 hlength, fun hbounds => hrange ⟨not_lt.1 hlength, hbounds⟩, ?_⟩
    rw [hread, if_neg hlength, if_neg]
    exact fun hbounds => hrange ((inRange_iff hplain).2 ⟨hlength, hbounds⟩)

/-- A text is refused because it is no numeral, or because it is a plain one that is too long or
does not fit. -/
lemma cause_of_readNumeral_eq_error {text : String} {e : NumeralError}
    (h : readNumeral text = .error e) :
    (e = .malformed text ∧ ∀ n : Numeral, ¬ n.Spells text.toList) ∨
      ∃ n : Numeral, n.Spells text.toList ∧ n.IsPlain ∧
        (e = .tooLong n.whole.length ∧ 4300 < n.whole.length ∨
          e = .outOfRange text ∧ n.whole.length ≤ 4300 ∧
            ¬ (-2 ^ 63 ≤ n.rational ∧ n.rational ≤ 2 ^ 63 - 1)) := by
  by_cases hspelled : ∃ n : Numeral, n.Spells text.toList
  · obtain ⟨n, hn⟩ := hspelled
    have hplain : n.IsPlain := by
      by_contra hplain
      cases h.symm.trans (readNumeral_of_not_isPlain hn hplain)
    have hrange : ¬ n.InRange := by
      intro hrange
      obtain ⟨k, hk, -⟩ := readNumeral_of_isPlain hn hplain hrange
      cases h.symm.trans hk
    refine .inr ⟨n, hn, hplain, ?_⟩
    obtain ⟨hlength, h'⟩ | ⟨hlength, hbounds, h'⟩ := readNumeral_of_not_inRange hn hplain hrange
    · exact .inl ⟨Except.error.inj (h.symm.trans h'), hlength⟩
    · exact .inr ⟨Except.error.inj (h.symm.trans h'), hlength, hbounds⟩
  · have hnone := not_exists.1 hspelled
    have h1 : text ≠ "_" := by
      rintro rfl
      cases h
    have h2 : text ≠ "__" := by
      rintro rfl
      cases h
    exact .inl ⟨Except.error.inj (h.symm.trans (readNumeral_of_not_spelled h1 h2 hnone)), hnone⟩

/-- **Reading follows the grammar of numerals.**  A text is read exactly if it is the word for an
infinity or a numeral written down, where one without point and exponent has to be in range; that
one stands for the integer that it says, exactly, and any other one for the double that the number
it says rounds to.  All other texts are refused with a `ValueError`: what is no numeral, too many
digits, and an integer that 64 bits do not hold. -/
theorem readNumeral_follows_grammar (text : String) :
    ((∃ e, readNumeral text = .ok e) ↔ text = "_" ∨ text = "__" ∨
      ∃ n : Numeral, n.Spells text.toList ∧ (n.IsPlain → n.InRange)) ∧
    (text = "_" → ∃ x : Float, readNumeral text = .ok ⟨.decimal, x⟩ ∧
      x.isInf = true ∧ isNegative x = false) ∧
    (text = "__" → ∃ x : Float, readNumeral text = .ok ⟨.decimal, x⟩ ∧
      x.isInf = true ∧ isNegative x = true) ∧
    (∀ n : Numeral, n.Spells text.toList →
      (n.IsPlain → n.InRange →
        ∃ k : Int64, readNumeral text = .ok ⟨.integer, k⟩ ∧ (k.toInt : ℚ) = n.rational) ∧
      (¬ n.IsPlain →
        ∃ x : Float, readNumeral text = .ok ⟨.decimal, x⟩ ∧
          RoundsTo n.rational x ∧ isNegative x = n.negative)) ∧
    (∀ e, readNumeral text = .error e →
      (Error.numeral e).name = "ValueError" ∧
      ((e = .malformed text ∧ ∀ n : Numeral, ¬ n.Spells text.toList) ∨
        ∃ n : Numeral, n.Spells text.toList ∧ n.IsPlain ∧
          (e = .tooLong n.whole.length ∧ 4300 < n.whole.length ∨
            e = .outOfRange text ∧ n.whole.length ≤ 4300 ∧
              ¬ (-2 ^ 63 ≤ n.rational ∧ n.rational ≤ 2 ^ 63 - 1)))) := by
  have hone : text = "_" → readNumeral text = .ok ⟨.decimal, infinity⟩ := by
    rintro rfl
    rfl
  have htwo : text = "__" → readNumeral text = .ok ⟨.decimal, -infinity⟩ := by
    rintro rfl
    rfl
  refine ⟨⟨?accepted, ?accepts⟩, fun h => ⟨_, hone h, infinity_facts⟩,
    fun h => ⟨_, htwo h, neg_infinity_facts⟩, ?value, ?refused⟩
  case accepted =>
    rintro ⟨e, he⟩
    by_cases h1 : text = "_"
    · exact .inl h1
    by_cases h2 : text = "__"
    · exact .inr (.inl h2)
    by_cases hspelled : ∃ n : Numeral, n.Spells text.toList
    · obtain ⟨n, hn⟩ := hspelled
      refine .inr (.inr ⟨n, hn, fun hplain => ?_⟩)
      by_contra hrange
      obtain ⟨-, h⟩ | ⟨-, -, h⟩ := readNumeral_of_not_inRange hn hplain hrange <;>
        cases he.symm.trans h
    · cases he.symm.trans (readNumeral_of_not_spelled h1 h2 (not_exists.1 hspelled))
  case accepts =>
    rintro (h | h | ⟨n, hn, hrange⟩)
    · exact ⟨_, hone h⟩
    · exact ⟨_, htwo h⟩
    · by_cases hplain : n.IsPlain
      · obtain ⟨k, hk, -⟩ := readNumeral_of_isPlain hn hplain (hrange hplain)
        exact ⟨_, hk⟩
      · exact ⟨_, readNumeral_of_not_isPlain hn hplain⟩
  case value =>
    intro n hn
    exact ⟨readNumeral_of_isPlain hn, fun hplain =>
      ⟨n.decimal, readNumeral_of_not_isPlain hn hplain, n.roundsTo_decimal⟩⟩
  case refused => exact fun e he => ⟨rfl, cause_of_readNumeral_eq_error he⟩

/-- A sign on both numbers, a capital letter and a line feed; the least integer; and the integer
behind the greatest one. -/
theorem reading_at_the_edges :
    (∃ x : Float, readNumeral "_1.5E_2\n" = .ok ⟨.decimal, x⟩ ∧
      RoundsTo (-3 / 200) x ∧ isNegative x = true) ∧
    (∃ k : Int64, readNumeral "_9223372036854775808" = .ok ⟨.integer, k⟩ ∧
      (k.toInt : ℚ) = -2 ^ 63) ∧
    (readNumeral "9223372036854775808" = .error (.outOfRange "9223372036854775808") ∧
      (Error.numeral (.outOfRange "9223372036854775808")).name = "ValueError") := by
  refine ⟨?_, ?_, ?_⟩
  · have hn : Spells ⟨true, ['1'], some ['5'], some (true, ['2'])⟩ "_1.5E_2\n".toList :=
      ofText?_eq_some_iff.1 (by decide)
    have hrational : rational ⟨true, ['1'], some ['5'], some (true, ['2'])⟩ = -3 / 200 := by
      rw [rational_eq, show scientific _ = ⟨15, -3⟩ by rfl, Scientific.value]
      norm_num
    obtain ⟨x, hx, hround, hneg⟩ :=
      ((readNumeral_follows_grammar "_1.5E_2\n").2.2.2.1 _ hn).2 fun h => by cases h.1
    exact ⟨x, hx, hrational ▸ hround, hneg⟩
  · have hn : Spells ⟨true, "9223372036854775808".toList, none, none⟩
        "_9223372036854775808".toList := ofText?_eq_some_iff.1 (by decide +kernel)
    have hplain : IsPlain ⟨true, "9223372036854775808".toList, none, none⟩ := ⟨rfl, rfl⟩
    have hrational : rational ⟨true, "9223372036854775808".toList, none, none⟩ = -2 ^ 63 := by
      rw [rational_of_isPlain hplain, show integer _ = -2 ^ 63 by decide +kernel]
      norm_num
    rw [← hrational]
    refine ((readNumeral_follows_grammar "_9223372036854775808").2.2.2.1 _ hn).1 hplain ⟨?_, ?_⟩
    · decide +kernel
    · rw [hrational]
      norm_num
  · have hread : readNumeral "9223372036854775808" =
        .error (.outOfRange "9223372036854775808") := by
      rfl
    exact ⟨hread, ((readNumeral_follows_grammar "9223372036854775808").2.2.2.2 _ hread).1⟩

end ArrayCalc
