import ArrayCalc.Display
import ArrayCalc.Proofs.Decimal.Nearest
import ArrayCalc.Proofs.Numeral.Spelling
/-!
Numbers laid out as numerals.

* `number_append`, `number_lt`: the number that digits spell;
* `positionalNumeral`, `exponentialNumeral`, `numeralOf`: the parts of the numeral that a number is
  laid out as; `spelling_numeralOf`: the layout spells them;
* `value_numeralOf`: **a numeral says the number that it was laid out from**;
  `exists_natCast_of_plain`: one without point and exponent is a small whole number.
-/

namespace ArrayCalc

open Decimal Numeral

/-! ### Digits -/

/-- The digits are the significant ones, and zeros. -/
lemma digits_eq (s : Scientific) : ∃ k, s.digits = s.significant ++ List.replicate k '0' := by
  refine ⟨(s.digits.reverse.takeWhile (· == '0')).length, ?_⟩
  have hzeros : s.digits.reverse.takeWhile (· == '0') =
      List.replicate (s.digits.reverse.takeWhile (· == '0')).length '0' := by
    rw [List.eq_replicate_iff]
    exact ⟨rfl, fun c hc => by simpa using List.mem_takeWhile_imp hc⟩
  have hsplit := List.takeWhile_append_dropWhile (p := (· == '0')) (l := s.digits.reverse)
  rw [← List.reverse_inj, List.reverse_append, List.reverse_replicate, ← hzeros,
    Scientific.significant, List.reverse_reverse]
  exact hsplit.symm

lemma number_append (ds es : List Char) :
    number (ds ++ es) = number ds * 10 ^ es.length + number es := by
  rw [number, Nat.ofDigitChars_append, Nat.ofDigitChars_eq_ofDigitChars_zero, number, number,
    Nat.mul_comm]

lemma number_zeros (k : ℕ) : number (List.replicate k '0') = 0 := by
  rw [number, Nat.ofDigitChars_replicate_zero, Nat.mul_zero]

lemma number_toDigits (n : ℕ) : number (Nat.toDigits 10 n) = n := Nat.ofDigitChars_ten_toDigits

lemma number_lt {ds : List Char} (h : AreDigits ds) : number ds < 10 ^ ds.length := by
  induction ds with
  | nil => simp [number]
  | cons c r ih =>
    have hc : c.toNat - 48 ≤ 9 := by
      have : c.toNat ≤ 57 := (Char.isDigit_iff_toNat.1 (h c List.mem_cons_self)).2
      omega
    have ih := ih fun d hd => h d (List.mem_cons_of_mem c hd)
    have hcons : number (c :: r) = 10 ^ r.length * (c.toNat - 48) + number r := by
      rw [number, Nat.ofDigitChars_cons, Nat.ofDigitChars_eq_ofDigitChars_zero, Nat.mul_zero,
        Nat.zero_add]
      rfl
    rw [hcons, List.length_cons, pow_succ]
    nlinarith [Nat.mul_le_mul_left (10 ^ r.length) hc]

/-- The value in terms of the significant digits and the place of the point. -/
lemma value_eq_significant (s : Scientific) :
    s.value = number s.significant * 10 ^ (s.point - s.significant.length) := by
  obtain ⟨k, hk⟩ := digits_eq s
  have hc : s.coefficient = number s.significant * 10 ^ k := by
    rw [← number_toDigits s.coefficient]
    change number s.digits = _
    rw [hk, number_append, number_zeros, List.length_replicate, Nat.add_zero]
  have hp : s.point - s.significant.length = k + s.exponent := by
    rw [Scientific.point, hk, List.length_append, List.length_replicate]
    push_cast
    ring
  rw [Scientific.value, hc, hp, zpow_add₀ (by norm_num)]
  push_cast
  rw [zpow_natCast]
  ring

/-! ### Layout -/

/-- The numeral of digits written out in full. -/
def positionalNumeral (negative : Bool) (ds : List Char) (point : ℤ) : Numeral :=
  if point ≤ 0 then ⟨negative, ['0'], some (List.replicate (-point).toNat '0' ++ ds), none⟩
  else if ds.length ≤ point.toNat then
    ⟨negative, ds ++ List.replicate (point.toNat - ds.length) '0', none, none⟩
  else ⟨negative, ds.take point.toNat, some (ds.drop point.toNat), none⟩

/-- The numeral of digits written with an exponent. -/
def exponentialNumeral (negative : Bool) (ds : List Char) (e : ℤ) : Numeral :=
  ⟨negative, ds.take 1, if ds.length ≤ 1 then none else some (ds.drop 1),
    some (decide (e < 0), Nat.toDigits 10 e.natAbs)⟩

/-- The numeral of a number that is laid out. -/
def numeralOf (negative : Bool) (s : Scientific) : Numeral :=
  if -4 ≤ s.point - 1 ∧ s.point - 1 < 16 then positionalNumeral negative s.significant s.point
  else exponentialNumeral negative s.significant (s.point - 1)

lemma spelling_positional (negative : Bool) (ds : List Char) (point : ℤ) :
    (positionalNumeral negative ds point).spelling =
      spellSign negative ++ Display.numeralLayout.positional ds point := by
  rw [positionalNumeral, Layout.positional, spelling]
  split_ifs with h1 h2
  · simp [spellFraction, spellExponent]
  · simp [spellFraction, spellExponent, Display.numeralLayout]
  · simp [spellFraction, spellExponent]

lemma padded_one (n : ℕ) : padded 1 n = Nat.toDigits 10 n := by
  have h := Nat.length_toDigits_pos (b := 10) (n := n)
  rw [padded, Nat.sub_eq_zero_of_le h]
  rfl

lemma spelling_exponential (negative : Bool) (ds : List Char) (e : ℤ) :
    (exponentialNumeral negative ds e).spelling =
      spellSign negative ++ Display.numeralLayout.exponential ds e := by
  have hsign : (if e < 0 then Display.numeralLayout.minus else Display.numeralLayout.plus) =
      spellSign (decide (e < 0)) := by
    simp [spellSign, Display.numeralLayout]
  have hpad : padded Display.numeralLayout.exponentWidth e.natAbs = Nat.toDigits 10 e.natAbs :=
    padded_one _
  unfold Layout.exponential
  rw [hsign, hpad]
  match ds with
  | [] => rfl
  | [d] => rfl
  | d :: c :: r => simp [exponentialNumeral, spelling, spellFraction, spellExponent]

lemma spelling_numeralOf (negative : Bool) (s : Scientific) :
    (numeralOf negative s).spelling =
      Display.numeralLayout.signed negative (Display.numeralLayout.digits s) := by
  have hsign (t : List Char) :
      Display.numeralLayout.signed negative t = spellSign negative ++ t := by
    cases negative <;> rfl
  rw [hsign, numeralOf, Layout.digits]
  split_ifs
  · exact spelling_positional _ _ _
  · exact spelling_exponential _ _ _

lemma areDigits_significant (s : Scientific) : AreDigits s.significant := by
  obtain ⟨k, hk⟩ := digits_eq s
  intro c hc
  refine AreDigits.toDigits s.coefficient c ?_
  change c ∈ s.digits
  rw [hk]
  exact List.mem_append_left _ hc

section
variable (negative : Bool) {ds : List Char} (hds : AreDigits ds)
include hds

lemma wellSpelled_positional (point : ℤ) : (positionalNumeral negative ds point).WellSpelled := by
  unfold positionalNumeral
  split_ifs with h1 h2
  · refine ⟨.zeros 1, ?_, by simp⟩
    rintro _ ⟨⟩
    exact (AreDigits.zeros _).append hds
  · exact ⟨hds.append (.zeros _), by simp, by simp⟩
  · refine ⟨hds.take _, ?_, by simp⟩
    rintro _ ⟨⟩
    exact hds.drop _

lemma wellSpelled_exponential (e : ℤ) : (exponentialNumeral negative ds e).WellSpelled := by
  refine ⟨hds.take 1, ?_, ?_⟩
  · intro es hes
    unfold exponentialNumeral at hes
    split_ifs at hes with h
    · cases hes
    · obtain rfl := Option.some.inj hes
      exact hds.drop 1
  · rintro _ ⟨⟩
    exact ⟨Nat.toDigits_ne_nil, .toDigits _⟩

end

lemma wellSpelled_numeralOf (negative : Bool) (s : Scientific) :
    (numeralOf negative s).WellSpelled := by
  unfold numeralOf
  split_ifs
  · exact wellSpelled_positional _ (areDigits_significant s) _
  · exact wellSpelled_exponential _ (areDigits_significant s) _

lemma value_positional (negative : Bool) (ds : List Char) (point : ℤ) :
    (positionalNumeral negative ds point).scientific.value =
      number ds * 10 ^ (point - ds.length) := by
  unfold positionalNumeral
  split_ifs with h1 h2
  · have hlen : (0 : ℤ) - ((-point).toNat + ds.length : ℕ) = point - ds.length := by omega
    have hzero : number ['0'] = 0 := number_zeros 1
    simp only [scientific, Scientific.value, Option.getD_some, number_append, hzero, number_zeros,
      List.length_append, List.length_replicate, hlen, zero_mul, zero_add]
  · have hlen : point - ds.length = (point.toNat - ds.length : ℕ) := by omega
    simp only [scientific, Scientific.value, Option.getD_none, number_append, number_zeros,
      List.append_nil, List.length_replicate, List.length_nil, hlen, zpow_natCast]
    push_cast
    simp
  · have hlen : (0 : ℤ) - (ds.length - point.toNat : ℕ) = point - ds.length := by omega
    simp only [scientific, Scientific.value, Option.getD_some, List.take_append_drop,
      List.length_drop, hlen]

/-- The size of a numeral, with the exponent that its digits spell. -/
lemma value_of_exponent {n : Numeral} {e : ℤ}
    (h : n.exponent = some (decide (e < 0), Nat.toDigits 10 e.natAbs)) :
    n.scientific.value =
      number (n.whole ++ n.fraction.getD []) * 10 ^ (e - (n.fraction.getD []).length) := by
  unfold scientific
  rw [h, Scientific.value]
  rcases lt_or_ge e 0 with he | he
  · have habs : -((e.natAbs : ℕ) : ℤ) = e := by omega
    simp only [decide_eq_true he, number_toDigits, habs]
  · have habs : ((e.natAbs : ℕ) : ℤ) = e := by omega
    simp only [decide_eq_false (not_lt.2 he), number_toDigits, habs]

lemma value_exponential (negative : Bool) {ds : List Char} (h : ds ≠ []) (e : ℤ) :
    (exponentialNumeral negative ds e).scientific.value =
      number ds * 10 ^ (e + 1 - ds.length) := by
  rw [value_of_exponent rfl]
  match ds with
  | [d] => simp [exponentialNumeral]
  | d :: c :: r =>
    have hlen : e - (c :: r).length = e + 1 - (d :: c :: r).length := by
      simp only [List.length_cons]
      omega
    rw [← hlen]
    rfl

lemma significant_ne_nil {s : Scientific} (h : s.coefficient ≠ 0) : s.significant ≠ [] := by
  intro hnil
  obtain ⟨k, hk⟩ := digits_eq s
  apply h
  rw [← number_toDigits s.coefficient]
  change number s.digits = 0
  rw [hk, hnil, List.nil_append, number_zeros]

lemma value_numeralOf (negative : Bool) {s : Scientific} (h : s.coefficient ≠ 0) :
    (numeralOf negative s).scientific.value = s.value := by
  rw [value_eq_significant s, numeralOf]
  split_ifs
  · exact value_positional _ _ _
  · rw [value_exponential _ (significant_ne_nil h), sub_add_cancel]

/-! ### The parts of a numeral -/

lemma whole_numeralOf_ne_nil (negative : Bool) {s : Scientific} (h : s.coefficient ≠ 0) :
    (numeralOf negative s).whole ≠ [] := by
  have hne := significant_ne_nil h
  unfold numeralOf positionalNumeral exponentialNumeral
  split_ifs with h1 h2 h3 h4
  · exact List.cons_ne_nil _ _
  · exact List.append_ne_nil_of_left_ne_nil hne _
  · have : s.point.toNat ≠ 0 := by omega
    simp [hne, this]
  · simp [hne]
  · simp [hne]

lemma hasDigits_numeralOf (negative : Bool) {s : Scientific} (h : s.coefficient ≠ 0) :
    (numeralOf negative s).hasDigits = true := by
  have hne := whole_numeralOf_ne_nil negative h
  simp [hasDigits, hne]

lemma negative_numeralOf (negative : Bool) (s : Scientific) :
    (numeralOf negative s).negative = negative := by
  unfold numeralOf positionalNumeral exponentialNumeral
  split_ifs <;> rfl

/-- A number laid out without point and exponent is a small whole number. -/
lemma exists_natCast_of_plain (negative : Bool) {s : Scientific} (h : s.coefficient ≠ 0)
    (hplain : ((numeralOf negative s).fraction.isSome ||
      (numeralOf negative s).exponent.isSome) = false) :
    ∃ n < 10 ^ 16, s.value = (n : ℕ) := by
  have hvalue := value_numeralOf negative h
  have hwell := wellSpelled_numeralOf negative s
  have hlen : (numeralOf negative s).whole.length ≤ 16 := by
    revert hplain
    unfold numeralOf positionalNumeral exponentialNumeral
    split_ifs with h1 h2 h3 <;> simp
    omega
  simp only [Bool.or_eq_false_iff, Option.isSome_eq_false_iff, Option.isNone_iff_eq_none] at hplain
  refine ⟨number (numeralOf negative s).whole, ?_, ?_⟩
  · exact lt_of_lt_of_le (number_lt hwell.whole) (Nat.pow_le_pow_right (by decide) hlen)
  · rw [← hvalue, scientific, hplain.1, hplain.2, Scientific.value]
    simp

end ArrayCalc
