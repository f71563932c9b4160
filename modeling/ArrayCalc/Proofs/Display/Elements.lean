import ArrayCalc.Proofs.Decimal.Shortest
import ArrayCalc.Proofs.Numeral.Layout
import ArrayCalc.Proofs.Numeral.Lists
import ArrayCalc.Proofs.Numeral.Words
/-!
The texts of elements, read back.

* `Quantity`, `Kind.quantity`: what an element says as a number, whatever its kind;
* `Element.text`: an element as it is displayed; `Element.isNumeral_text`: a word of its own;
* `Element.ReadAs`: the element that a text stands for, which says the same number and has the same
  text, also at the kinds to which a list may raise it;
* `Element.exists_readAs`: **every element that is a number is read back**;
* `Element.quantity_eq_of_text_eq`: elements with one text say the same;
* `Element.rejected_iff`: the one text that is refused is that of what is not a number.

Decimals are displayed in two ways.  A whole number below the bound of the layout is written as an
integer, and is read as one; made a decimal again it is the same double, but for the sign of zero.
Any other number is written with a point or an exponent, and is read as the double that it is.
-/

namespace ArrayCalc

open Decimal Numeral

/-! ### What elements say -/

/-- What an element says as a number, whatever its kind. -/
inductive Quantity where
  | finite (q : ℚ)
  | infinite (negative : Bool)
  | undefined
  deriving DecidableEq

/-- What an element of a kind says as a number. -/
def Kind.quantity : (k : Kind) → k.Elem → Quantity
  | .boolean, b => .finite (if b then 1 else 0)
  | .integer, n => .finite (Int64.toInt n)
  | .decimal, x =>
    if x.isNaN then .undefined
    else if x.isInf then .infinite (isNegative x)
    else .finite (signedValue x)

namespace Element

/-- An element as it is displayed. -/
def text (e : Element) : List Char := Display.element e.kind e.value

/-- What an element says as a number. -/
def quantity (e : Element) : Quantity := e.kind.quantity e.value

/-- The zero with a minus sign. -/
def minusZero : Element := ⟨.decimal, -(0 : Float)⟩

/-- `e'` says the same number as `e` and has the same text, but it is never minus zero. -/
structure Restates (e e' : Element) : Prop where
  quantity : e'.quantity = e.quantity
  text : e'.text = e.text
  zero : e' ≠ minusZero

/-- `e'` is what the text of `e` stands for, at its own kind and at any that a list of such elements
may have. -/
structure ReadAs (e e' : Element) : Prop where
  reads : readNumeral (String.ofList e.text) = .ok e'
  kind : e'.kind = .integer ∨ e'.kind = .decimal ∧ e.kind = .decimal
  restates : ∀ k, e'.kind ≤ k → k = .integer ∨ k = .decimal ∧ e.kind = .decimal →
    e.Restates (e'.raised k)

lemma ne_minusZero_of_kind {e : Element} (h : e.kind = .integer) : e ≠ minusZero := by
  rintro rfl
  cases h

end Element

/-! ### Integers -/

/-- The numeral of an integer. -/
def integerNumeral (n : ℤ) : Numeral := ⟨decide (n < 0), Nat.toDigits 10 n.natAbs, none, none⟩

lemma spelling_integerNumeral (n : ℤ) :
    (integerNumeral n).spelling = Display.integer ['_'] n := by
  by_cases h : n < 0 <;>
    simp [integerNumeral, spelling, spellSign, spellFraction, spellExponent, Display.integer, h]

lemma wellSpelled_integerNumeral (n : ℤ) : (integerNumeral n).WellSpelled :=
  ⟨.toDigits _, by simp [integerNumeral], by simp [integerNumeral]⟩

lemma integer_integerNumeral (n : ℤ) : (integerNumeral n).integer = n := by
  simp only [integerNumeral, integer, number_toDigits]
  by_cases hn : n < 0
  · rw [if_pos (decide_eq_true hn)]
    omega
  · rw [if_neg (by simpa using hn)]
    omega

lemma isNumeral_integer (n : ℤ) : Lexer.IsNumeral (Display.integer ['_'] n) := by
  rw [← spelling_integerNumeral]
  exact isNumeral_spelling (wellSpelled_integerNumeral n) Nat.toDigits_ne_nil

/-- An integer of 64 bits is read as itself, also the least one. -/
lemma readNumeral_integer {n : ℤ} (h : -2 ^ 63 ≤ n) (h' : n < 2 ^ 63) :
    readNumeral (String.ofList (Display.integer ['_'] n)) = .ok ⟨.integer, Int64.ofInt n⟩ := by
  have hdigits : (integerNumeral n).hasDigits = true := by
    simp [integerNumeral, hasDigits, Nat.toDigits_ne_nil]
  have hlen : ¬ maxDigits < (integerNumeral n).whole.length := by
    have : (Nat.toDigits 10 n.natAbs).length ≤ 19 := by
      rw [Nat.length_toDigits_le_iff (by decide) (by decide)]
      omega
    rw [not_lt]
    exact this.trans (by decide)
  rw [← spelling_integerNumeral, readNumeral_spelling (wellSpelled_integerNumeral n) hdigits,
    if_neg (by simp [integerNumeral]), if_neg hlen, integer_integerNumeral, if_pos]
  exact ⟨h, Int.le_of_lt_add_one h'⟩

/-- The double of plus or minus a natural number that a double holds; zero has no sign. -/
lemma toDecimal_of_value {b : Scaled} (hb : b.Fits) {n : ℕ} (hn : n < 10 ^ 16) (hv : b.value = n)
    (negative : Bool) :
    Kind.toDecimal (Int64.ofInt (if negative then -(n : ℤ) else n)) =
      b.toFloat (if negative && n != 0 then .negative else .positive) := by
  have hint : (Int64.ofInt (if negative then -(n : ℤ) else n)).toInt =
      if negative then -(n : ℤ) else n := by
    have hn' : (n : ℤ) < 10 ^ 16 := by exact_mod_cast hn
    rw [Int64.toInt_ofInt_of_le] <;> split_ifs <;> omega
  have hpos : Float.ofNat n = b.toFloat .positive := by
    rw [ofNat_eq_nearest, ← hv, nearest_value hb]
  rw [Kind.toDecimal, hint]
  cases negative with
  | false => exact hpos
  | true =>
    cases n with
    | zero => exact hpos
    | succ n =>
      change Float.neg (Float.ofNat (n + 1)) = _
      rw [hpos]
      exact neg_toFloat _ hb

/-! ### Infinities, and what is not a number -/

lemma write_of_isNaN {x : Float} (h : x.isNaN = true) :
    Display.numeralLayout.write x = ['_', '.'] := if_pos h

lemma write_of_isInf {x : Float} (h : x.isInf = true) :
    Display.numeralLayout.write x = spellSign (isNegative x) ++ ['_'] := by
  have hnan : ¬ x.isNaN = true := by
    rw [isNaN_of_isInf h]
    exact Bool.false_ne_true
  rw [Layout.write, if_neg hnan, if_pos h]
  cases isNegative x <;> rfl

lemma readNumeral_of_isInf {x : Float} (h : x.isInf = true) :
    readNumeral (String.ofList (Display.numeralLayout.write x)) = .ok ⟨.decimal, x⟩ := by
  rw [write_of_isInf h]
  cases hs : isNegative x with
  | false =>
    rw [eq_of_isInf h infinity_facts.1 (hs.trans infinity_facts.2.symm)]
    rfl
  | true =>
    rw [eq_of_isInf h neg_infinity_facts.1 (hs.trans neg_infinity_facts.2.symm)]
    rfl

/-- What is not a number is displayed as a numeral without digits, and that is refused. -/
lemma readNumeral_not_a_number : readNumeral "_." = .error (.malformed "_.") := by
  have h : Numeral.ofText? "_.".toList = none := by decide +kernel
  rw [readNumeral, if_neg (by decide), if_neg (by decide), h]

/-! ### Small whole decimals -/

lemma write_of_whole {x : Float} (h : IsFinite x) {n : ℕ}
    (hw : (Scaled.ofFloat x).whole? = some n) (hn : n < 10 ^ 16) :
    Display.numeralLayout.write x =
      Display.integer ['_'] (if isNegative x then -(n : ℤ) else n) := by
  have hbound : n < Layout.wholeBound := hn
  simp only [Layout.write, h.1, h.2, hw, hbound, Bool.false_eq_true, if_false, if_true]
  rcases n.eq_zero_or_pos with rfl | hpos
  · cases isNegative x <;> rfl
  · cases isNegative x with
    | false =>
      have h0 : ¬ (n : ℤ) < 0 := by omega
      simp [Layout.signed, Display.integer, Display.numeralLayout, h0]
    | true => simp [Layout.signed, Display.integer, Display.numeralLayout, hpos, hpos.ne']

/-- What a small whole decimal says and shows is what the integer says and shows. -/
lemma same_of_whole {x : Float} (h : IsFinite x) {n : ℕ} (hn : n < 10 ^ 16)
    (hw : (Scaled.ofFloat x).whole? = some n) :
    Kind.quantity .decimal x = .finite (if isNegative x then -(n : ℤ) else n : ℤ) ∧
      Display.element .decimal x =
        Display.integer ['_'] (if isNegative x then -(n : ℤ) else n) := by
  constructor
  · have hv := Scaled.whole?_eq_some_iff.1 hw
    simp only [Kind.quantity, h.1, h.2, Bool.false_eq_true, if_false, Decimal.signedValue, hv]
    split_ifs <;> simp
  · exact write_of_whole h hw hn

lemma minusZero_facts : (-(0 : Float)).isInf = false ∧ isNegative (-(0 : Float)) = true ∧
    (Scaled.ofFloat (-(0 : Float))).whole? = some 0 := by decide +kernel

/-! ### Other decimals -/

section
variable {x : Float} (h : IsFinite x) (hw : ∀ n < 10 ^ 16, (Scaled.ofFloat x).whole? ≠ some n)
include h hw

lemma write_of_not_whole :
    Display.numeralLayout.write x = (numeralOf (isNegative x) (shortest x)).spelling := by
  rw [spelling_numeralOf]
  simp only [Layout.write, h.1, h.2, Bool.false_eq_true, if_false]
  split
  · rename_i n hn
    have hbound : ¬ n < Layout.wholeBound := fun hlt => hw n hlt hn
    rw [if_neg hbound]
  · rfl

lemma shortest_ne_natCast : ∀ n < 10 ^ 16, (shortest x).value ≠ (n : ℕ) := by
  intro n hn hs
  obtain ⟨m, hm, hwhole⟩ := whole_of_shortest h hn hs
  exact hw m hm hwhole

lemma coefficient_ne_zero : (shortest x).coefficient ≠ 0 := by
  intro hc
  apply shortest_ne_natCast h hw 0 (by decide)
  rw [Scientific.value, hc, Nat.cast_zero, zero_mul]

lemma readNumeral_of_not_whole :
    readNumeral (String.ofList (Display.numeralLayout.write x)) = .ok ⟨.decimal, x⟩ := by
  have hc := coefficient_ne_zero h hw
  have hmark : ((numeralOf (isNegative x) (shortest x)).fraction.isSome ||
      (numeralOf (isNegative x) (shortest x)).exponent.isSome) = true := by
    rw [← Bool.not_eq_false]
    intro hnone
    obtain ⟨n, hn, hs⟩ := exists_natCast_of_plain _ hc hnone
    exact shortest_ne_natCast h hw n hn hs
  rw [write_of_not_whole h hw, readNumeral_spelling (wellSpelled_numeralOf _ _)
    (hasDigits_numeralOf _ hc), if_pos hmark, Numeral.decimal, negative_numeralOf,
    toFloat_eq_nearest, value_numeralOf _ hc, ← toFloat_eq_nearest, toFloat_shortest h,
    signed_abs h]

end

namespace Element

/-! ### Every element -/

/-- An element that is read as an integer. -/
lemma readAs_integer {e : Element} {n : ℤ} (h : -2 ^ 63 ≤ n) (h' : n < 2 ^ 63)
    (htext : e.text = Display.integer ['_'] n) (hq : e.quantity = .finite n)
    (hdec : e.kind = .decimal → e.Restates ⟨.decimal, Kind.toDecimal (Int64.ofInt n)⟩) :
    e.ReadAs ⟨.integer, Int64.ofInt n⟩ := by
  have hint : (Int64.ofInt n).toInt = n := Int64.toInt_ofInt_of_le h h'
  refine ⟨by rw [htext, readNumeral_integer h h'], .inl rfl, ?_⟩
  rintro k hk (rfl | ⟨rfl, hkind⟩)
  · change e.Restates ⟨.integer, Int64.ofInt n⟩
    refine ⟨?_, ?_, ne_minusZero_of_kind rfl⟩
    · rw [hq, quantity, Kind.quantity, hint]
    · rw [htext, text, Display.element, hint]
  · exact hdec hkind

/-- A decimal other than minus zero that is read as the double that it is. -/
lemma readAs_self {x : Float} (hzero : x ≠ -(0 : Float))
    (h : readNumeral (String.ofList (Display.numeralLayout.write x)) = .ok ⟨.decimal, x⟩) :
    ReadAs ⟨.decimal, x⟩ ⟨.decimal, x⟩ := by
  refine ⟨h, .inr ⟨rfl, rfl⟩, ?_⟩
  rintro k hk (rfl | ⟨rfl, -⟩)
  · exact absurd hk (by decide : ¬ Kind.decimal ≤ Kind.integer)
  · refine ⟨rfl, rfl, ?_⟩
    rintro ⟨⟩
    exact hzero rfl

/-- Made a decimal, the integer that a small whole double displays restates it: it is the same
double, but its zero has no sign. -/
lemma restates_toDecimal {x : Float} (h : IsFinite x) {n : ℕ} (hn : n < 10 ^ 16)
    (hw : (Scaled.ofFloat x).whole? = some n) :
    Restates ⟨.decimal, x⟩
      ⟨.decimal, Kind.toDecimal (Int64.ofInt (if isNegative x then -(n : ℤ) else n))⟩ := by
  have hfits := fits_ofFloat h
  obtain ⟨hq, htext⟩ := same_of_whole h hn hw
  rw [toDecimal_of_value hfits hn (Scaled.whole?_eq_some_iff.1 hw)]
  set y := (Scaled.ofFloat x).toFloat (if isNegative x && n != 0 then .negative else .positive)
  have hsign : isNegative y = (isNegative x && n != 0) := isNegative_toFloat hfits _
  have hwhole : (Scaled.ofFloat y).whole? = some n := by rw [ofFloat_toFloat _ hfits, hw]
  obtain ⟨hq', htext'⟩ := same_of_whole (isFinite_toFloat _ hfits) hn hwhole
  have hsame : (if isNegative y then -(n : ℤ) else n) = if isNegative x then -(n : ℤ) else n := by
    rw [hsign]
    rcases n.eq_zero_or_pos with rfl | hpos
    · simp
    · simp [hpos.ne']
  rw [hsame] at hq' htext'
  refine ⟨hq'.trans hq.symm, htext'.trans htext.symm, ?_⟩
  intro hzero
  rw [eq_of_heq (Element.mk.inj hzero).2] at hsign hwhole
  obtain rfl : 0 = n := Option.some.inj (minusZero_facts.2.2.symm.trans hwhole)
  rw [minusZero_facts.2.1] at hsign
  simp at hsign

/-- Small whole decimals are read as integers. -/
lemma readAs_of_whole {x : Float} (h : IsFinite x) {n : ℕ} (hn : n < 10 ^ 16)
    (hw : (Scaled.ofFloat x).whole? = some n) :
    ReadAs ⟨.decimal, x⟩ ⟨.integer, Int64.ofInt (if isNegative x then -(n : ℤ) else n)⟩ := by
  obtain ⟨hq, htext⟩ := same_of_whole h hn hw
  have h64 : (n : ℤ) < 10 ^ 16 := by exact_mod_cast hn
  refine readAs_integer ?_ ?_ htext hq fun _ => restates_toDecimal h hn hw
  · split_ifs <;> omega
  · split_ifs <;> omega

/-- A double that is neither of the others is small and whole, or is not. -/
lemma decimal_cases (x : Float) : x.isNaN = true ∨ x.isInf = true ∨ IsFinite x ∧
    ((∃ n < 10 ^ 16, (Scaled.ofFloat x).whole? = some n) ∨
      ∀ n < 10 ^ 16, (Scaled.ofFloat x).whole? ≠ some n) := by
  by_cases hnan : x.isNaN = true
  · exact .inl hnan
  by_cases hinf : x.isInf = true
  · exact .inr (.inl hinf)
  refine .inr (.inr ⟨⟨by simpa using hnan, by simpa using hinf⟩, ?_⟩)
  by_cases hw : ∃ n < 10 ^ 16, (Scaled.ofFloat x).whole? = some n
  · exact .inl hw
  · exact .inr fun n hn h => hw ⟨n, hn, h⟩

/-- **Every number is read back**: the text of an element that is one stands for an element that
says the same number and has the same text. -/
theorem exists_readAs (e : Element) (h : e.quantity ≠ .undefined) : ∃ e', e.ReadAs e' := by
  obtain ⟨k, x⟩ := e
  cases k with
  | boolean =>
    refine ⟨_, readAs_integer (n := if x then 1 else 0) ?_ ?_ ?_ ?_ (by rintro ⟨⟩)⟩
    · cases x <;> decide
    · cases x <;> decide
    · cases x <;> rfl
    · cases x <;> simp [quantity, Kind.quantity]
  | integer =>
    exact ⟨_, readAs_integer (Int64.le_toInt x) (Int64.toInt_lt x) rfl rfl (by rintro ⟨⟩)⟩
  | decimal =>
    rcases decimal_cases x with hnan | hinf | ⟨hfin, ⟨n, hn, hw⟩ | hw⟩
    · exact absurd (if_pos hnan) h
    · refine ⟨_, readAs_self ?_ (readNumeral_of_isInf hinf)⟩
      rintro rfl
      rw [minusZero_facts.1] at hinf
      cases hinf
    · exact ⟨_, readAs_of_whole hfin hn hw⟩
    · refine ⟨_, readAs_self ?_ (readNumeral_of_not_whole hfin hw)⟩
      rintro rfl
      exact hw 0 (by decide) minusZero_facts.2.2

/-- The text of an element is one word. -/
lemma isNumeral_text (e : Element) : Lexer.IsNumeral e.text := by
  obtain ⟨k, x⟩ := e
  cases k with
  | boolean => cases x <;> exact ⟨_, [], rfl, by decide, by simp⟩
  | integer => exact isNumeral_integer _
  | decimal =>
    change Lexer.IsNumeral (Display.numeralLayout.write x)
    rcases decimal_cases x with hnan | hinf | ⟨hfin, ⟨n, hn, hw⟩ | hw⟩
    · rw [write_of_isNaN hnan]
      exact ⟨'_', ['.'], rfl, by decide, by simp⟩
    · rw [write_of_isInf hinf]
      cases isNegative x
      · exact ⟨'_', [], rfl, by decide, by simp⟩
      · exact ⟨'_', ['_'], rfl, by decide, by simp [Lexer.isDigit]⟩
    · rw [write_of_whole hfin hw hn]
      exact isNumeral_integer _
    · rw [write_of_not_whole hfin hw]
      exact isNumeral_spelling (wellSpelled_numeralOf _ _)
        (whole_numeralOf_ne_nil _ (coefficient_ne_zero hfin hw))

/-! ### The text that is refused -/

lemma text_of_undefined {e : Element} (h : e.quantity = .undefined) : e.text = ['_', '.'] := by
  obtain ⟨k, x⟩ := e
  cases k with
  | boolean => cases h
  | integer => cases h
  | decimal =>
    have hnan : Float.isNaN x = true := by
      by_contra hnan
      simp only [quantity, Kind.quantity, if_neg hnan] at h
      split at h <;> cases h
    exact write_of_isNaN hnan

/-- Every other text is read. -/
lemma text_ne_of_readAs {e e' : Element} (h : e.ReadAs e') : e.text ≠ ['_', '.'] := by
  intro htext
  have hreads := h.reads
  rw [htext] at hreads
  rw [show String.ofList ['_', '.'] = "_." from rfl, readNumeral_not_a_number] at hreads
  cases hreads

lemma text_eq_iff (e : Element) : e.text = ['_', '.'] ↔ e.quantity = .undefined := by
  constructor
  · intro htext
    by_contra hne
    obtain ⟨e', he'⟩ := exists_readAs e hne
    exact text_ne_of_readAs he' htext
  · exact text_of_undefined

/-- **The text of an element tells what it says**, whatever its kind: it is read as the same element
wherever it comes from, or not at all. -/
theorem quantity_eq_of_text_eq {d e : Element} (h : d.text = e.text) :
    d.quantity = e.quantity := by
  by_cases hd : d.quantity = .undefined
  · rw [hd, eq_comm, ← text_eq_iff, ← h, text_eq_iff, hd]
  · have he : e.quantity ≠ .undefined := by rwa [Ne, ← text_eq_iff, ← h, text_eq_iff]
    obtain ⟨d', hd'⟩ := exists_readAs d hd
    obtain ⟨e', he'⟩ := exists_readAs e he
    have hreads := hd'.reads
    rw [h, he'.reads] at hreads
    obtain rfl := Except.ok.inj hreads
    have hfrom := (hd'.restates _ (Kind.le_refl _) hd'.kind).quantity
    rw [← hfrom, (he'.restates _ (Kind.le_refl _) he'.kind).quantity]

/-- Of the texts of elements, that of what is not a number is refused, and no other. -/
theorem rejected_iff (e : Element) :
    (∃ err, readNumeral (String.ofList e.text) = .error err) ↔ e.text = ['_', '.'] := by
  constructor
  · rintro ⟨err, herr⟩
    rw [text_eq_iff]
    by_contra hne
    obtain ⟨e', he'⟩ := exists_readAs e hne
    rw [he'.reads] at herr
    cases herr
  · intro h
    rw [h]
    exact ⟨_, readNumeral_not_a_number⟩

end Element

end ArrayCalc
