import ArrayCalc.Numeral
import Mathlib.Data.List.TakeDrop
import Mathlib.Tactic.Lemma
/-!
Numerals and their spellings.

* `Numeral.spelling`: a numeral spelled out from its parts; `spellingIn`: the same with a small or a
  capital letter before the exponent; `WellSpelled`: digits stand where digits belong;
* `takeSign_append`, `takeDigits_append`, `takeFraction_append`, `takeExponent_append`: each part is
  read off the front of its spelling;
* **`split_spellingIn`: a numeral is read off its spelling**, with or without a line feed behind it;
  `readNumeral_of_ofText?`, `readNumeral_spelling`: what its text stands for.
-/

namespace ArrayCalc

namespace Numeral

/-! ### Spellings -/

/-- A sign as it is spelled. -/
def spellSign (negative : Bool) : List Char := if negative then ['_'] else []

/-- A fraction as it is spelled, behind a point. -/
def spellFraction : Option (List Char) → List Char
  | none => []
  | some ds => '.' :: ds

/-- An exponent as it is spelled, behind its letter. -/
def spellExponent : Option (Bool × List Char) → List Char
  | none => []
  | some (negative, ds) => 'e' :: (spellSign negative ++ ds)

/-- A numeral as it is spelled. -/
def spelling (n : Numeral) : List Char :=
  spellSign n.negative ++ (n.whole ++ (spellFraction n.fraction ++ spellExponent n.exponent))

/-- The letters that an exponent may stand behind. -/
def IsExponentLetter (c : Char) : Prop := c = 'e' ∨ c = 'E'

/-- An exponent as it is spelled behind a letter. -/
def spellExponentIn (letter : Char) : Option (Bool × List Char) → List Char
  | none => []
  | some (negative, ds) => letter :: (spellSign negative ++ ds)

/-- A numeral as it is spelled with a letter before its exponent. -/
def spellingIn (letter : Char) (n : Numeral) : List Char :=
  spellSign n.negative ++
    (n.whole ++ (spellFraction n.fraction ++ spellExponentIn letter n.exponent))

lemma spellingIn_e (n : Numeral) : n.spellingIn 'e' = n.spelling := by
  rw [spellingIn, spelling]
  cases n.exponent <;> rfl

/-- Nothing but digits. -/
def AreDigits (ds : List Char) : Prop := ∀ c ∈ ds, c.isDigit = true

namespace AreDigits

variable {ds es : List Char}

lemma append (h : AreDigits ds) (h' : AreDigits es) : AreDigits (ds ++ es) := by
  intro c hc
  rcases List.mem_append.1 hc with hc | hc
  · exact h c hc
  · exact h' c hc

lemma take (h : AreDigits ds) (k : Nat) : AreDigits (ds.take k) :=
  fun c hc => h c (List.mem_of_mem_take hc)

lemma drop (h : AreDigits ds) (k : Nat) : AreDigits (ds.drop k) :=
  fun c hc => h c (List.mem_of_mem_drop hc)

lemma toDigits (n : Nat) : AreDigits (Nat.toDigits 10 n) :=
  fun _ hc => Nat.isDigit_of_mem_toDigits (by decide) (by decide) hc

lemma zeros (k : Nat) : AreDigits (List.replicate k '0') := by
  intro c hc
  rw [List.eq_of_mem_replicate hc]
  decide

lemma head?_ne (h : AreDigits ds) : ds.head? ≠ some '_' := by
  intro hc
  have := h '_' (List.mem_of_head? hc)
  revert this
  decide

end AreDigits

/-- Digits where digits belong, and an exponent that has some. -/
structure WellSpelled (n : Numeral) : Prop where
  whole : AreDigits n.whole
  fraction : ∀ ds ∈ n.fraction, AreDigits ds
  exponent : ∀ e ∈ n.exponent, e.2 ≠ [] ∧ AreDigits e.2

/-! ### Reading parts -/

/-- No digit at the front. -/
def Stops (r : List Char) : Prop := ∀ c ∈ r.head?, c.isDigit = false

lemma takeDigits_append {ds r : List Char} (h : AreDigits ds) (hr : Stops r) :
    takeDigits (ds ++ r) = (ds, r) := by
  rw [takeDigits, List.span_eq_takeWhile_dropWhile, List.takeWhile_append_of_pos h,
    List.dropWhile_append_of_pos h]
  cases r with
  | nil => simp
  | cons c r =>
    have := hr c rfl
    simp [this]

lemma takeSign_append {negative : Bool} {r : List Char} (h : r.head? ≠ some '_') :
    takeSign (spellSign negative ++ r) = (negative, r) := by
  cases negative with
  | true => rfl
  | false =>
    change takeSign r = _
    unfold takeSign
    split
    · exact absurd rfl h
    · rfl

/-- A line feed behind a numeral, or nothing. -/
lemma head?_of_end {r : List Char} (hr : r = [] ∨ r = ['\n']) {c : Char} (hc : c ∈ r.head?) :
    c = '\n' := by
  rcases hr with rfl | rfl
  · cases hc
  · exact (Option.some.inj hc).symm

section
variable {letter : Char} (hletter : IsExponentLetter letter) {r : List Char}
  (hr : r = [] ∨ r = ['\n'])
include hletter hr

/-- What may be at the front of an exponent, or behind a numeral without one. -/
lemma head?_spellExponentIn {e : Option (Bool × List Char)} {c : Char}
    (hc : c ∈ (spellExponentIn letter e ++ r).head?) : c = 'e' ∨ c = 'E' ∨ c = '\n' := by
  cases e with
  | none => exact .inr (.inr (head?_of_end hr hc))
  | some e =>
    obtain rfl : letter = c := by simpa [spellExponentIn] using hc
    rcases hletter with rfl | rfl
    · exact .inl rfl
    · exact .inr (.inl rfl)

lemma stops_spellExponentIn (e : Option (Bool × List Char)) :
    Stops (spellExponentIn letter e ++ r) := by
  intro c hc
  rcases head?_spellExponentIn hletter hr hc with rfl | rfl | rfl <;> decide

lemma stops_spellFraction (f : Option (List Char)) (e : Option (Bool × List Char)) :
    Stops (spellFraction f ++ (spellExponentIn letter e ++ r)) := by
  cases f with
  | none => exact stops_spellExponentIn hletter hr e
  | some ds =>
    rintro c hc
    obtain rfl : '.' = c := by simpa [spellFraction] using hc
    decide

lemma takeFraction_append {f : Option (List Char)} (hf : ∀ ds ∈ f, AreDigits ds)
    (e : Option (Bool × List Char)) :
    takeFraction (spellFraction f ++ (spellExponentIn letter e ++ r)) =
      (f, spellExponentIn letter e ++ r) := by
  have hstops := stops_spellExponentIn hletter hr e
  have hhead := @head?_spellExponentIn letter hletter r hr e
  generalize spellExponentIn letter e ++ r = s at *
  cases f with
  | none =>
    change takeFraction s = _
    unfold takeFraction
    split
    · exact absurd (hhead rfl) (by decide)
    · rfl
  | some ds =>
    have hread := takeDigits_append (hf ds rfl) hstops
    change (some (takeDigits (ds ++ s)).1, (takeDigits (ds ++ s)).2) = _
    rw [hread]

lemma takeExponent_append {e : Option (Bool × List Char)}
    (he : ∀ p ∈ e, p.2 ≠ [] ∧ AreDigits p.2) :
    takeExponent (spellExponentIn letter e ++ r) = (e, r) := by
  cases e with
  | none => rcases hr with rfl | rfl <;> rfl
  | some p =>
    obtain ⟨hne, hds⟩ := he p rfl
    have hstops : Stops r := fun c hc => by
      rw [head?_of_end hr hc]
      decide
    have hhead : (p.2 ++ r).head? ≠ some '_' := by
      obtain ⟨d, ds, h⟩ := List.exists_cons_of_ne_nil hne
      rw [h]
      exact (h ▸ hds).head?_ne
    change takeExponent (letter :: (spellSign p.1 ++ p.2 ++ r)) = _
    rw [takeExponent, if_pos (show letter = 'e' ∨ letter = 'E' from hletter), List.append_assoc,
      takeSign_append hhead]
    simp only [takeDigits_append hds hstops, hne, if_false]

/-! ### Reading numerals -/

lemma head?_spell_ne {ds : List Char} (h : AreDigits ds) (f : Option (List Char))
    (e : Option (Bool × List Char)) :
    (ds ++ (spellFraction f ++ (spellExponentIn letter e ++ r))).head? ≠ some '_' := by
  cases ds with
  | cons d ds => exact h.head?_ne
  | nil =>
    cases f with
    | some fs => simp [spellFraction]
    | none => exact fun hc => absurd (head?_spellExponentIn hletter hr hc) (by decide)

/-- **A numeral is read off its spelling.** -/
theorem split_spellingIn {n : Numeral} (h : n.WellSpelled) :
    split (n.spellingIn letter ++ r) = (n, r) := by
  simp only [split, spellingIn, List.append_assoc,
    takeSign_append (head?_spell_ne hletter hr h.whole _ _),
    takeDigits_append h.whole (stops_spellFraction hletter hr _ _),
    takeFraction_append hletter hr h.fraction, takeExponent_append hletter hr h.exponent]

lemma ofText?_spellingIn {n : Numeral} (h : n.WellSpelled) (hd : n.hasDigits = true) :
    ofText? (n.spellingIn letter ++ r) = some n := by
  simp only [ofText?, split_spellingIn hletter hr h]
  exact if_pos ⟨hd, hr⟩

end

/-- The words for the infinities have no digit. -/
lemma ne_infinity {text : String} {n : Numeral} (h : ofText? text.toList = some n) :
    text ≠ "_" ∧ text ≠ "__" := by
  constructor
  · rintro rfl
    cases h
  · rintro rfl
    cases h

/-- What a text stands for that spells a numeral. -/
lemma readNumeral_of_ofText? {text : String} {n : Numeral} (h : ofText? text.toList = some n) :
    readNumeral text =
      if n.fraction.isSome || n.exponent.isSome then .ok ⟨.decimal, n.decimal⟩
      else if maxDigits < n.whole.length then .error (.tooLong n.whole.length)
      else if Int64.minValue.toInt ≤ n.integer ∧ n.integer ≤ Int64.maxValue.toInt then
        .ok ⟨.integer, Int64.ofInt n.integer⟩
      else .error (.outOfRange text) := by
  obtain ⟨h1, h2⟩ := ne_infinity h
  rw [readNumeral, if_neg h1, if_neg h2, h]

lemma readNumeral_spelling {n : Numeral} (h : n.WellSpelled) (hd : n.hasDigits = true) :
    readNumeral (String.ofList n.spelling) =
      if n.fraction.isSome || n.exponent.isSome then .ok ⟨.decimal, n.decimal⟩
      else if maxDigits < n.whole.length then .error (.tooLong n.whole.length)
      else if Int64.minValue.toInt ≤ n.integer ∧ n.integer ≤ Int64.maxValue.toInt then
        .ok ⟨.integer, Int64.ofInt n.integer⟩
      else .error (.outOfRange (String.ofList n.spelling)) := by
  refine readNumeral_of_ofText? ?_
  rw [String.toList_ofList, ← n.spellingIn_e, ← List.append_nil (n.spellingIn 'e')]
  exact ofText?_spellingIn (.inl rfl) (.inl rfl) h hd

end Numeral

/-! ### Infinities -/

lemma infinity_facts : infinity.isInf = true ∧ Decimal.isNegative infinity = false := by
  decide +kernel

lemma neg_infinity_facts : (-infinity).isInf = true ∧ Decimal.isNegative (-infinity) = true := by
  decide +kernel

end ArrayCalc
