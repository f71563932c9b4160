import ArrayCalc.Proofs.Lexer.Spelling
import ArrayCalc.Proofs.Numeral.Spelling
import Mathlib.Data.List.TakeWhile
/-!
Texts that are read as numerals are words of a source.

* `takeSign_eq`, `takeDigits_eq`, `takeFraction_eq`, `takeExponent_eq`: what is taken off the front
  of a text, and what is left, make the text; from them **`split_eq`: a text taken apart spells what
  has been found in it**, and `ofText?_eq_some`;
* `GoesOn`, `isNumeral_spellingIn`: a numeral with a sign or with digits before its point is a word;
* `isNumeral_of_readNumeral`: **so is every text that is read**, unless it begins with its point or
  ends in a line feed.
-/

namespace ArrayCalc

namespace Numeral

/-! ### What has been taken off the front of a text -/

lemma takeSign_eq (s : List Char) : s = spellSign (takeSign s).1 ++ (takeSign s).2 := by
  unfold takeSign
  split <;> rfl

lemma takeDigits_eq (s : List Char) :
    AreDigits (takeDigits s).1 ∧ s = (takeDigits s).1 ++ (takeDigits s).2 := by
  rw [takeDigits, List.span_eq_takeWhile_dropWhile]
  exact ⟨fun c hc => List.mem_takeWhile_imp hc, List.takeWhile_append_dropWhile.symm⟩

lemma takeFraction_eq (s : List Char) :
    (∀ ds ∈ (takeFraction s).1, AreDigits ds) ∧
      s = spellFraction (takeFraction s).1 ++ (takeFraction s).2 := by
  unfold takeFraction
  split
  · rename_i r
    obtain ⟨hdigits, htext⟩ := takeDigits_eq r
    refine ⟨?_, congrArg ('.' :: ·) htext⟩
    rintro ds ⟨⟩
    exact hdigits
  · refine ⟨?_, rfl⟩
    rintro ds ⟨⟩

lemma takeExponent_eq (s : List Char) :
    (∀ p ∈ (takeExponent s).1, p.2 ≠ [] ∧ AreDigits p.2) ∧
      ∃ letter, IsExponentLetter letter ∧
        s = spellExponentIn letter (takeExponent s).1 ++ (takeExponent s).2 := by
  have hnone : (∀ p ∈ (none : Option (Bool × List Char)), p.2 ≠ [] ∧ AreDigits p.2) ∧
      ∃ letter, IsExponentLetter letter ∧ s = spellExponentIn letter none ++ s := by
    refine ⟨?_, 'e', .inl rfl, rfl⟩
    rintro p ⟨⟩
  cases s with
  | nil => exact hnone
  | cons c r =>
    rw [takeExponent]
    split
    · rename_i hletter
      -- the sign, and then the digits behind it
      obtain ⟨hdigits, hrest⟩ := takeDigits_eq (takeSign r).2
      have hsign := takeSign_eq r
      dsimp only
      split
      · exact hnone
      · rename_i hne
        refine ⟨?_, c, hletter, ?_⟩
        · rintro p ⟨⟩
          exact ⟨hne, hdigits⟩
        · show c :: r = c :: (spellSign _ ++ _) ++ _
          rw [List.cons_append, List.append_assoc, ← hrest, ← hsign]
    · exact hnone

/-- **A text taken apart spells what has been found in it**, and ends in what is left. -/
theorem split_eq (s : List Char) :
    (split s).1.WellSpelled ∧
      ∃ letter, IsExponentLetter letter ∧ s = (split s).1.spellingIn letter ++ (split s).2 := by
  have hsign := takeSign_eq s
  obtain ⟨hwhole, hfraction⟩ := takeDigits_eq (takeSign s).2
  obtain ⟨hdigits, hexponent⟩ := takeFraction_eq (takeDigits (takeSign s).2).2
  obtain ⟨hpower, letter, hletter, hrest⟩ :=
    takeExponent_eq (takeFraction (takeDigits (takeSign s).2).2).2
  refine ⟨⟨hwhole, hdigits, hpower⟩, letter, hletter, ?_⟩
  simp only [spellingIn, List.append_assoc]
  calc s = spellSign _ ++ (takeSign s).2 := hsign
    _ = spellSign _ ++ (_ ++ (takeDigits (takeSign s).2).2) := congrArg _ hfraction
    _ = spellSign _ ++ (_ ++ (spellFraction _ ++ _)) := congrArg _ (congrArg _ hexponent)
    _ = spellSign _ ++ (_ ++ (spellFraction _ ++ (spellExponentIn letter _ ++ _))) :=
      congrArg _ (congrArg _ (congrArg _ hrest))

/-- A text that spells a numeral is its spelling, but for a line end behind it. -/
lemma ofText?_eq_some {s : List Char} {n : Numeral} (h : ofText? s = some n) :
    n.WellSpelled ∧ n.hasDigits = true ∧ ∃ letter, IsExponentLetter letter ∧
      (s = n.spellingIn letter ∨ s = n.spellingIn letter ++ ['\n']) := by
  obtain ⟨hwell, letter, hletter, htext⟩ := split_eq s
  simp only [ofText?] at h
  split at h
  · rename_i hdigits
    cases h
    refine ⟨hwell, hdigits.1, letter, hletter, ?_⟩
    rcases hdigits.2 with hrest | hrest <;> rw [hrest] at htext
    · exact .inl (htext.trans (List.append_nil _))
    · exact .inr htext
  · cases h

/-! ### Numerals as words -/

/-- What may stand behind the first character of a numeral. -/
def GoesOn (s : List Char) : Prop :=
  ∀ c ∈ s, (Lexer.isLetter c || Lexer.isDigit c || c == '.') = true

lemma GoesOn.append {s t : List Char} (h : GoesOn s) (h' : GoesOn t) : GoesOn (s ++ t) := by
  intro c hc
  rcases List.mem_append.1 hc with hc | hc
  · exact h c hc
  · exact h' c hc

lemma AreDigits.goesOn {ds : List Char} (h : AreDigits ds) : GoesOn ds := by
  intro c hc
  simp [Lexer.isDigit, h c hc]

lemma goesOn_spellSign (negative : Bool) : GoesOn (spellSign negative) := by
  cases negative <;> simp [GoesOn, spellSign, Lexer.isDigit]

/-- A numeral that begins with a sign or a digit is a word. -/
lemma isNumeral_spellingIn {n : Numeral} {letter : Char} (hletter : IsExponentLetter letter)
    (h : n.WellSpelled) (hfirst : n.negative = true ∨ n.whole ≠ []) :
    Lexer.IsNumeral (n.spellingIn letter) := by
  have hfraction : GoesOn (spellFraction n.fraction) := by
    cases hf : n.fraction with
    | none => simp [GoesOn, spellFraction]
    | some ds =>
      exact GoesOn.append (s := ['.']) (by simp [GoesOn]) (AreDigits.goesOn (h.fraction ds hf))
  have hexponent : GoesOn (spellExponentIn letter n.exponent) := by
    cases he : n.exponent with
    | none => simp [GoesOn, spellExponentIn]
    | some p =>
      have hone : GoesOn [letter] := by
        rcases hletter with rfl | rfl <;> simp [GoesOn, Lexer.isLetter]
      exact hone.append ((goesOn_spellSign _).append (AreDigits.goesOn (h.exponent p he).2))
  have hrest := hfraction.append hexponent
  rw [spellingIn]
  cases hn : n.negative with
  | true => exact ⟨'_', _, rfl, rfl, (AreDigits.goesOn h.whole).append hrest⟩
  | false =>
    have hwhole : n.whole ≠ [] := hfirst.resolve_left (by rw [hn]; exact Bool.false_ne_true)
    obtain ⟨d, ds, hds⟩ := List.exists_cons_of_ne_nil hwhole
    have hdigits : AreDigits (d :: ds) := hds ▸ h.whole
    rw [hds]
    refine ⟨d, _, rfl, ?_, ?_⟩
    · simp [Lexer.isDigit, hdigits d List.mem_cons_self]
    · exact GoesOn.append (fun c hc => AreDigits.goesOn hdigits c (List.mem_cons_of_mem d hc)) hrest

/-- A numeral with digits before its point is a word. -/
lemma isNumeral_spelling {n : Numeral} (h : n.WellSpelled) (hw : n.whole ≠ []) :
    Lexer.IsNumeral n.spelling :=
  n.spellingIn_e ▸ isNumeral_spellingIn (.inl rfl) h (.inr hw)

/-- A numeral without sign and without digits before its point begins with the point. -/
lemma head?_spellingIn {n : Numeral} (letter : Char) (hd : n.hasDigits = true)
    (hsign : n.negative = false) (hwhole : n.whole = []) :
    (n.spellingIn letter).head? = some '.' := by
  rw [spellingIn, hsign, hwhole]
  rw [hasDigits, hwhole] at hd
  cases hf : n.fraction with
  | none =>
    rw [hf] at hd
    cases hd
  | some ds => rfl

end Numeral

open Numeral

/-- **A text that is read as a numeral is a word of a source**, unless it begins with its point or
ends in a line feed. -/
theorem isNumeral_of_readNumeral {text : String} {e : Element} (h : readNumeral text = .ok e)
    (hpoint : text.toList.head? ≠ some '.') (hend : text.toList.getLast? ≠ some '\n') :
    Lexer.IsNumeral text.toList := by
  rw [readNumeral] at h
  split at h
  · rename_i hone
    rw [hone]
    exact ⟨'_', [], rfl, rfl, List.forall_mem_nil _⟩
  split at h
  · rename_i htwo
    rw [htwo]
    exact ⟨'_', ['_'], rfl, rfl, List.forall_mem_singleton.mpr rfl⟩
  split at h
  · cases h
  · rename_i n hn
    obtain ⟨hwell, hdigits, letter, hletter, htext | htext⟩ := ofText?_eq_some hn
    · rw [htext] at hpoint ⊢
      refine isNumeral_spellingIn hletter hwell ?_
      by_contra hfirst
      obtain ⟨hsign, hwhole⟩ := not_or.mp hfirst
      exact hpoint (head?_spellingIn letter hdigits (Bool.eq_false_iff.mpr hsign)
        (Classical.not_not.mp hwhole))
    · rw [htext, List.getLast?_concat] at hend
      exact absurd rfl hend

end ArrayCalc
