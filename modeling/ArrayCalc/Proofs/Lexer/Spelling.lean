import ArrayCalc.Lexer.CharClass
import ArrayCalc.Lexer.Token
import Mathlib.Tactic.Lemma
/-!
How words are spelled.

* `isLetter`, `isDigit`, `isBlank`: the alphabet; `CharClass.Holds`: the characters of a class, and
  `CharClass.ofChar_eq_iff`: the class of a character is the one whose character it is;
* `isGlyph`, `isInflection`, `isWordChar`: the characters that make verbs, and those that go on with
  a word;
* `IsName`, `IsNumeral`, `IsOperator`, `IsQuotation`: the texts of names, numerals, operators and
  quoted words, each with what becomes of it when a character is added;
* `JoinedByBlanks`: a text made of numerals with blanks between them.
-/

namespace ArrayCalc.Lexer

/-! ### The alphabet -/

/-- The letters are those of the Latin alphabet, capital or small. -/
def isLetter (c : Char) : Bool := c.isAlpha

/-- The underscore counts as a digit. -/
def isDigit (c : Char) : Bool := c.isDigit || c == '_'

/-- Blanks are spaces and tabs. -/
def isBlank (c : Char) : Bool := c == ' ' || c == '\t'

lemma isLetter_iff {c : Char} : isLetter c = true ↔
    (65 ≤ c.toNat ∧ c.toNat ≤ 90) ∨ (97 ≤ c.toNat ∧ c.toNat ≤ 122) := by
  have hupper : c.isUpper = decide (c.val ≥ 'A'.val ∧ c.val ≤ 'Z'.val) := rfl
  have hlower : c.isLower = (decide (c.val ≥ 'a'.val) && decide (c.val ≤ 'z'.val)) := rfl
  show (c.isUpper || c.isLower) = true ↔ _
  simp only [hupper, hlower, Bool.or_eq_true, Bool.and_eq_true, decide_eq_true_eq, ge_iff_le,
    UInt32.le_iff_toNat_le]
  rfl

lemma isDigit_iff {c : Char} :
    isDigit c = true ↔ (48 ≤ c.toNat ∧ c.toNat ≤ 57) ∨ c.toNat = 95 := by
  have hline : c = '_' ↔ c.toNat = 95 := Char.toNat_inj.symm
  rw [isDigit, Bool.or_eq_true, Char.isDigit_iff_toNat, beq_iff_eq, hline]
  rfl

lemma isLetter_eq_false_of_isDigit {c : Char} (h : isDigit c = true) : isLetter c = false := by
  rw [isDigit_iff] at h
  rw [← Bool.not_eq_true, isLetter_iff]
  omega

namespace CharClass

/-- The characters of a class; a character that is in none of the others is a glyph. -/
def Holds : CharClass → Char → Prop
  | whitespace, c => isBlank c = true
  | letter, c => isLetter c = true
  | digit, c => isDigit c = true
  | dot, c => c = '.'
  | colon, c => c = ':'
  | quote, c => c = '\x22'
  | lineBreak, c => c = '\n'
  | other, c => isBlank c = false ∧ isLetter c = false ∧ isDigit c = false ∧
      c ≠ '.' ∧ c ≠ ':' ∧ c ≠ '\x22' ∧ c ≠ '\n'

lemma holds_ofChar (c : Char) : (ofChar c).Holds c := by
  unfold ofChar
  split
  · simp_all [Holds, isBlank]
  · repeat' split
    all_goals simp_all [Holds, isBlank, isLetter, isDigit]

/-- The class of a character is the one that it is a character of. -/
lemma ofChar_eq_iff {c : Char} {k : CharClass} : ofChar c = k ↔ k.Holds c := by
  constructor
  · rintro rfl
    exact holds_ofChar c
  · intro h
    cases k with
    | whitespace =>
      have hb : c = ' ' ∨ c = '\t' := by simpa [Holds, isBlank] using h
      rw [ofChar, if_pos hb]
    | letter =>
      have hb : ¬ (c = ' ' ∨ c = '\t') := by
        rintro (rfl | rfl) <;> cases h
      have hl : c.isAlpha = true := h
      rw [ofChar, if_neg hb, if_pos hl]
    | digit =>
      have hb : ¬ (c = ' ' ∨ c = '\t') := by
        rintro (rfl | rfl) <;> cases h
      have hl : ¬ c.isAlpha = true := Bool.not_eq_true _ ▸ isLetter_eq_false_of_isDigit h
      have hd : c.isDigit = true ∨ c = '_' := by simpa [Holds, isDigit] using h
      rw [ofChar, if_neg hb, if_neg hl, if_pos hd]
    | dot | colon | quote | lineBreak =>
      obtain rfl : c = _ := h
      rfl
    | other =>
      have hc := holds_ofChar c
      cases hk : ofChar c <;> simp_all [Holds]

end CharClass

/-- A character that stands for a verb by itself; dots and colons are among them. -/
def isGlyph (c : Char) : Bool :=
  !(isLetter c || isDigit c || isBlank c || c == '\x22' || c == '\n')

/-- The dot and the colon make other verbs out of what stands before them. -/
def isInflection (c : Char) : Bool := c == '.' || c == ':'

/-- What goes on with a name or a numeral, or makes a verb out of it. -/
def isWordChar (c : Char) : Bool := isLetter c || isDigit c || isInflection c

lemma isInflection_iff {c : Char} :
    isInflection c = true ↔ CharClass.ofChar c = .dot ∨ CharClass.ofChar c = .colon := by
  simp only [isInflection, Bool.or_eq_true, beq_iff_eq, CharClass.ofChar_eq_iff, CharClass.Holds]

lemma isWordChar_iff {c : Char} :
    isWordChar c = true ↔ CharClass.ofChar c = .letter ∨ CharClass.ofChar c = .digit ∨
      CharClass.ofChar c = .dot ∨ CharClass.ofChar c = .colon := by
  simp only [isWordChar, Bool.or_eq_true, isInflection_iff, or_assoc]
  simp only [CharClass.ofChar_eq_iff, CharClass.Holds]

lemma isGlyph_iff {c : Char} :
    isGlyph c = true ↔ CharClass.ofChar c = .other ∨ isInflection c = true := by
  have hclass : isGlyph c = false ↔ CharClass.ofChar c = .letter ∨ CharClass.ofChar c = .digit ∨
      CharClass.ofChar c = .whitespace ∨ CharClass.ofChar c = .quote ∨
      CharClass.ofChar c = .lineBreak := by
    simp only [isGlyph, Bool.not_eq_false', Bool.or_eq_true, beq_iff_eq, or_assoc,
      CharClass.ofChar_eq_iff, CharClass.Holds]
  rw [← Bool.not_eq_false, hclass, isInflection_iff]
  cases CharClass.ofChar c <;> decide

/-! ### Spellings -/

/-- A letter, and then letters and digits. -/
def IsName (s : List Char) : Prop :=
  ∃ c r, s = c :: r ∧ isLetter c = true ∧ ∀ d ∈ r, (isLetter d || isDigit d) = true

/-- A digit, and then letters, digits and dots. -/
def IsNumeral (s : List Char) : Prop :=
  ∃ c r, s = c :: r ∧ isDigit c = true ∧ ∀ d ∈ r, (isLetter d || isDigit d || d == '.') = true

/-- A glyph, an inflected name, or a numeral with a colon, and then dots and colons. -/
inductive IsOperator : List Char → Prop
  | glyph {c r} : isGlyph c = true → (∀ d ∈ r, isInflection d = true) → IsOperator (c :: r)
  | name {s r} : IsName s → r ≠ [] → (∀ d ∈ r, isInflection d = true) → IsOperator (s ++ r)
  | numeral {s r} : IsNumeral s → (∀ d ∈ r, isInflection d = true) → IsOperator (s ++ ':' :: r)

/-- A quote, and then other characters and doubled quotes. -/
def IsOpenQuotation (s : List Char) : Prop := ∃ inside, s = '\x22' :: doubleQuotes inside

/-- An open quotation and the quote that closes it. -/
def IsQuotation (s : List Char) : Prop := ∃ t, IsOpenQuotation t ∧ s = t ++ ['\x22']

/-- The texts of numerals, one after the other with blanks between them. -/
inductive JoinedByBlanks : List String → List Char → Prop
  | one (p : String) : JoinedByBlanks [p] p.toList
  | more {ps s gap} (p : String) : JoinedByBlanks ps s → gap ≠ [] →
      (∀ c ∈ gap, isBlank c = true) → JoinedByBlanks (ps ++ [p]) (s ++ gap ++ p.toList)

/-! No word is empty. -/

lemma IsName.ne_nil {s : List Char} (h : IsName s) : s ≠ [] := by
  obtain ⟨c, r, rfl, -⟩ := h
  exact List.cons_ne_nil c r

lemma IsNumeral.ne_nil {s : List Char} (h : IsNumeral s) : s ≠ [] := by
  obtain ⟨c, r, rfl, -⟩ := h
  exact List.cons_ne_nil c r

lemma IsOperator.ne_nil {s : List Char} (h : IsOperator s) : s ≠ [] := by
  cases h with
  | glyph => exact List.cons_ne_nil _ _
  | name hs => exact List.append_ne_nil_of_left_ne_nil hs.ne_nil _
  | numeral hs => exact List.append_ne_nil_of_left_ne_nil hs.ne_nil _

lemma IsOpenQuotation.ne_nil {s : List Char} (h : IsOpenQuotation s) : s ≠ [] := by
  obtain ⟨inside, rfl⟩ := h
  exact List.cons_ne_nil _ _

lemma IsQuotation.ne_nil {s : List Char} (h : IsQuotation s) : s ≠ [] := by
  obtain ⟨t, ht, rfl⟩ := h
  exact List.append_ne_nil_of_left_ne_nil ht.ne_nil _

/-! What is in a numeral. -/

lemma IsNumeral.of_mem {s : List Char} {c : Char} (h : IsNumeral s) (hc : c ∈ s) :
    (isLetter c || isDigit c || c == '.') = true := by
  obtain ⟨d, r, rfl, hd, hr⟩ := h
  rcases List.mem_cons.mp hc with rfl | hc
  · rw [hd, Bool.or_true, Bool.true_or]
  · exact hr c hc

lemma IsNumeral.not_mem_space {s : List Char} (h : IsNumeral s) : ' ' ∉ s := fun hmem =>
  absurd (h.of_mem hmem) (by decide)

lemma IsNumeral.not_mem_newline {s : List Char} (h : IsNumeral s) : '\n' ∉ s := fun hmem =>
  absurd (h.of_mem hmem) (by decide)

/-! One character more. -/

lemma IsName.snoc {s : List Char} {c : Char} (h : IsName s)
    (hc : (isLetter c || isDigit c) = true) : IsName (s ++ [c]) := by
  obtain ⟨d, r, rfl, hd, hr⟩ := h
  refine ⟨d, r ++ [c], rfl, hd, ?_⟩
  intro e he
  rcases List.mem_append.mp he with he | he
  · exact hr e he
  · rw [List.mem_singleton.mp he]
    exact hc

lemma IsNumeral.snoc {s : List Char} {c : Char} (h : IsNumeral s)
    (hc : (isLetter c || isDigit c || c == '.') = true) : IsNumeral (s ++ [c]) := by
  obtain ⟨d, r, rfl, hd, hr⟩ := h
  refine ⟨d, r ++ [c], rfl, hd, ?_⟩
  intro e he
  rcases List.mem_append.mp he with he | he
  · exact hr e he
  · rw [List.mem_singleton.mp he]
    exact hc

lemma IsOperator.snoc {s : List Char} {c : Char} (h : IsOperator s)
    (hc : isInflection c = true) : IsOperator (s ++ [c]) := by
  have hmore : ∀ {r : List Char}, (∀ d ∈ r, isInflection d = true) →
      ∀ d ∈ r ++ [c], isInflection d = true := by
    intro r hr d hd
    rcases List.mem_append.mp hd with hd | hd
    · exact hr d hd
    · rw [List.mem_singleton.mp hd]
      exact hc
  cases h with
  | glyph hg hr => exact .glyph hg (hmore hr)
  | @name s r hs _ hr =>
    rw [List.append_assoc]
    exact .name hs (by simp) (hmore hr)
  | @numeral s r hs hr =>
    rw [List.append_assoc, List.cons_append]
    exact .numeral hs (hmore hr)

lemma IsOpenQuotation.snoc {s : List Char} {c : Char} (h : IsOpenQuotation s)
    (hc : c ≠ '\x22') : IsOpenQuotation (s ++ [c]) := by
  obtain ⟨inside, rfl⟩ := h
  exact ⟨inside ++ [c], by simp [doubleQuotes, hc]⟩

/-- A quotation that a quote follows is open: the two quotes stand for one. -/
lemma IsQuotation.snoc {s : List Char} (h : IsQuotation s) : IsOpenQuotation (s ++ ['\x22']) := by
  obtain ⟨t, ⟨inside, rfl⟩, rfl⟩ := h
  exact ⟨inside ++ ['\x22'], by simp [doubleQuotes]⟩

end ArrayCalc.Lexer
