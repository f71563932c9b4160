import ArrayCalc.Proofs.Lexer.Reading
/-!
Words and blanks, read one after the other.

* `State.along`: the state of the open span after characters that all go on with it;
* `State.ReachedBy`: the state in which a text ends that is read as one span, and
  **`State.Spells.reachedBy`: a text that a state spells is such a text**, by way of the spellings
  of names, numerals, operators and quotations;
* `Machine.read_append`, `Machine.read_word`: so, read outside of words, it is one open span;
* `AreBlanks`, `Machine.read_blanks`, `Machine.read_gap`, `Machine.close_read_blanks`: blanks end
  the open span and do nothing else.
-/

namespace ArrayCalc.Lexer

namespace State

/-! ### Texts that are one span -/

/-- The state of the open span after characters, if all of them go on with it. -/
def along : State → List Char → Option State
  | s, [] => some s
  | s, c :: r => (s.continues (.ofChar c)).bind fun s' => s'.along r

lemma along_cons {s s' : State} {c : Char} (h : s.continues (.ofChar c) = some s')
    (r : List Char) : s.along (c :: r) = s'.along r := by
  rw [along, h, Option.bind_some]

lemma along_append (s : State) (r t : List Char) :
    s.along (r ++ t) = (s.along r).bind fun s' => s'.along t := by
  induction r generalizing s with
  | nil => rfl
  | cons c r ih =>
    rw [List.cons_append, along, along]
    cases s.continues (.ofChar c) with
    | none => rfl
    | some s' => exact ih s'

/-- Characters that leave the state as it is. -/
lemma along_of_forall {s : State} {r : List Char}
    (h : ∀ c ∈ r, s.continues (.ofChar c) = some s) : s.along r = some s := by
  induction r with
  | nil => rfl
  | cons c r ih =>
    obtain ⟨hc, hr⟩ := List.forall_mem_cons.mp h
    rw [along_cons hc, ih hr]

/-- The text, read as one span from its first character on, ends in the state. -/
def ReachedBy (s : State) (w : List Char) : Prop :=
  ∃ c r, w = c :: r ∧ CharClass.ofChar c ≠ .whitespace ∧ (CharClass.ofChar c).opens.along r = some s

lemma ReachedBy.append {s s' : State} {w t : List Char} (h : s.ReachedBy w)
    (ht : s.along t = some s') : s'.ReachedBy (w ++ t) := by
  obtain ⟨c, r, rfl, hc, hr⟩ := h
  refine ⟨c, r ++ t, rfl, hc, ?_⟩
  rw [along_append, hr, Option.bind_some, ht]

lemma reachedBy_of_class {k : CharClass} {c : Char} (hc : CharClass.ofChar c = k)
    (hk : k ≠ .whitespace) {r : List Char} {s : State} (hr : k.opens.along r = some s) :
    s.ReachedBy (c :: r) := ⟨c, r, rfl, hc ▸ hk, hc ▸ hr⟩

/-! ### The spellings of words -/

lemma continues_inflection {c : Char} (h : isInflection c = true) :
    other.continues (.ofChar c) = some .other ∧
      alphanumeric.continues (.ofChar c) = some .other := by
  rcases isInflection_iff.mp h with hc | hc <;> rw [hc] <;> exact ⟨rfl, rfl⟩

lemma along_inflections {r : List Char} (h : ∀ c ∈ r, isInflection c = true) :
    other.along r = some .other :=
  along_of_forall fun c hc => (continues_inflection (h c hc)).1

lemma reachedBy_of_isName {w : List Char} (h : IsName w) : alphanumeric.ReachedBy w := by
  obtain ⟨c, r, rfl, hc, hr⟩ := h
  refine reachedBy_of_class (k := .letter) (CharClass.ofChar_eq_iff.mpr hc) (by decide) ?_
  refine along_of_forall fun d hd => ?_
  have hclass : CharClass.ofChar d = .letter ∨ CharClass.ofChar d = .digit := by
    simpa only [Bool.or_eq_true, CharClass.ofChar_eq_iff, CharClass.Holds] using hr d hd
  rcases hclass with h | h <;> rw [h] <;> rfl

lemma reachedBy_of_isNumeral {w : List Char} (h : IsNumeral w) : numeric.ReachedBy w := by
  obtain ⟨c, r, rfl, hc, hr⟩ := h
  refine reachedBy_of_class (k := .digit) (CharClass.ofChar_eq_iff.mpr hc) (by decide) ?_
  refine along_of_forall fun d hd => ?_
  have hclass : CharClass.ofChar d = .letter ∨ CharClass.ofChar d = .digit ∨
      CharClass.ofChar d = .dot := by
    simpa only [Bool.or_eq_true, beq_iff_eq, or_assoc, CharClass.ofChar_eq_iff,
      CharClass.Holds] using hr d hd
  rcases hclass with h | h | h <;> rw [h] <;> rfl

lemma reachedBy_of_isOperator {w : List Char} (h : IsOperator w) : other.ReachedBy w := by
  cases h with
  | @glyph c r hc hr =>
    rw [isGlyph_iff, isInflection_iff] at hc
    rcases hc with hc | hc | hc <;>
      exact reachedBy_of_class hc (by decide) (along_inflections hr)
  | @name s r hs hne hr =>
    obtain ⟨d, t, rfl⟩ := List.exists_cons_of_ne_nil hne
    obtain ⟨hd, ht⟩ := List.forall_mem_cons.mp hr
    refine (reachedBy_of_isName hs).append ?_
    rw [along_cons (continues_inflection hd).2, along_inflections ht]
  | @numeral s r hs hr =>
    refine (reachedBy_of_isNumeral hs).append ?_
    have hcolon : numeric.continues (.ofChar ':') = some .other := rfl
    rw [along_cons hcolon, along_inflections hr]

/-- Inside of quotes everything goes on; a doubled quote closes the quotation and opens it again. -/
lemma along_doubleQuotes (inside : List Char) :
    quoted.along (doubleQuotes inside) = some .quoted := by
  induction inside with
  | nil => rfl
  | cons c inside ih =>
    rw [doubleQuotes, List.flatMap_cons, along_append]
    by_cases hc : c = '\x22'
    · rw [hc]
      exact ih
    · have hclass : CharClass.ofChar c ≠ .quote := fun hq => hc (CharClass.ofChar_eq_iff.mp hq)
      have hgoes : quoted.continues (.ofChar c) = some .quoted := by
        cases hk : CharClass.ofChar c with
        | quote => exact absurd hk hclass
        | _ => rfl
      rw [if_neg hc, along_cons hgoes]
      exact ih

lemma reachedBy_of_isOpenQuotation {w : List Char} (h : IsOpenQuotation w) :
    quoted.ReachedBy w := by
  obtain ⟨inside, rfl⟩ := h
  exact reachedBy_of_class (k := .quote) rfl (by decide) (along_doubleQuotes inside)

/-- **What a state spells is read as one span that ends in this state.** -/
theorem Spells.reachedBy {s : State} {w : List Char} (h : s.Spells w) : s.ReachedBy w := by
  cases s with
  | initial | whitespace => exact h.elim
  | other => exact reachedBy_of_isOperator h
  | alphanumeric => exact reachedBy_of_isName h
  | numeric => exact reachedBy_of_isNumeral h
  | quoted => exact reachedBy_of_isOpenQuotation h
  | doubleQuoted =>
    obtain ⟨t, ht, rfl⟩ := h
    exact (reachedBy_of_isOpenQuotation ht).append rfl
  | lineBreak =>
    obtain rfl : w = ['\n'] := h
    exact reachedBy_of_class (k := .lineBreak) rfl (by decide) rfl

/-- Outside of words no quote is open. -/
lemma ne_quoted_of_tokenKind_eq_none {s : State} (h : s.tokenKind = none) : s ≠ .quoted := by
  rintro rfl
  cases h

/-- Outside of quotes a blank ends the open span. -/
lemma continues_whitespace {s : State} (h : s ≠ .quoted) : s.continues .whitespace = none := by
  cases s with
  | quoted => exact absurd rfl h
  | _ => rfl

end State

/-! ### Reading words and blanks -/

/-- Blanks and nothing else. -/
def AreBlanks (gap : List Char) : Prop := ∀ c ∈ gap, isBlank c = true

namespace Machine

variable {source : List Char}

lemma read_append (i : Nat) (s t : List Char) (m : Machine) :
    m.read source i (s ++ t) = (m.read source i s).read source (i + s.length) t := by
  induction s generalizing i m with
  | nil => rfl
  | cons c s ih =>
    rw [List.cons_append, read, ih, read, List.length_cons]
    congr 1
    omega

/-- Characters that go on with the open span change its state and nothing else. -/
lemma read_along {s s' : State} {r : List Char} (h : s.along r = some s') (i start : Nat)
    (words : List Token) :
    (⟨s, start, words⟩ : Machine).read source i r = ⟨s', start, words⟩ := by
  induction r generalizing i s with
  | nil =>
    cases h
    rfl
  | cons c r ih =>
    obtain ⟨t, ht, hrest⟩ := Option.bind_eq_some_iff.mp h
    have hnext : (⟨s, start, words⟩ : Machine).next source i (.ofChar c) = ⟨t, start, words⟩ := by
      rw [next, ht]
    rw [read, hnext]
    exact ih hrest (i + 1)

/-- Outside of words, a text that a state spells is one open span. -/
lemma read_word {s : State} {w : List Char} (hw : s.Spells w) {m : Machine}
    (hm : m.state.tokenKind = none) (i : Nat) : m.read source i w = ⟨s, i, m.words⟩ := by
  obtain ⟨c, r, rfl, hc, hr⟩ := hw.reachedBy
  have hnext : m.next source i (.ofChar c) = ⟨(CharClass.ofChar c).opens, i, m.words⟩ := by
    rw [next, State.continues_of_tokenKind_eq_none hm, close, hm]
    simp only [hc, if_false]
  rw [read, hnext, read_along hr]

/-- A blank ends the open span. -/
lemma next_blank {m : Machine} (hm : m.state ≠ .quoted) (i : Nat) {c : Char}
    (hc : isBlank c = true) :
    m.next source i (.ofChar c) = ⟨.whitespace, m.start, m.close source i⟩ := by
  have hclass : CharClass.ofChar c = .whitespace := CharClass.ofChar_eq_iff.mpr hc
  rw [next, hclass, State.continues_whitespace hm]
  rfl

/-- Outside of words blanks change nothing. -/
lemma read_blanks {gap : List Char} (hgap : AreBlanks gap) {m : Machine}
    (hm : m.state.tokenKind = none) (i : Nat) :
    (m.read source i gap).state.tokenKind = none ∧ (m.read source i gap).words = m.words := by
  induction gap generalizing i m with
  | nil => exact ⟨hm, rfl⟩
  | cons c gap ih =>
    obtain ⟨hc, hrest⟩ := List.forall_mem_cons.mp hgap
    have hq := State.ne_quoted_of_tokenKind_eq_none hm
    have hclose : m.close source i = m.words := by rw [close, hm]
    rw [read, next_blank hq i hc, hclose]
    exact ih hrest (m := ⟨.whitespace, m.start, m.words⟩) rfl (i + 1)

/-- Blanks end the open span, and nothing else happens. -/
lemma read_gap {gap : List Char} (hne : gap ≠ []) (hgap : AreBlanks gap) {m : Machine}
    (hm : m.state ≠ .quoted) (i : Nat) :
    (m.read source i gap).state.tokenKind = none ∧
      (m.read source i gap).words = m.close source i := by
  obtain ⟨c, rest, rfl⟩ := List.exists_cons_of_ne_nil hne
  obtain ⟨hc, hrest⟩ := List.forall_mem_cons.mp hgap
  rw [read, next_blank hm i hc]
  exact read_blanks (m := ⟨.whitespace, m.start, m.close source i⟩) hrest rfl (i + 1)

/-- With or without blanks at the end, the words are the same once the open span has ended. -/
lemma close_read_blanks {gap : List Char} (hgap : AreBlanks gap) {m : Machine}
    (hm : m.state ≠ .quoted) (i : Nat) :
    (m.read source i gap).state ≠ .quoted ∧
      (m.read source i gap).close source (i + gap.length) = m.close source i := by
  by_cases hne : gap = []
  · subst hne
    exact ⟨hm, rfl⟩
  · obtain ⟨hstate, hwords⟩ := @read_gap source gap hne hgap m hm i
    refine ⟨State.ne_quoted_of_tokenKind_eq_none hstate, ?_⟩
    rw [close, hstate, hwords]

end Machine

end ArrayCalc.Lexer
