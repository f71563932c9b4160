import ArrayCalc.Lexer.Scan
import ArrayCalc.Proofs.Lexer.Spelling
/-!
The built-in table as a reader of spans.

The table has one entry for each state and each class, but it knows only three moves: a character
goes on with the open span; it ends the span and opens another; or it is a blank, which ends the
span and opens none.  The end of the source is like a line end, except inside of quotes.

* `CharClass.opens`, `State.continues`: which span a character opens, and what becomes of the open
  span when a character goes on with it;
* `Machine.close`, `Machine.next`, `Machine.read`: the words once the open span has ended, the
  machine after a character and after a list of them;
* `step_some`, `step_none`, `step_none_quoted`: **the table makes these moves and no others**;
* `tokenize_eq`: the words of a source by reading it; the only failure is an open quote;
* `state_read_eq_quoted`: a quote is open exactly after an odd number of quotes.
-/

namespace ArrayCalc.Lexer

/-! ### The moves of the table -/

/-- The state of a span that opens with a character of this class; blanks open none. -/
def CharClass.opens : CharClass → State
  | .other | .dot | .colon => .other
  | .whitespace => .whitespace
  | .letter => .alphanumeric
  | .digit => .numeric
  | .quote => .quoted
  | .lineBreak => .lineBreak

/-- The state of the open span after a character of this class that goes on with it. -/
def State.continues : State → CharClass → Option State
  | .other, .dot | .other, .colon => some .other
  | .alphanumeric, .letter | .alphanumeric, .digit => some .alphanumeric
  | .alphanumeric, .dot | .alphanumeric, .colon => some .other
  | .numeric, .letter | .numeric, .digit | .numeric, .dot => some .numeric
  | .numeric, .colon => some .other
  | .quoted, .quote => some .doubleQuoted
  | .quoted, _ => some .quoted
  | .doubleQuoted, .quote => some .quoted
  | _, _ => none

/-- Outside of words there is nothing to go on with. -/
lemma State.continues_of_tokenKind_eq_none {s : State} (h : s.tokenKind = none) (c : CharClass) :
    s.continues c = none := by
  cases s with
  | initial | whitespace => rfl
  | _ => cases h

/-- Inside of quotes every character goes on. -/
lemma State.ne_quoted_of_continues_eq_none {s : State} {c : CharClass}
    (h : s.continues c = none) : s ≠ .quoted := by
  rintro rfl
  cases c <;> cases h

/-- Words with one more numeral: the last of them grows if it is a list of numerals. -/
def addNumeral (source : List Char) (start stop : Nat) : List Token → List Token
  | [] => [wordAt source start stop .number]
  | last :: words =>
    if last.kind = .number then last.extend source start stop :: words
    else wordAt source start stop .number :: last :: words

namespace Machine

/-- The words once the open span, if there is one, has ended. -/
def close (m : Machine) (source : List Char) (stop : Nat) : List Token :=
  match m.state.tokenKind with
  | none => m.words
  | some .number => addNumeral source m.start stop m.words
  | some kind => wordAt source m.start stop kind :: m.words

/-- The machine after a character of this class. -/
def next (m : Machine) (source : List Char) (place : Nat) (c : CharClass) : Machine :=
  match m.state.continues c with
  | some s => { m with state := s }
  | none => ⟨c.opens, if c = .whitespace then m.start else place, m.close source place⟩

/-- The machine after characters that start at a place. -/
def read (source : List Char) : Nat → List Char → Machine → Machine
  | _, [], m => m
  | i, c :: rest, m => read source (i + 1) rest (m.next source i (.ofChar c))

end Machine

/-- Ending a numeral is appending it. -/
lemma append_numeric (source : List Char) (start stop : Nat) (words : List Token) :
    (⟨.numeric, start, words⟩ : Machine).append source stop =
      .ok (addNumeral source start stop words) := by
  cases words with
  | nil => rfl
  | cons last words =>
    by_cases h : last.kind = .number
    · simp only [Machine.append, addNumeral, h, and_self, if_true]
    · simp only [Machine.append, addNumeral, h, and_false, if_false]
      rfl

/-- The table goes on with the open span, or ends it and opens the one that the character opens. -/
theorem step_some (source : List Char) (place : Nat) (c : CharClass) (m : Machine) :
    Table.standard.step source place (some c) m = .ok (m.next source place c) := by
  obtain ⟨s, start, words⟩ := m
  have hadd := append_numeric source start place words
  cases s with
  | numeric =>
    cases c with
    | letter | digit | dot | colon => rfl
    | other | quote | lineBreak | whitespace =>
      simp only [Table.step, Table.standard_apply, transition, hadd]
      rfl
  | _ => cases c <;> rfl

/-- The end of the source ends the open span like a line end, unless a quote is open. -/
theorem step_none (source : List Char) (place : Nat) {m : Machine} (h : m.state ≠ .quoted) :
    Table.standard.step source place none m =
      .ok ⟨.lineBreak, place, m.close source place⟩ := by
  have hlike : transition m.state none = transition m.state (some .lineBreak) ∧
      m.state.continues .lineBreak = none := by
    cases hs : m.state with
    | quoted => exact absurd hs h
    | _ => exact ⟨rfl, rfl⟩
  obtain ⟨ht, hends⟩ := hlike
  calc Table.standard.step source place none m
      = Table.standard.step source place (some .lineBreak) m := by
        rw [Table.step, Table.step, Table.standard_apply, Table.standard_apply, ht]
    _ = .ok (m.next source place .lineBreak) := step_some source place .lineBreak m
    _ = .ok ⟨.lineBreak, place, m.close source place⟩ := by
        rw [Machine.next, hends]
        rfl

theorem step_none_quoted (source : List Char) (place : Nat) {m : Machine}
    (h : m.state = .quoted) :
    Table.standard.step source place none m = .error (.unterminated m.start place) := by
  rw [Table.step, h]
  rfl

/-! ### Reading a source -/

/-- Running the table reads the characters and then ends the span still open. -/
lemma run_standard (source : List Char) (i : Nat) (rest : List Char) (m : Machine) :
    Table.standard.run source i rest m =
      Table.standard.step source (i + rest.length) none (m.read source i rest) := by
  induction rest generalizing i m with
  | nil => rfl
  | cons c rest ih =>
    have hplace : i + 1 + rest.length = i + (c :: rest).length := by
      rw [List.length_cons]
      omega
    rw [Table.run, step_some, Machine.read, ← hplace, ← ih]
    rfl

/-- **The words of a source**: those that reading it makes, the one still open, and an empty line
end; unless a quote is open, which is reported with its place. -/
theorem tokenize_eq (source : String) :
    tokenize source =
      let s := source.toList
      let m := Machine.read s 0 s .initial
      if m.state = .quoted then .error (.unterminated m.start s.length)
      else .ok (wordAt s s.length s.length .eol :: m.close s s.length).reverse := by
  rw [tokenize, Table.scan, run_standard, Nat.zero_add]
  by_cases h : (Machine.read source.toList 0 source.toList .initial).state = .quoted
  · rw [step_none_quoted _ _ h]
    simp only [h, if_true]
    rfl
  · rw [step_none _ _ h]
    simp only [h, if_false]
    rfl

/-! ### Open quotes -/

/-- The state after a character of this class. -/
def State.after (s : State) (c : CharClass) : State := (s.continues c).getD c.opens

lemma state_next (m : Machine) (source : List Char) (place : Nat) (c : CharClass) :
    (m.next source place c).state = m.state.after c := by
  rw [Machine.next, State.after]
  cases m.state.continues c <;> rfl

/-- A quote opens or closes a quotation, and nothing else does. -/
lemma State.after_eq_quoted (s : State) (c : CharClass) :
    s.after c = .quoted ↔ ((s = .quoted) ↔ c ≠ .quote) := by
  cases s <;> cases c <;> decide

/-- Inside of a quotation and after an odd number of quotes: one of the two decides the other. -/
lemma state_read_eq_quoted (source : List Char) (i : Nat) (rest : List Char) (m : Machine) :
    (m.read source i rest).state = .quoted ↔
      (m.state = .quoted ↔ rest.count '\x22' % 2 = 0) := by
  induction rest generalizing i m with
  | nil => simp [Machine.read]
  | cons c rest ih =>
    have hquote : CharClass.ofChar c = .quote ↔ c = '\x22' := CharClass.ofChar_eq_iff
    rw [Machine.read, ih, state_next, State.after_eq_quoted, List.count_cons, Ne, hquote]
    by_cases hc : c = '\x22' <;> by_cases hm : m.state = .quoted <;> simp [hc, hm] <;> omega

/-! ### What an open span spells -/

/-- The texts of the spans that are open in a state. -/
def State.Spells : State → List Char → Prop
  | .initial, _ | .whitespace, _ => False
  | .other, text => IsOperator text
  | .alphanumeric, text => IsName text
  | .numeric, text => IsNumeral text
  | .quoted, text => IsOpenQuotation text
  | .doubleQuoted, text => IsQuotation text
  | .lineBreak, text => text = ['\n']

lemma State.Spells.ne_nil {s : State} {text : List Char} (h : s.Spells text) : text ≠ [] := by
  cases s with
  | initial | whitespace => exact h.elim
  | other => exact IsOperator.ne_nil h
  | alphanumeric => exact IsName.ne_nil h
  | numeric => exact IsNumeral.ne_nil h
  | quoted => exact IsOpenQuotation.ne_nil h
  | doubleQuoted => exact IsQuotation.ne_nil h
  | lineBreak =>
    rintro rfl
    cases h

lemma State.spells_opens {c : Char} (h : CharClass.ofChar c ≠ .whitespace) :
    (CharClass.ofChar c).opens.Spells [c] := by
  have hglyph : isGlyph c = true → IsOperator [c] := fun hc => .glyph hc (List.forall_mem_nil _)
  cases hk : CharClass.ofChar c with
  | whitespace => exact absurd hk h
  | other => exact hglyph (isGlyph_iff.mpr (.inl hk))
  | dot => exact hglyph (isGlyph_iff.mpr (.inr (isInflection_iff.mpr (.inl hk))))
  | colon => exact hglyph (isGlyph_iff.mpr (.inr (isInflection_iff.mpr (.inr hk))))
  | letter => exact ⟨c, [], rfl, CharClass.ofChar_eq_iff.mp hk, List.forall_mem_nil _⟩
  | digit => exact ⟨c, [], rfl, CharClass.ofChar_eq_iff.mp hk, List.forall_mem_nil _⟩
  | quote => exact ⟨[], congrArg (· :: []) (CharClass.ofChar_eq_iff.mp hk)⟩
  | lineBreak => exact congrArg (· :: []) (CharClass.ofChar_eq_iff.mp hk)

/-- A span that a character goes on with spells what its new state says. -/
lemma State.Spells.snoc {s s' : State} {text : List Char} {c : Char} (h : s.Spells text)
    (hs : s.continues (.ofChar c) = some s') : s'.Spells (text ++ [c]) := by
  have hinf : ∀ {k}, CharClass.ofChar c = k → k = .dot ∨ k = .colon → isInflection c = true := by
    rintro k hk (rfl | rfl)
    · exact isInflection_iff.mpr (.inl hk)
    · exact isInflection_iff.mpr (.inr hk)
  have hholds : ∀ {k}, CharClass.ofChar c = k → k.Holds c := CharClass.ofChar_eq_iff.mp
  generalize hk : CharClass.ofChar c = k at hs
  cases s with
  | initial | whitespace | lineBreak => cases hs
  | other =>
    cases k with
    | dot | colon =>
      cases hs
      exact IsOperator.snoc h (hinf hk (by decide))
    | _ => cases hs
  | alphanumeric =>
    cases k with
    | letter =>
      cases hs
      exact IsName.snoc h (by rw [show isLetter c = true from hholds hk, Bool.true_or])
    | digit =>
      cases hs
      exact IsName.snoc h (by rw [show isDigit c = true from hholds hk, Bool.or_true])
    | dot | colon =>
      cases hs
      refine .name h (List.cons_ne_nil _ _) ?_
      intro d hd
      rw [List.mem_singleton.mp hd]
      exact hinf hk (by decide)
    | _ => cases hs
  | numeric =>
    cases k with
    | letter | digit | dot =>
      cases hs
      have hc := hholds hk
      refine IsNumeral.snoc h ?_
      simp_all [CharClass.Holds]
    | colon =>
      cases hs
      obtain rfl : c = ':' := hholds hk
      exact .numeral h (List.forall_mem_nil _)
    | _ => cases hs
  | quoted =>
    by_cases hc : k = .quote
    · subst hc
      cases hs
      obtain rfl : c = '\x22' := hholds hk
      exact ⟨text, h, rfl⟩
    · have hne : c ≠ '\x22' := fun heq => hc (hk ▸ CharClass.ofChar_eq_iff.mpr heq)
      obtain rfl : s' = .quoted := by
        cases k with
        | quote => exact absurd rfl hc
        | _ => cases hs; rfl
      exact IsOpenQuotation.snoc h hne
  | doubleQuoted =>
    cases k with
    | quote =>
      cases hs
      obtain rfl : c = '\x22' := hholds hk
      exact IsQuotation.snoc h
    | _ => cases hs

end ArrayCalc.Lexer
