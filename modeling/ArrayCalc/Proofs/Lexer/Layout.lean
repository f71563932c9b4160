import ArrayCalc.Proofs.Lexer.Reading
/-!
Words laid out over a source.

* `slice_append_slice`, `slice_succ`, `mem_slice`: the characters from one place up to another;
* `NumeralList`, `WordAt`: a list of numerals, and a word, between two places.  A word is as long as
  it can be: what follows it in the source does not go on with it;
* `Laid`: words one after the other with blanks between them, which account for a source up to a
  place; `Laid.close`: the span that ends is one more of them; `Laid.ordered`,
  `Laid.isBlank_of_outside`: the order of the words, and the characters in none of them;
* `Machine.Sound`: the invariant of reading, and **`Machine.Sound.next`, `Machine.Sound.read`: it is
  kept by one character, and by all of them**;
* `exists_laid_of_tokenize_ok`, `exists_tokenize_ok`: the words of a source are laid out over it,
  and every source with an even number of quotes has some.
-/

namespace ArrayCalc.Lexer

variable {source : List Char}

/-! ### The characters between two places -/

lemma slice_append_slice {a b c : Nat} (hab : a ≤ b) (hbc : b ≤ c) :
    slice source a b ++ slice source b c = slice source a c := by
  have hb : source.drop b = (source.drop a).drop (b - a) := by
    rw [List.drop_drop]
    congr 1
    omega
  have hc : c - a = (b - a) + (c - b) := by omega
  rw [slice, slice, slice, hb, hc, List.take_add]

/-- The characters between two places, when what stands around them is known. -/
lemma slice_append_append (a b c : List Char) :
    slice (a ++ b ++ c) a.length (a.length + b.length) = b := by
  rw [slice, List.append_assoc, List.drop_left, Nat.add_sub_cancel_left, List.take_left]

lemma slice_one {i : Nat} {c : Char} (h : source[i]? = some c) : slice source i (i + 1) = [c] := by
  obtain ⟨hi, rfl⟩ := List.getElem?_eq_some_iff.mp h
  rw [slice, List.drop_eq_getElem_cons hi, Nat.add_sub_cancel_left]
  rfl

lemma slice_succ {a i : Nat} {c : Char} (ha : a ≤ i) (h : source[i]? = some c) :
    slice source a (i + 1) = slice source a i ++ [c] := by
  rw [← slice_append_slice ha (Nat.le_succ i), slice_one h]

lemma getElem?_slice (a b j : Nat) :
    (slice source a b)[j]? = if j < b - a then source[a + j]? else none := by
  rw [slice, List.getElem?_take, List.getElem?_drop]

lemma lt_of_slice_ne_nil {a b : Nat} (h : slice source a b ≠ []) : a < b := by
  refine Nat.lt_of_not_le fun hle => h ?_
  rw [slice, Nat.sub_eq_zero_of_le hle, List.take_zero]

lemma slice_ne_nil {a b : Nat} (hab : a < b) (hb : b ≤ source.length) :
    slice source a b ≠ [] := by
  rw [slice, List.ne_nil_iff_length_pos, List.length_take, List.length_drop]
  omega

lemma mem_slice {a b : Nat} {c : Char} :
    c ∈ slice source a b ↔ ∃ i, a ≤ i ∧ i < b ∧ source[i]? = some c := by
  rw [List.mem_iff_getElem?]
  constructor
  · rintro ⟨j, hj⟩
    rw [getElem?_slice] at hj
    split at hj
    · exact ⟨a + j, by omega, by omega, hj⟩
    · cases hj
  · rintro ⟨i, hai, hib, hi⟩
    refine ⟨i - a, ?_⟩
    rw [getElem?_slice, if_pos (by omega), Nat.add_sub_cancel' hai, hi]

/-! ### Words between two places -/

/-- The characters between two places are blanks. -/
def Blanks (source : List Char) (start stop : Nat) : Prop :=
  ∀ c ∈ slice source start stop, isBlank c = true

/-- At a place no character of this sort stands: another one does, or the source has ended. -/
def NotFollowedBy (source : List Char) (place : Nat) (p : Char → Bool) : Prop :=
  ∀ c, source[place]? = some c → p c = false

/-- A numeral between two places, which does not go on after them. -/
structure NumeralAt (source : List Char) (start stop : Nat) : Prop where
  spelled : IsNumeral (slice source start stop)
  ends : NotFollowedBy source stop isWordChar

/-- Numerals with blanks between them, from a place on. -/
inductive NumeralList (source : List Char) (start : Nat) : Nat → List String → Prop
  | one {stop} : NumeralAt source start stop →
      NumeralList source start stop [String.ofList (slice source start stop)]
  | more {parts mid next stop} : NumeralList source start mid parts → mid < next →
      Blanks source mid next → NumeralAt source next stop →
      NumeralList source start stop (parts ++ [String.ofList (slice source next stop)])

/-- A word between two places, which does not go on after them. -/
inductive WordAt (source : List Char) (start stop : Nat) : Token → Prop
  | name : IsName (slice source start stop) → NotFollowedBy source stop isWordChar →
      WordAt source start stop (wordAt source start stop .name)
  | numerals {parts} : NumeralList source start stop parts →
      WordAt source start stop
        ⟨.number, String.ofList (slice source start stop), start, stop, parts⟩
  | operator : IsOperator (slice source start stop) → NotFollowedBy source stop isInflection →
      WordAt source start stop (wordAt source start stop .operator)
  | string : IsQuotation (slice source start stop) → NotFollowedBy source stop (· == '\x22') →
      WordAt source start stop (wordAt source start stop .string)
  | lineEnd : slice source start stop = ['\n'] →
      WordAt source start stop (wordAt source start stop .eol)

lemma blanks_self (place : Nat) : Blanks source place place := by
  intro c hc
  obtain ⟨i, hi, hi', -⟩ := mem_slice.mp hc
  omega

lemma Blanks.succ {start i : Nat} {c : Char} (h : Blanks source start i) (hi : start ≤ i)
    (hc : source[i]? = some c) (hb : isBlank c = true) : Blanks source start (i + 1) := by
  intro d hd
  rw [slice_succ hi hc, List.mem_append, List.mem_singleton] at hd
  rcases hd with hd | rfl
  · exact h d hd
  · exact hb

lemma NumeralAt.lt {start stop : Nat} (h : NumeralAt source start stop) : start < stop :=
  lt_of_slice_ne_nil h.spelled.ne_nil

/-- A numeral begins with a digit. -/
lemma NumeralAt.exists_digit {start stop : Nat} (h : NumeralAt source start stop) :
    ∃ c, source[start]? = some c ∧ isDigit c = true := by
  obtain ⟨c, r, hs, hc, -⟩ := h.spelled
  refine ⟨c, ?_, hc⟩
  have hlt := h.lt
  have hhead : (slice source start stop)[0]? = some c := by rw [hs, List.getElem?_cons_zero]
  rwa [getElem?_slice, if_pos (by omega), Nat.add_zero] at hhead

lemma NumeralList.lt {start stop : Nat} {parts : List String}
    (h : NumeralList source start stop parts) : start < stop := by
  induction h with
  | one h => exact h.lt
  | more _ hlt _ h ih =>
    have hnext := h.lt
    omega

lemma NumeralList.ends {start stop : Nat} {parts : List String}
    (h : NumeralList source start stop parts) : NotFollowedBy source stop isWordChar := by
  cases h with
  | one h => exact h.ends
  | more _ _ _ h => exact h.ends

namespace WordAt

variable {start stop : Nat} {t : Token}

lemma lt (h : WordAt source start stop t) : start < stop := by
  cases h with
  | numerals h => exact h.lt
  | name h => exact lt_of_slice_ne_nil h.ne_nil
  | operator h => exact lt_of_slice_ne_nil h.ne_nil
  | string h => exact lt_of_slice_ne_nil h.ne_nil
  | lineEnd h => exact lt_of_slice_ne_nil (h ▸ List.cons_ne_nil _ _)

/-- A word stands where it says. -/
lemma place (h : WordAt source start stop t) : t.pos = start ∧ t.stop = stop := by
  cases h <;> exact ⟨rfl, rfl⟩

lemma toList_text (h : WordAt source start stop t) :
    t.text.toList = slice source t.pos.toNat t.stop.toNat := by
  cases h <;> exact String.toList_ofList

lemma numeralList (h : WordAt source start stop t) (hk : t.kind = .number) :
    NumeralList source t.pos.toNat t.stop.toNat t.parts := by
  cases h with
  | numerals hlist => exact hlist
  | _ => cases hk

end WordAt

@[simp] lemma kind_wordAt (start stop : Nat) (kind : TokenKind) :
    (wordAt source start stop kind).kind = kind := rfl

/-! The end of a span is the end of its word. -/

/-- The span open in a state does not go on with what stands at a place. -/
def State.EndsAt (s : State) (source : List Char) (place : Nat) : Prop :=
  ∀ c, source[place]? = some c → s.continues (.ofChar c) = none

namespace State.EndsAt

variable {place : Nat}

lemma isWordChar_eq_false {s : State} (h : s.EndsAt source place)
    (hs : s = .alphanumeric ∨ s = .numeric) : NotFollowedBy source place isWordChar := by
  intro c hc
  have hnone := h c hc
  rw [← Bool.not_eq_true, isWordChar_iff]
  rintro (hk | hk | hk | hk) <;> rw [hk] at hnone <;> rcases hs with rfl | rfl <;> cases hnone

lemma isInflection_eq_false (h : State.other.EndsAt source place) :
    NotFollowedBy source place isInflection := by
  intro c hc
  have hnone := h c hc
  rw [← Bool.not_eq_true, isInflection_iff]
  rintro (hk | hk) <;> rw [hk] at hnone <;> cases hnone

lemma ne_quote (h : State.doubleQuoted.EndsAt source place) :
    NotFollowedBy source place (· == '\x22') := by
  intro c hc
  rw [beq_eq_false_iff_ne]
  rintro rfl
  cases h _ hc

end State.EndsAt

/-! ### Words that account for a source -/

/-- Words, the last one first, that account for a source up to a place: before the first word,
between two words and after the last one there are only blanks, and of two lists of numerals one
would have been a part of the other. -/
inductive Laid (source : List Char) : Nat → List Token → Prop
  | nil {place} : place ≤ source.length → Blanks source 0 place → Laid source place []
  | cons {start stop place t words} : Laid source start words → WordAt source start stop t →
      stop ≤ place → place ≤ source.length → Blanks source stop place →
      (t.kind = .number → ∀ s ∈ words.head?, s.kind ≠ .number) → Laid source place (t :: words)

namespace Laid

variable {start stop place : Nat} {t : Token} {words : List Token}

lemma blank {c : Char} (h : Laid source place words) (hc : source[place]? = some c)
    (hb : isBlank c = true) : Laid source (place + 1) words := by
  obtain ⟨hlt, -⟩ := List.getElem?_eq_some_iff.mp hc
  cases h with
  | nil _ hbl => exact .nil hlt (hbl.succ (Nat.zero_le _) hc hb)
  | cons hl hw hle _ hbl hap =>
    exact .cons hl hw (Nat.le_succ_of_le hle) hlt (hbl.succ hle hc hb) hap

lemma word (h : Laid source start words) (hw : WordAt source start stop t)
    (hstop : stop ≤ source.length) (hk : t.kind ≠ .number) : Laid source stop (t :: words) :=
  .cons h hw (Nat.le_refl _) hstop (blanks_self _) fun hnum => absurd hnum hk

/-- A numeral joins the list of numerals before it.  There are blanks between the two, because the
list does not go on where it ends. -/
lemma addNumeral (h : Laid source start words) (hn : NumeralAt source start stop)
    (hstop : stop ≤ source.length) : Laid source stop (addNumeral source start stop words) := by
  have hone : WordAt source start stop (wordAt source start stop .number) := .numerals (.one hn)
  cases h with
  | nil hle hbl =>
    refine .cons (.nil hle hbl) hone (Nat.le_refl _) hstop (blanks_self _) ?_
    rintro - s hs
    cases hs
  | @cons first last _ t words hl hw hle hlen hbl hap =>
    rw [Lexer.addNumeral]
    by_cases hk : t.kind = .number
    · rw [if_pos hk]
      cases hw with
      | @numerals parts hlist =>
        have hgap : last < start := by
          refine Nat.lt_of_le_of_ne hle ?_
          rintro rfl
          obtain ⟨c, hplace, hc⟩ := hn.exists_digit
          have hends := hlist.ends c hplace
          rw [isWordChar, hc, Bool.or_true, Bool.true_or] at hends
          cases hends
        exact .cons hl (.numerals (hlist.more hgap hbl hn)) (Nat.le_refl _) hstop
          (blanks_self _) hap
      | _ => cases hk
    · rw [if_neg hk]
      refine .cons (.cons hl hw hle hlen hbl hap) hone (Nat.le_refl _) hstop (blanks_self _) ?_
      rintro - s hs
      cases hs
      exact hk

/-- The span that ends is one more word, unless it is a quotation still open. -/
lemma close {s : State} (h : Laid source start words) (hs : s.Spells (slice source start stop))
    (hq : s ≠ .quoted) (hends : s.EndsAt source stop) (hstop : stop ≤ source.length) :
    Laid source stop (Machine.close ⟨s, start, words⟩ source stop) := by
  cases s with
  | initial | whitespace => exact hs.elim
  | quoted => exact absurd rfl hq
  | alphanumeric =>
    exact h.word (.name hs (hends.isWordChar_eq_false (.inl rfl))) hstop (by simp)
  | numeric => exact h.addNumeral ⟨hs, hends.isWordChar_eq_false (.inr rfl)⟩ hstop
  | other => exact h.word (.operator hs hends.isInflection_eq_false) hstop (by simp)
  | doubleQuoted => exact h.word (.string hs hends.ne_quote) hstop (by simp)
  | lineBreak => exact h.word (.lineEnd hs) hstop (by simp)

/-- Each of the words stands somewhere before the place. -/
lemma exists_wordAt (h : Laid source place words) (ht : t ∈ words) :
    ∃ start stop, WordAt source start stop t ∧ stop ≤ place := by
  induction h with
  | nil => cases ht
  | @cons start stop place s words hl hw hle _ _ _ ih =>
    rcases List.mem_cons.mp ht with rfl | ht
    · exact ⟨start, stop, hw, hle⟩
    · obtain ⟨a, b, hat, hb⟩ := ih ht
      have hlt := hw.lt
      exact ⟨a, b, hat, by omega⟩

/-- The words come in order: here the last one is the first. -/
lemma ordered (h : Laid source place words) : words.Pairwise fun t s => s.stop ≤ t.pos := by
  induction h with
  | nil => exact .nil
  | @cons start stop place t words hl hw _ _ _ _ ih =>
    refine .cons ?_ ih
    intro s hs
    obtain ⟨a, b, hat, hb⟩ := hl.exists_wordAt hs
    rw [hw.place.1, hat.place.2]
    exact Int.ofNat_le.mpr hb

/-- What is in none of the words is a blank. -/
lemma isBlank_of_outside (h : Laid source place words) {i : Nat} {c : Char}
    (hc : source[i]? = some c) (hi : i < place)
    (hout : ∀ t ∈ words, ¬ (t.pos ≤ i ∧ i < t.stop)) : isBlank c = true := by
  induction h with
  | nil _ hbl => exact hbl c (mem_slice.mpr ⟨i, Nat.zero_le i, hi, hc⟩)
  | @cons start stop place t words hl hw _ _ hbl _ ih =>
    by_cases hstart : i < start
    · exact ih hstart fun s hs => hout s (List.mem_cons_of_mem t hs)
    · have hself := hout t List.mem_cons_self
      rw [hw.place.1, hw.place.2] at hself
      have hstop : stop ≤ i := by omega
      exact hbl c (mem_slice.mpr ⟨i, hstop, hi, hc⟩)

end Laid

/-! ### The invariant of reading -/

/-- What a machine remembers of a source that has been read up to a place: outside of words, the
words so far; inside of a word, the words before it, where it starts, and what it spells. -/
inductive Machine.Sound (source : List Char) (place : Nat) : Machine → Prop
  | outside {s start words} : s.tokenKind = none → Laid source place words →
      Machine.Sound source place ⟨s, start, words⟩
  | inside {s start words} : s.Spells (slice source start place) → Laid source start words →
      Machine.Sound source place ⟨s, start, words⟩

namespace Machine.Sound

/-- What has been read is accounted for once the open span has ended. -/
lemma laid_close {place : Nat} {m : Machine} (h : m.Sound source place) (hq : m.state ≠ .quoted)
    (hends : m.state.EndsAt source place) (hplace : place ≤ source.length) :
    Laid source place (m.close source place) := by
  cases h with
  | @outside s start words hs hl =>
    rw [Machine.close, hs]
    exact hl
  | inside hs hl => exact hl.close hs hq hends hplace

/-- **One character keeps the invariant.** -/
theorem next {i : Nat} {c : Char} {m : Machine} (h : m.Sound source i)
    (hc : source[i]? = some c) : (m.next source i (.ofChar c)).Sound source (i + 1) := by
  obtain ⟨hi, -⟩ := List.getElem?_eq_some_iff.mp hc
  rw [Machine.next]
  cases hcont : m.state.continues (.ofChar c) with
  | some s' =>
    cases h with
    | outside hs hl =>
      rw [State.continues_of_tokenKind_eq_none hs] at hcont
      cases hcont
    | inside hs hl =>
      have hlt := lt_of_slice_ne_nil (State.Spells.ne_nil hs)
      refine .inside ?_ hl
      rw [slice_succ (Nat.le_of_lt hlt) hc]
      exact State.Spells.snoc hs hcont
  | none =>
    have hends : m.state.EndsAt source i := by
      intro d hd
      rw [hc] at hd
      cases hd
      exact hcont
    have hq := State.ne_quoted_of_continues_eq_none hcont
    have hl := h.laid_close hq hends (Nat.le_of_lt hi)
    by_cases hb : CharClass.ofChar c = .whitespace
    · rw [hb]
      exact .outside rfl (hl.blank hc (CharClass.ofChar_eq_iff.mp hb))
    · simp only [hb, if_false]
      refine .inside ?_ hl
      rw [slice_one hc]
      exact State.spells_opens hb

/-- **Reading keeps the invariant.** -/
theorem read {i : Nat} {rest : List Char} {m : Machine} (h : m.Sound source i)
    (hrest : source.drop i = rest) : (m.read source i rest).Sound source (i + rest.length) := by
  induction rest generalizing i m with
  | nil => exact h
  | cons c rest ih =>
    have hc : source[i]? = some c := by
      rw [← List.head?_drop, hrest, List.head?_cons]
    have htail : source.drop (i + 1) = rest := by
      rw [← List.tail_drop, hrest, List.tail_cons]
    rw [Machine.read, List.length_cons, Nat.add_comm rest.length, ← Nat.add_assoc]
    exact ih (h.next hc) htail

end Machine.Sound

/-- The words of a source account for all of it if every quote is closed. -/
theorem laid_of_not_quoted (h : (Machine.read source 0 source .initial).state ≠ .quoted) :
    Laid source source.length
      ((Machine.read source 0 source .initial).close source source.length) := by
  have hstart : Machine.initial.Sound source 0 :=
    .outside rfl (.nil (Nat.zero_le _) (blanks_self 0))
  have hend := hstart.read (List.drop_zero)
  rw [Nat.zero_add] at hend
  refine hend.laid_close h ?_ (Nat.le_refl _)
  intro c hc
  rw [List.getElem?_eq_none (Nat.le_refl _)] at hc
  cases hc

/-! ### The words of a source -/

/-- Words laid out over a source, the first one first, and the empty line end after them. -/
def wordsOf (source : List Char) (words : List Token) : List Token :=
  words.reverse ++ [wordAt source source.length source.length .eol]

/-- The line end at the end of a source has no text. -/
lemma wordAt_end (source : List Char) :
    wordAt source source.length source.length .eol =
      ⟨.eol, "", source.length, source.length, []⟩ := by
  rw [wordAt, slice, Nat.sub_self, List.take_zero]
  rfl

/-- A word of a source is laid out, or it is the line end at the end of the source. -/
lemma Laid.of_mem_wordsOf {words : List Token} {t : Token} (h : Laid source source.length words)
    (ht : t ∈ wordsOf source words) :
    (∃ start stop, WordAt source start stop t ∧ stop ≤ source.length) ∨
      t = wordAt source source.length source.length .eol := by
  rw [wordsOf, List.mem_append, List.mem_reverse, List.mem_singleton] at ht
  exact ht.imp_left h.exists_wordAt

lemma Laid.ordered_wordsOf {words : List Token} (h : Laid source source.length words) :
    (wordsOf source words).Pairwise fun s t => s.stop ≤ t.pos := by
  refine List.pairwise_append.mpr ⟨List.pairwise_reverse.mpr h.ordered,
    List.pairwise_singleton _ _, ?_⟩
  intro s hs t ht
  obtain ⟨start, stop, hw, hstop⟩ := h.exists_wordAt (List.mem_reverse.mp hs)
  rw [List.mem_singleton.mp ht, hw.place.2]
  exact Int.ofNat_le.mpr hstop

lemma Laid.isBlank_of_outside_wordsOf {words : List Token} (h : Laid source source.length words)
    {i : Nat} {c : Char} (hc : source[i]? = some c)
    (hout : ∀ t ∈ wordsOf source words, ¬ (t.pos ≤ i ∧ i < t.stop)) : isBlank c = true := by
  obtain ⟨hi, -⟩ := List.getElem?_eq_some_iff.mp hc
  refine h.isBlank_of_outside hc hi fun t ht => hout t ?_
  exact List.mem_append_left _ (List.mem_reverse.mpr ht)

lemma mem_dropLast_wordsOf {words : List Token} {t : Token} :
    t ∈ (wordsOf source words).dropLast ↔ t ∈ words := by
  rw [wordsOf, List.dropLast_concat, List.mem_reverse]

lemma getLast?_wordsOf (words : List Token) :
    (wordsOf source words).getLast? = some (wordAt source source.length source.length .eol) := by
  rw [wordsOf, List.getLast?_concat]

/-- The words of a source, if it has any, are laid out over it. -/
theorem exists_laid_of_tokenize_ok {text : String} {ts : List Token} (h : tokenize text = .ok ts) :
    ∃ words, Laid text.toList text.toList.length words ∧ ts = wordsOf text.toList words := by
  rw [tokenize_eq] at h
  dsimp only at h
  split at h
  · cases h
  · rename_i hq
    refine ⟨_, laid_of_not_quoted hq, ?_⟩
    rw [wordsOf, ← List.reverse_cons]
    exact (Except.ok.inj h).symm

/-- A source with an even number of quotes has words. -/
theorem exists_tokenize_ok {text : String} (h : text.toList.count '\x22' % 2 = 0) :
    ∃ ts, tokenize text = .ok ts := by
  have hq : ¬ (Machine.read text.toList 0 text.toList .initial).state = .quoted := by
    rw [state_read_eq_quoted, h]
    decide
  rw [tokenize_eq]
  exact ⟨_, if_neg hq⟩

end ArrayCalc.Lexer
