import ArrayCalc.Proofs.Lexer.Layout
import Mathlib.Data.List.Chain
/-!
Every word of a source is as long as it can be.

* `MaximalMunch`: words in order that leave out nothing but blanks, each as its kind is spelled, in
  a place where it does not go on, and no two lists of numerals next to each other;
* `WordAt.isName`, `WordAt.isOperator`, `WordAt.isQuotation`, `WordAt.text_of_lineEnd`,
  `Laid.apart`: what the layout says about words of a kind, and about lists of numerals;
* **`tokenize_maximal_munch`: a source with an even number of quotes has words, and they are as long
  as they can be.**
-/

namespace ArrayCalc.Lexer

variable {source : List Char}

/-- Words of a source that are spelled as their kinds ask for and do not go on where they end. -/
structure MaximalMunch (source : List Char) (words : List Token) : Prop where
  /-- A word is what stands between its two places. -/
  text : ∀ t ∈ words, t.text.toList = slice source t.pos.toNat t.stop.toNat
  /-- A word ends before the words after it start. -/
  ordered : words.Pairwise fun s t => s.stop ≤ t.pos
  /-- Every character but a blank is in a word. -/
  covers : ∀ (i : Nat) (c : Char), source[i]? = some c → isBlank c = false →
    ∃ t ∈ words, t.pos ≤ i ∧ i < t.stop
  /-- A name is a letter with letters and digits after it, and neither a letter, a digit, a dot nor
  a colon follows. -/
  name : ∀ t ∈ words, t.kind = .name →
    IsName t.text.toList ∧ NotFollowedBy source t.stop.toNat isWordChar
  /-- A list consists of numerals: a digit with letters, digits and dots after it, and neither a
  letter, a digit, a dot nor a colon follows any of them. -/
  number : ∀ t ∈ words, t.kind = .number →
    NumeralList source t.pos.toNat t.stop.toNat t.parts
  /-- An operator is a glyph, a name or a numeral that is inflected, and no dot or colon follows. -/
  operator : ∀ t ∈ words, t.kind = .operator →
    IsOperator t.text.toList ∧ NotFollowedBy source t.stop.toNat isInflection
  /-- A quotation has doubled quotes only inside of it, and no quote follows. -/
  string : ∀ t ∈ words, t.kind = .string →
    IsQuotation t.text.toList ∧ NotFollowedBy source t.stop.toNat (· == '\x22')
  /-- A line end, unless it is the last word, is a line feed. -/
  lineEnd : ∀ t ∈ words.dropLast, t.kind = .eol → t.text = "\n"
  /-- The last word is a line end with no text. -/
  last : ∃ t, words.getLast? = some t ∧ t.kind = .eol ∧ t.text = ""
  /-- There are no words of any other kind. -/
  known : ∀ t ∈ words, ∀ label, t.kind ≠ .unknown label
  /-- No two lists of numerals are neighbours. -/
  apart : words.IsChain fun s t => ¬ (s.kind = .number ∧ t.kind = .number)

/-! ### What the layout says -/

namespace WordAt

variable {start stop : Nat} {t : Token}

lemma isName (h : WordAt source start stop t) (hk : t.kind = .name) :
    IsName t.text.toList ∧ NotFollowedBy source t.stop.toNat isWordChar := by
  cases h with
  | name hs hends => exact ⟨String.toList_ofList ▸ hs, hends⟩
  | _ => cases hk

lemma isOperator (h : WordAt source start stop t) (hk : t.kind = .operator) :
    IsOperator t.text.toList ∧ NotFollowedBy source t.stop.toNat isInflection := by
  cases h with
  | operator hs hends => exact ⟨String.toList_ofList ▸ hs, hends⟩
  | _ => cases hk

lemma isQuotation (h : WordAt source start stop t) (hk : t.kind = .string) :
    IsQuotation t.text.toList ∧ NotFollowedBy source t.stop.toNat (· == '\x22') := by
  cases h with
  | string hs hends => exact ⟨String.toList_ofList ▸ hs, hends⟩
  | _ => cases hk

lemma text_of_lineEnd (h : WordAt source start stop t) (hk : t.kind = .eol) : t.text = "\n" := by
  cases h with
  | lineEnd hs => exact congrArg String.ofList hs
  | _ => cases hk

end WordAt

lemma Laid.apart {place : Nat} {words : List Token} (h : Laid source place words) :
    words.IsChain fun t s => ¬ (s.kind = .number ∧ t.kind = .number) := by
  induction h with
  | nil => exact .nil
  | @cons start stop place t words hl _ _ _ _ hap ih =>
    refine List.isChain_cons.mpr ⟨?_, ih⟩
    rintro s hs ⟨hsk, htk⟩
    exact hap htk s hs hsk

/-! ### The words of a source -/

/-- **Words are as long as they can be**: in a source with an even number of quotes every word is
spelled as its kind asks for, none of them goes on where it ends, and numerals are put into one list
wherever there are only blanks between them. -/
theorem tokenize_maximal_munch (source : String) (h : source.toList.count '\x22' % 2 = 0) :
    ∃ words, tokenize source = .ok words ∧ MaximalMunch source.toList words := by
  obtain ⟨words, hwords⟩ := exists_tokenize_ok h
  refine ⟨words, hwords, ?_⟩
  obtain ⟨ws, hl, rfl⟩ := exists_laid_of_tokenize_ok hwords
  -- all words but the last one stand where the layout has them
  have hword : ∀ t ∈ wordsOf source.toList ws, t.kind ≠ .eol →
      ∃ start stop, WordAt source.toList start stop t := by
    intro t ht hk
    rcases hl.of_mem_wordsOf ht with ⟨start, stop, hw, -⟩ | rfl
    · exact ⟨start, stop, hw⟩
    · exact absurd rfl hk
  refine ⟨?text, hl.ordered_wordsOf, ?covers, ?name, ?number, ?operator, ?string, ?lineEnd, ?last,
    ?known, ?apart⟩
  case text =>
    intro t ht
    rcases hl.of_mem_wordsOf ht with ⟨start, stop, hw, -⟩ | rfl
    · exact hw.toList_text
    · exact String.toList_ofList
  case covers =>
    intro i c hc hb
    refine Classical.byContradiction fun hnone => ?_
    rw [hl.isBlank_of_outside_wordsOf hc fun t ht hin => hnone ⟨t, ht, hin⟩] at hb
    cases hb
  case name =>
    intro t ht hk
    obtain ⟨start, stop, hw⟩ := hword t ht (by simp [hk])
    exact hw.isName hk
  case number =>
    intro t ht hk
    obtain ⟨start, stop, hw⟩ := hword t ht (by simp [hk])
    exact hw.numeralList hk
  case operator =>
    intro t ht hk
    obtain ⟨start, stop, hw⟩ := hword t ht (by simp [hk])
    exact hw.isOperator hk
  case string =>
    intro t ht hk
    obtain ⟨start, stop, hw⟩ := hword t ht (by simp [hk])
    exact hw.isQuotation hk
  case lineEnd =>
    intro t ht hk
    obtain ⟨start, stop, hw, -⟩ := hl.exists_wordAt (mem_dropLast_wordsOf.mp ht)
    exact hw.text_of_lineEnd hk
  case last =>
    refine ⟨_, getLast?_wordsOf ws, rfl, ?_⟩
    rw [wordAt, slice, Nat.sub_self, List.take_zero, String.ofList_nil]
  case known =>
    intro t ht label hk
    obtain ⟨start, stop, hw⟩ := hword t ht (by simp [hk])
    cases hw <;> cases hk
  case apart =>
    refine List.isChain_append.mpr ⟨List.isChain_reverse.mpr hl.apart, .singleton _, ?_⟩
    rintro s - t ht ⟨-, htk⟩
    cases ht
    cases htk

/-- A name turned into an operator, a numeral turned into an operator, and two lists of numerals
with a quotation between them. -/
theorem maximal_munch_inflected :
    "ab. 1:. 2 3\x22\x22\x22\x224".toList.count '\x22' % 2 = 0 ∧
    ∃ words, tokenize "ab. 1:. 2 3\x22\x22\x22\x224" = .ok words ∧
      MaximalMunch "ab. 1:. 2 3\x22\x22\x22\x224".toList words :=
  ⟨by decide, tokenize_maximal_munch _ (by decide)⟩

end ArrayCalc.Lexer
