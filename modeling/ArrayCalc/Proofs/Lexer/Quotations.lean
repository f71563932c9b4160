import ArrayCalc.Proofs.Lexer.Lexemes
import ArrayCalc.Proofs.Lexer.MaximalMunch
/-!
What quotations say.

The reader of a source decides quote by quote whether a quotation is open, and a quotation is
unquoted as a whole: its first and its last quote are taken off, and then each pair of quotes
becomes one.  A text that is quoted has both undone.

* `quotation`: a text between quotes, with every quote in it doubled; `isQuotation_iff`: the words
  that are spelled as quotations are these texts and no others;
* `unquote_quotation`: a quotation says the text that was quoted;
* `tokenize_quotation`: a quotation alone is one word;
* `quotations_unquoted`: **quoting and unquoting undo each other**, for every text and for every
  quotation in a source.
-/

namespace ArrayCalc.Lexer

/-! ### Quoting -/

/-- A text between quotes, with every quote in it doubled. -/
def quotation (s : String) : String :=
  String.ofList ('\x22' :: (doubleQuotes s.toList ++ ['\x22']))

lemma toList_quotation (s : String) :
    (quotation s).toList = '\x22' :: (doubleQuotes s.toList ++ ['\x22']) := String.toList_ofList

/-- Quotations are spelled by quoting a text. -/
lemma isQuotation_iff {w : List Char} : IsQuotation w ↔ ∃ s, w = (quotation s).toList := by
  constructor
  · rintro ⟨_, ⟨inside, rfl⟩, rfl⟩
    exact ⟨String.ofList inside, by rw [toList_quotation, String.toList_ofList, List.cons_append]⟩
  · rintro ⟨s, rfl⟩
    exact ⟨_, ⟨s.toList, rfl⟩, by rw [toList_quotation, List.cons_append]⟩

/-- The outer quotes come off, whatever stands between them. -/
lemma stripQuotes_between (inside : List Char) :
    stripQuotes ('\x22' :: (inside ++ ['\x22'])) = inside := by
  have hquoted : 2 ≤ ('\x22' :: (inside ++ ['\x22'])).length ∧
      ('\x22' :: (inside ++ ['\x22'])).head? = some '\x22' ∧
      ('\x22' :: (inside ++ ['\x22'])).getLast? = some '\x22' := by
    refine ⟨?_, rfl, ?_⟩
    · rw [List.length_cons, List.length_append]
      exact Nat.succ_le_succ (Nat.le_add_left 1 _)
    · rw [← List.cons_append, List.getLast?_concat]
  rw [stripQuotes, if_pos hquoted, List.tail_cons, List.dropLast_concat]

/-- A quotation says the text that was quoted. -/
lemma unquote_quotation (s : String) : unquote (quotation s) = s := by
  rw [unquote, toList_quotation, stripQuotes_between, halveQuotes_doubleQuotes,
    String.ofList_toList]

/-! ### Quotations as words -/

/-- A quotation alone is one word, with nothing but the end of the source behind it. -/
lemma tokenize_quotation (s : String) :
    tokenize (quotation s) =
      .ok [⟨.string, quotation s, 0, (quotation s).length, []⟩,
        ⟨.eol, "", (quotation s).length, (quotation s).length, []⟩] := by
  have hspells : State.doubleQuoted.Spells (quotation s).toList := isQuotation_iff.mpr ⟨s, rfl⟩
  have hread : Machine.initial.read (quotation s).toList 0 (quotation s).toList =
      ⟨.doubleQuoted, 0, []⟩ := Machine.read_word hspells rfl 0
  have hall : slice (quotation s).toList 0 (quotation s).toList.length = (quotation s).toList := by
    rw [slice, List.drop_zero, Nat.sub_zero, List.take_length]
  have hword : wordAt (quotation s).toList 0 (quotation s).toList.length .string =
      ⟨.string, quotation s, 0, (quotation s).length, []⟩ := by
    rw [wordAt, hall, String.ofList_toList, String.length_toList]
    rfl
  rw [tokenize_eq]
  dsimp only
  rw [hread, if_neg State.noConfusion, wordAt_end, ← hword, String.length_toList]
  rfl

/-- **Quoting and unquoting undo each other.**  A text that is quoted is one word, which says the
text; and a quotation in a source is what quoting its contents gives. -/
theorem quotations_unquoted :
    (∀ s : String, ∃ word : Token,
      tokenize (quotation s) =
        .ok [word, ⟨.eol, "", (quotation s).length, (quotation s).length, []⟩] ∧
      word = ⟨.string, quotation s, 0, (quotation s).length, []⟩ ∧ word.value = s) ∧
    (∀ (source : String) (words : List Token), tokenize source = .ok words →
      ∀ t ∈ words, t.kind = .string → quotation t.value = t.text) := by
  constructor
  · intro s
    exact ⟨_, tokenize_quotation s, rfl, unquote_quotation s⟩
  · intro source words h t ht hk
    obtain ⟨ws, hl, rfl⟩ := exists_laid_of_tokenize_ok h
    have htext : IsQuotation t.text.toList := by
      rcases hl.of_mem_wordsOf ht with ⟨start, stop, hw, -⟩ | rfl
      · exact (hw.isQuotation hk).1
      · cases hk
    obtain ⟨s, hs⟩ := isQuotation_iff.mp htext
    rw [Token.value, if_pos hk, String.toList_inj.mp hs, unquote_quotation]

/-- A text that begins and ends with quotes and has a line feed in it, quoted; and a source with an
empty quotation right before one that says a quote alone. -/
theorem unquoted_edges :
    tokenize "\x22\x22 \x22\x22\x22\x22" =
      .ok [⟨.string, "\x22\x22", 0, 2, []⟩, ⟨.string, "\x22\x22\x22\x22", 3, 7, []⟩,
        ⟨.eol, "", 7, 7, []⟩] ∧
    quotation (Token.value ⟨.string, "\x22\x22\x22\x22", 3, 7, []⟩) = "\x22\x22\x22\x22" ∧
    ∃ word : Token, tokenize (quotation "\x22a\n\x22\x22") =
        .ok [word, ⟨.eol, "", 10, 10, []⟩] ∧
      word = ⟨.string, quotation "\x22a\n\x22\x22", 0, 10, []⟩ ∧ word.value = "\x22a\n\x22\x22" := by
  have h : tokenize "\x22\x22 \x22\x22\x22\x22" =
      .ok [⟨.string, "\x22\x22", 0, 2, []⟩, ⟨.string, "\x22\x22\x22\x22", 3, 7, []⟩,
        ⟨.eol, "", 7, 7, []⟩] := rfl
  exact ⟨h, quotations_unquoted.2 _ _ h _ (by decide) rfl, quotations_unquoted.1 "\x22a\n\x22\x22"⟩

end ArrayCalc.Lexer
