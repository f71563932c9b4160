import ArrayCalc.Primitive
import ArrayCalc.Proofs.Lexer.Numerals
import ArrayCalc.Proofs.Numeral.Words
import ArrayCalc.Proofs.Sentence.Evaluation
/-!
A source of numerals is worth what the numerals stand for.

A numeral is recognised twice: as a word of the source, by a digit at its front, and as a number, by
the parts that it is made of.

* `numberLiteral_atom`, `numberLiteral_vector`: the noun of a word of one numeral, and of more;
* `numerals_denote`: **the two agree.**  Words that begin with a digit are one word of the source if
  there are blanks between them, and it is worth what reading them gives, failures included; and
  every text that is read as a number is such a word.
-/

namespace ArrayCalc

open Lexer Evaluation

/-- A word of one numeral is an atom. -/
lemma numberLiteral_atom {t : Token} {text : String} (hk : t.kind = .number)
    (hparts : t.parts = [text]) : numberLiteral t = readAtom text := by
  rw [numberLiteral, if_neg (not_not_intro hk), hparts]

/-- A word of several numerals is a list. -/
lemma numberLiteral_vector {t : Token} (hk : t.kind = .number) (hparts : 1 < t.parts.length) :
    numberLiteral t = readVector t.parts := by
  rw [numberLiteral, if_neg (not_not_intro hk)]
  match t.parts, hparts with
  | _ :: _ :: _, _ => rfl

/-- **A source of numerals is worth what the numerals stand for.**  Words that begin with a digit,
with blanks between and around them, are the numerals of one word; the source comes to the atom of
the only one, or to the list of all of them, or fails as reading them does.  And a text that is read
as a number is such a word, unless it begins with its point or ends in a line feed, so that as a
source it comes to the same number. -/
theorem numerals_denote (registry : Registry) (env : Environment) :
    (∀ (words : List String) (s lead trail : List Char), JoinedByBlanks words s →
      (∀ w ∈ words, IsNumeral w.toList) → AreBlanks lead → AreBlanks trail →
      let source := lead ++ s ++ trail
      let run := (evaluate registry (String.ofList source)).carryOut env
      tokenize (String.ofList source) =
        .ok [⟨.number, String.ofList s, lead.length, (lead.length + s.length : Nat), words⟩,
          ⟨.eol, "", source.length, source.length, []⟩] ∧
      (∀ w, words = [w] → run = ((readAtom w).map some, env)) ∧
      (1 < words.length → run = ((readVector words).map some, env))) ∧
    (∀ text e, readNumeral text = .ok e → text.toList.head? ≠ some '.' →
      text.toList.getLast? ≠ some '\n' →
      IsNumeral text.toList ∧
        (evaluate registry text).carryOut env = (.ok (some (.atom e.kind e.value)), env)) := by
  have hlist : ∀ (words : List String) (s lead trail : List Char), JoinedByBlanks words s →
      (∀ w ∈ words, IsNumeral w.toList) → AreBlanks lead → AreBlanks trail →
      ∃ t e, tokenize (String.ofList (lead ++ s ++ trail)) = .ok [t, e] ∧ t.kind = .number ∧
        t.parts = words ∧ e.kind = .eol := fun words s lead trail h hwords hlead htrail =>
    ⟨_, _, tokenize_numerals h hwords hlead htrail, rfl, rfl, rfl⟩
  constructor
  · intro words s lead trail h hwords hlead htrail source run
    obtain ⟨t, e, htokens, ht, hparts, he⟩ := hlist words s lead trail h hwords hlead htrail
    have hrun : run = ((numberLiteral t).map some, env) :=
      carryOut_evaluate_numeral registry env htokens ht he
    refine ⟨?_, fun w hw => ?_, fun hmore => ?_⟩
    · rw [tokenize_numerals h hwords hlead htrail, wordAt, slice, Nat.sub_self, List.take_zero]
      rfl
    · rw [hrun, numberLiteral_atom ht (hparts.trans hw)]
    · rw [← hparts] at hmore ⊢
      rw [hrun, numberLiteral_vector ht hmore]
  · intro text e hread hpoint hend
    have hword := isNumeral_of_readNumeral hread hpoint hend
    obtain ⟨t, l, htokens, ht, hparts, hl⟩ := hlist [text] text.toList [] [] (.one text)
      (List.forall_mem_singleton.mpr hword) (List.forall_mem_nil _) (List.forall_mem_nil _)
    rw [List.append_nil, List.nil_append, String.ofList_toList] at htokens
    refine ⟨hword, ?_⟩
    rw [carryOut_evaluate_numeral registry env htokens ht hl, numberLiteral_atom ht hparts,
      readAtom, readLiteral, hread]
    rfl

/-- A negative number with a tab behind it; two words of which the second one is no number; and the
text of the infinity. -/
theorem denote_negative_and_malformed :
    let run := fun source => (evaluate (.standard defaultLimit) source).carryOut .empty
    (JoinedByBlanks ["_3"] ['_', '3'] ∧ IsNumeral "_3".toList ∧
      run "_3\t" = ((readAtom "_3").map some, .empty)) ∧
    (JoinedByBlanks ["1", "2x"] ['1', ' ', '2', 'x'] ∧ IsNumeral "2x".toList ∧
      run " 1 2x" = ((readVector ["1", "2x"]).map some, .empty)) ∧
    (readNumeral "_" = .ok ⟨.decimal, infinity⟩ ∧
      run "_" = (.ok (some (.atom .decimal infinity)), .empty)) := by
  intro run
  obtain ⟨hlist, htext⟩ := numerals_denote (.standard defaultLimit) .empty
  have hnothing : AreBlanks [] := List.forall_mem_nil _
  have hblank : AreBlanks [' '] := List.forall_mem_singleton.mpr rfl
  have htab : AreBlanks ['\t'] := List.forall_mem_singleton.mpr rfl
  have hone : JoinedByBlanks ["_3"] ['_', '3'] := .one "_3"
  have hthree : IsNumeral "_3".toList :=
    ⟨'_', ['3'], rfl, rfl, List.forall_mem_singleton.mpr rfl⟩
  have htwo : JoinedByBlanks ["1", "2x"] ['1', ' ', '2', 'x'] :=
    @JoinedByBlanks.more ["1"] ['1'] [' '] "2x" (.one "1") (List.cons_ne_nil _ _) hblank
  have hword : IsNumeral "2x".toList :=
    ⟨'2', ['x'], rfl, rfl, List.forall_mem_singleton.mpr rfl⟩
  have hwords : ∀ w ∈ ["1", "2x"], IsNumeral w.toList :=
    List.forall_mem_cons.mpr
      ⟨⟨'1', [], rfl, rfl, List.forall_mem_nil _⟩, List.forall_mem_singleton.mpr hword⟩
  refine ⟨⟨hone, hthree, ?_⟩, ⟨htwo, hword, ?_⟩, rfl, ?_⟩
  · exact (hlist ["_3"] ['_', '3'] [] ['\t'] hone (List.forall_mem_singleton.mpr hthree) hnothing
      htab).2.1 "_3" rfl
  · exact (hlist ["1", "2x"] ['1', ' ', '2', 'x'] [' '] [] htwo hwords hblank hnothing).2.2
      (by decide)
  · exact (htext "_" _ rfl (by decide) (by decide)).2

end ArrayCalc
