import ArrayCalc.Proofs.Lexer.Spacing
import ArrayCalc.Proofs.Sentence.Retelling
/-!
How a source is laid out has no meaning.

* `Paired`: words at the same place of two lists;
* `evaluate_spaced`: **the lexemes of a source with blanks between them**, and around them, are
  words like those of the source, and are evaluated in the same way.
-/

namespace ArrayCalc

open Lexer Evaluation

/-- The two words stand at the same place of two lists of words. -/
def Paired (ts ts' : List Token) (t t' : Token) : Prop := (t, t') ∈ ts.zip ts'

lemma forall₂_paired {R : Token → Token → Prop} {ts ts' : List Token} (h : List.Forall₂ R ts ts') :
    List.Forall₂ (Paired ts ts') ts ts' :=
  List.forall₂_iff_zip.mpr ⟨h.length_eq, fun hmem => hmem⟩

/-- **Layout does not matter.**  Take the lexemes of a source that can be cut into words: the texts
of its words in order, for a list of numerals each of them, and nothing for the end of the source.
Put at least one blank between any two of them, and any blanks around them.  The text that this
makes can be cut into words, and these are the words of the source, place by place: of the same
kind, with the same text, or with the same numerals.  And whatever the verbs and the environment
are, it comes to the same value with the same names bound; or it fails as the source does, told of
its own words. -/
theorem evaluate_spaced {source : String} {ts : List Token} (h : tokenize source = .ok ts)
    (lead s trail : List Char) (hs : Spaced (lexemes ts) s) (hlead : AreBlanks lead)
    (htrail : AreBlanks trail) :
    ∃ ts', tokenize (String.ofList (lead ++ s ++ trail)) = .ok ts' ∧ List.Forall₂ SameWord ts ts' ∧
      ∀ (registry : Registry) (env after : Environment),
        (∀ v, (evaluate registry source).carryOut env = (.ok v, after) →
          (evaluate registry (String.ofList (lead ++ s ++ trail))).carryOut env = (.ok v, after)) ∧
        (∀ f, (evaluate registry source).carryOut env = (.error f, after) →
          ∃ g, Told (Paired ts ts') f g ∧
            (evaluate registry (String.ofList (lead ++ s ++ trail))).carryOut env =
              (.error g, after)) := by
  obtain ⟨ts', hts', hsame⟩ := tokenize_spaced h hs hlead htrail
  refine ⟨ts', hts', hsame, fun registry env after => ?_⟩
  have hretells : Retells (Told (Paired ts ts')) (interpret registry ts) (interpret registry ts') :=
    interpret_retells (List.forall₂_iff_zip.mp hsame).2 (forall₂_paired hsame)
  rw [evaluate_of_tokens h, evaluate_of_tokens hts']
  exact ⟨fun v => hretells.of_ok, fun f => hretells.of_error⟩

/-- Two lines without a blank more than they need: `x` is bound to a list, and a string is no noun.
With blanks everywhere, `x` is bound to the same list, and the string stands further to the right.
-/
theorem spaced_list_and_string :
    let source := "x=:1 2\n\x22a b\x22"
    let ts : List Token := [⟨.name, "x", 0, 1, []⟩, ⟨.operator, "=:", 1, 3, []⟩,
      ⟨.number, "1 2", 3, 6, ["1", "2"]⟩, ⟨.eol, "\n", 6, 7, []⟩,
      ⟨.string, "\x22a b\x22", 7, 12, []⟩, ⟨.eol, "", 12, 12, []⟩]
    let s := "x =: 1\t2 \n \x22a b\x22".toList
    let spaced := String.ofList (['\t'] ++ s ++ [' '])
    let run := fun text => (evaluate (.standard defaultLimit) text).carryOut .empty
    let bound := Environment.empty.set "x" (.array .integer ⟨[2], [1, 2], rfl⟩)
    let f : Failure := .plain (.evaluation (.stringLiteral 7))
    tokenize source = .ok ts ∧ Spaced (lexemes ts) s ∧ AreBlanks ['\t'] ∧ AreBlanks [' '] ∧
      run source = (.error f, bound) ∧
      ∃ ts', tokenize spaced = .ok ts' ∧ List.Forall₂ SameWord ts ts' ∧
        ∃ g, Told (Paired ts ts') f g ∧ run spaced = (.error g, bound) := by
  intro source ts s spaced run bound f
  have htokens : tokenize "x=:1 2\n\x22a b\x22" = .ok ts := rfl
  have hspace : AreBlanks [' '] := List.forall_mem_singleton.mpr rfl
  have htab : AreBlanks ['\t'] := List.forall_mem_singleton.mpr rfl
  have hbehind : ∀ {texts s gap} (p : String), JoinedByBlanks texts s → gap ≠ [] →
      AreBlanks gap → JoinedByBlanks (texts ++ [p]) (s ++ gap ++ p.toList) := .more
  have hjoined : JoinedByBlanks ["x", "=:", "1", "2", "\n", "\x22a b\x22"] s :=
    hbehind "\x22a b\x22" (hbehind "\n" (hbehind "2" (hbehind "1" (hbehind "=:" (.one "x")
      (List.cons_ne_nil _ _) hspace) (List.cons_ne_nil _ _) hspace) (List.cons_ne_nil _ _) htab)
      (List.cons_ne_nil _ _) hspace) (List.cons_ne_nil _ _) hspace
  have hspaced : Spaced (lexemes ts) s := .inr hjoined
  have hrun : run source = (.error f, bound) := by
    show (evaluate _ _).carryOut _ = _
    rw [evaluate_of_tokens htokens]
    rfl
  obtain ⟨ts', hts', hsame, hruns⟩ := evaluate_spaced htokens ['\t'] s [' '] hspaced htab hspace
  exact ⟨htokens, hspaced, htab, hspace, hrun, ts', hts', hsame,
    (hruns (.standard defaultLimit) .empty bound).2 f hrun⟩

end ArrayCalc
