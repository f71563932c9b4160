import ArrayCalc.Proofs.Lexer.Lines
import ArrayCalc.Proofs.Sentence.Atomicity
import ArrayCalc.Proofs.Sentence.Failures
import Mathlib.Data.List.Forall2
/-!
The same sentence in other words.

* `Told`: a failure of a sentence, told of the words that stand for its words;
* `Outcome`: two runs that come to one value, or to a failure and what is told of it;
  `Evaluation.Retells`: an evaluation that does what another one does but tells its failures in its
  own way, and how this carries over to steps one after the other;
* `nounOf_retells`, `monadStep_retells`, `dyadStep_retells`: the steps of a sentence made of words
  of the same kind and text do the same; from them, along the scan, so do expressions and
  statements;
* `splitLines_forall₂`, `statements_forall₂`: words of the same kind make the same statements;
* `interpret_retells`: **so a line does what the same line in other words does.**
-/

namespace ArrayCalc

open Lexer

/-! ### Failures told of other words -/

/-- A failure of a sentence, and the same failure of other words: the complaint is about the word
that stands for the one it was about.  A numeral that is none and a symbol that is no verb are not
told of a place. -/
inductive Told (word : Token → Token → Prop) : Failure → Failure → Prop
  | literal (text : String) (e : NumeralError) :
      Told word ⟨.literal text, [.numeral e]⟩ ⟨.literal text, [.numeral e]⟩
  | unknownVerb (v : Valence) (symbol : String) :
      Told word ⟨.unknownVerb v symbol, []⟩ ⟨.unknownVerb v symbol, []⟩
  | undefinedName {t t' : Token} : word t t' →
      Told word ⟨.evaluation (.undefinedName t.text t.pos), []⟩
        ⟨.evaluation (.undefinedName t'.text t'.pos), []⟩
  | stringLiteral {t t' : Token} : word t t' →
      Told word ⟨.evaluation (.stringLiteral t.pos), []⟩ ⟨.evaluation (.stringLiteral t'.pos), []⟩
  | expectedNoun {t t' : Token} : word t t' →
      Told word ⟨.evaluation (.expectedNoun t.kind t.text t.pos), []⟩
        ⟨.evaluation (.expectedNoun t'.kind t'.text t'.pos), []⟩
  | nonsensical {t t' : Token} : word t t' →
      Told word ⟨.evaluation (.nonsensical t.kind t.text t.pos), []⟩
        ⟨.evaluation (.nonsensical t'.kind t'.text t'.pos), []⟩
  | nothingToAssign (name : String) :
      Told word ⟨.evaluation (.nothingToAssign name), []⟩ ⟨.evaluation (.nothingToAssign name), []⟩
  | verb {t t' : Token} (v : Valence) (e : Error) : word t t' →
      Told word (failureOf v t e) (failureOf v t' e)

/-- Two runs that leave the same environment: both come to one value, or one fails and the other
tells that failure. -/
inductive Outcome {α : Type} (told : Failure → Failure → Prop) :
    Except Failure α × Environment → Except Failure α × Environment → Prop
  | value (a : α) (after : Environment) : Outcome told (.ok a, after) (.ok a, after)
  | failure {f g : Failure} (h : told f g) (after : Environment) :
      Outcome told (.error f, after) (.error g, after)

/-! ### Evaluations that do the same -/

namespace Evaluation

variable {α β : Type} {told : Failure → Failure → Prop}

/-- The second evaluation comes to what the first one comes to and does the same to the environment,
but it tells a failure in its own way. -/
def Retells (told : Failure → Failure → Prop) (e e' : Evaluation α) : Prop :=
  ∀ env, Outcome told (e.carryOut env) (e'.carryOut env)

lemma retells_pure (a : α) : Retells told (pure a : Evaluation α) (pure a) :=
  fun env => .value a env

lemma retells_throw {f g : Failure} (h : told f g) :
    Retells told (throw f : Evaluation α) (throw g) := fun env => .failure h env

lemma retells_get : Retells told (get : Evaluation Environment) get := fun env => .value env env

lemma retells_bindName (name : String) (n : Noun) :
    Retells told (bindName name (.noun n)) (bindName name (.noun n)) :=
  fun env => .value () (env.set name n)

/-- A result that does not touch the environment. -/
lemma retells_mk {r : Except Failure α} (h : ∀ f, r = .error f → told f f) :
    Retells told (ExceptT.mk (pure r)) (ExceptT.mk (pure r)) := by
  intro env
  cases r with
  | ok a => exact .value a env
  | error f => exact .failure (h f rfl) env

lemma retells_look {r : Except Error α} (h : ∀ e, r = .error e → told (.plain e) (.plain e)) :
    Retells told (look r) (look r) := by
  intro env
  cases r with
  | ok a => exact .value a env
  | error e => exact .failure (h e rfl) env

lemma retells_apply {word : Token → Token → Prop} {t t' : Token} (h : word t t') (v : Valence)
    (r : Except Error Noun) : Retells (Told word) (apply v t r) (apply v t' r) := by
  intro env
  cases r with
  | ok a => exact .value a env
  | error e => exact .failure (.verb v e h) env

lemma Retells.bind {e e' : Evaluation α} {k k' : α → Evaluation β} (he : Retells told e e')
    (hk : ∀ a, Retells told (k a) (k' a)) : Retells told (e >>= k) (e' >>= k') := by
  intro env
  have hrun := he env
  rw [carryOut_bind, carryOut_bind]
  generalize e.carryOut env = p, e'.carryOut env = p' at hrun
  cases hrun with
  | value a after => exact hk a after
  | failure h after => exact .failure h after

section Runs

variable {e e' : Evaluation α} {env after : Environment}

lemma Retells.of_ok (h : Retells told e e') {a : α} (hrun : e.carryOut env = (.ok a, after)) :
    e'.carryOut env = (.ok a, after) := by
  have hout := h env
  rw [hrun] at hout
  generalize e'.carryOut env = p at hout
  cases hout
  rfl

lemma Retells.of_error (h : Retells told e e') {f : Failure}
    (hrun : e.carryOut env = (.error f, after)) :
    ∃ g, told f g ∧ e'.carryOut env = (.error g, after) := by
  have hout := h env
  rw [hrun] at hout
  generalize e'.carryOut env = p at hout
  cases hout with
  | failure htold => exact ⟨_, htold, rfl⟩

end Runs

end Evaluation

open Evaluation

/-! ### The steps of a sentence -/

section Steps

variable {word : Token → Token → Prop} (hword : ∀ {t t' : Token}, word t t' → SameWord t t')
  {registry : Registry} {t t' l l' : Token} {ts ts' : List Token}

include hword

lemma nounOf_retells (h : word t t') : Retells (Told word) (nounOf t) (nounOf t') := by
  obtain ⟨hkind, hparts, -⟩ := hword h
  rw [nounOf, nounOf, hkind]
  split
  · rename_i hk
    -- the noun of a numeral word is read off its parts
    have hsame : numberLiteral t' = numberLiteral t := by
      rw [numberLiteral, numberLiteral, hkind, hparts hk]
    rw [hsame]
    refine retells_mk fun f hf => ?_
    obtain ⟨text, -, hr⟩ := numberLiteral_eq_error hk hf
    obtain ⟨e, -, rfl⟩ := readLiteral_eq_error hr
    exact .literal text e
  · rename_i hk
    have hname : t'.text = t.text := (hword h).text_of_kind hk (by decide)
    refine retells_get.bind fun env => ?_
    rw [hname]
    cases env.get? t.text with
    | some n => exact retells_pure n
    | none =>
      refine retells_throw ?_
      have htold := Told.undefinedName h
      rwa [hname] at htold
  · exact retells_throw (.stringLiteral h)
  · refine retells_throw ?_
    have htold := Told.expectedNoun h
    rwa [hkind] at htold

lemma monadStep_retells (h : word t t') (hk : t.kind = .operator) (right : Noun) :
    Retells (Told word) (monadStep registry t right) (monadStep registry t' right) := by
  have htext : t'.text = t.text := (hword h).text_of_kind hk (by decide)
  rw [monadStep, monadStep, htext]
  refine (retells_look fun e he => ?_).bind fun f => retells_apply h .monadic (f right)
  rw [Registry.monad_eq_error he]
  exact .unknownVerb .monadic t.text

lemma dyadStep_retells (hl : word l l') (h : word t t') (hk : t.kind = .operator) (right : Noun) :
    Retells (Told word) (dyadStep registry l t right) (dyadStep registry l' t' right) := by
  have htext : t'.text = t.text := (hword h).text_of_kind hk (by decide)
  rw [dyadStep, dyadStep, htext]
  refine (retells_look fun e he => ?_).bind fun f =>
    (nounOf_retells hword hl).bind fun left => retells_apply h .dyadic (f.apply left right)
  rw [Registry.dyad_eq_error he]
  exact .unknownVerb .dyadic t.text

/-! ### Expressions and statements -/

lemma headIsNoun_eq_of_forall₂ (h : List.Forall₂ word ts ts') : headIsNoun ts' = headIsNoun ts := by
  cases h with
  | nil => rfl
  | cons hw _ => rw [headIsNoun, headIsNoun, (hword hw).kind]

lemma scan_retells (h : List.Forall₂ word ts ts') (right : Noun) :
    Retells (Told word) (scan registry ts right) (scan registry ts' right) := by
  induction ts using scan_induction generalizing ts' right with
  | nil =>
    obtain rfl := List.forall₂_nil_left_iff.mp h
    rw [scan_nil]
    exact retells_pure right
  | nonsensical t ts ht =>
    obtain ⟨t', ts', hw, -, rfl⟩ := List.forall₂_cons_left_iff.mp h
    have ht' : t'.kind ≠ .operator := (hword hw).kind ▸ ht
    rw [scan_nonsensical registry ht, scan_nonsensical registry ht']
    exact retells_throw (.nonsensical hw)
  | monad t ts ht hts ih =>
    obtain ⟨t', ts', hw, hrest, rfl⟩ := List.forall₂_cons_left_iff.mp h
    have ht' : t'.kind = .operator := (hword hw).kind.trans ht
    have hts' : headIsNoun ts' = false := (headIsNoun_eq_of_forall₂ hword hrest).trans hts
    rw [scan_monad registry ht hts, scan_monad registry ht' hts']
    exact (monadStep_retells hword hw ht right).bind (ih hrest)
  | dyad t l ts ht hl ih =>
    obtain ⟨t', rest, hw, htail, rfl⟩ := List.forall₂_cons_left_iff.mp h
    obtain ⟨l', ts', hleft, hrest, rfl⟩ := List.forall₂_cons_left_iff.mp htail
    have ht' : t'.kind = .operator := (hword hw).kind.trans ht
    have hl' : l'.kind.isNoun = true := (hword hleft).kind ▸ hl
    rw [scan_dyad registry ht hl, scan_dyad registry ht' hl']
    exact (dyadStep_retells hword hleft hw ht right).bind (ih hrest)

lemma expression_retells (h : List.Forall₂ word ts ts') (hts : ts ≠ []) (hts' : ts' ≠ []) :
    Retells (Told word) (expression registry ts hts) (expression registry ts' hts') := by
  -- the last word comes first when the words are read from the right
  have hreverse : ∀ (us : List Token) (hus : us ≠ []),
      us.reverse = us.getLast hus :: us.dropLast.reverse := by
    intro us hus
    rw [← List.reverse_concat', List.dropLast_append_getLast hus]
  have hread := List.forall₂_reverse_iff.mpr h
  rw [hreverse ts hts, hreverse ts' hts', List.forall₂_cons] at hread
  exact (nounOf_retells hword hread.1).bind (scan_retells hword hread.2)

lemma isAssignment_eq_of_word {name name' symbol symbol' : Token} (hname : word name name')
    (hsymbol : word symbol symbol') : isAssignment name' symbol' = isAssignment name symbol := by
  rw [isAssignment, isAssignment, (hword hname).kind, (hword hsymbol).kind]
  by_cases hk : symbol.kind = .operator
  · rw [(hword hsymbol).text_of_kind hk (by decide)]
  · simp only [hk, decide_false, Bool.and_false, Bool.false_and]

lemma opensAssignment_eq_of_forall₂ (h : List.Forall₂ word ts ts') :
    opensAssignment ts' = opensAssignment ts := by
  cases h with
  | nil => rfl
  | cons hname h =>
    cases h with
    | nil => rfl
    | cons hsymbol _ => exact isAssignment_eq_of_word hword hname hsymbol

lemma statement_retells (h : List.Forall₂ word ts ts') (hts : ts ≠ []) (hts' : ts' ≠ []) :
    Retells (Told word) (statement registry ts hts) (statement registry ts' hts') := by
  induction ts, hts using statement_induction generalizing ts' with
  | phrase ts hts hphrase =>
    have hphrase' := (opensAssignment_eq_of_forall₂ hword h).trans hphrase
    rw [statement_of_phrase registry hts hphrase, statement_of_phrase registry hts' hphrase']
    exact expression_retells hword h hts hts'
  | nothing name symbol hts hs =>
    obtain ⟨name', rest, hname, htail, rfl⟩ := List.forall₂_cons_left_iff.mp h
    obtain ⟨symbol', rest, hsymbol, hrest, rfl⟩ := List.forall₂_cons_left_iff.mp htail
    obtain rfl := List.forall₂_nil_left_iff.mp hrest
    have hs' := (isAssignment_eq_of_word hword hname hsymbol).trans hs
    have htext : name'.text = name.text :=
      (hword hname).text_of_kind (kinds_of_isAssignment hs).1 (by decide)
    rw [statement_of_nothing registry hs, statement_of_nothing registry hs', htext]
    exact retells_throw (.nothingToAssign name.text)
  | assign name symbol ts hts hnil hs ih =>
    obtain ⟨name', rest, hname, htail, rfl⟩ := List.forall₂_cons_left_iff.mp h
    obtain ⟨symbol', ts', hsymbol, hrest, rfl⟩ := List.forall₂_cons_left_iff.mp htail
    have hs' := (isAssignment_eq_of_word hword hname hsymbol).trans hs
    have hnil' : ts' ≠ [] := by
      rintro rfl
      exact hnil (List.forall₂_nil_right_iff.mp hrest)
    have htext : name'.text = name.text :=
      (hword hname).text_of_kind (kinds_of_isAssignment hs).1 (by decide)
    rw [statement_of_assignment registry hs hnil, statement_of_assignment registry hs' hnil', htext]
    refine (ih hrest hnil').bind fun v => ?_
    exact (retells_bindName name.text v).bind fun _ => retells_pure v

/-! ### Statements of a line -/

lemma splitLines_forall₂ (h : List.Forall₂ word ts ts') :
    List.Forall₂ (List.Forall₂ word) (splitLines ts) (splitLines ts') := by
  induction h with
  | nil => exact .cons .nil .nil
  | @cons t t' ts ts' hw _ ih =>
    rw [splitLines, splitLines, (hword hw).kind]
    split
    · exact .cons .nil ih
    · generalize splitLines ts = ls, splitLines ts' = ls' at ih
      cases ih with
      | nil => exact .cons (.cons hw .nil) .nil
      | cons hline hlines => exact .cons (.cons hw hline) hlines

omit hword in
lemma nonempty_forall₂ {ls ls' : List (List Token)} (h : List.Forall₂ (List.Forall₂ word) ls ls') :
    List.Forall₂ (fun s s' : Statement => List.Forall₂ word s.1 s'.1)
      (nonempty ls) (nonempty ls') := by
  induction h with
  | nil => exact .nil
  | cons hline _ ih =>
    cases hline with
    | nil => exact ih
    | cons hw hrest => exact .cons (.cons hw hrest) ih

/-- Words of the same kinds make the same statements. -/
lemma statements_forall₂ (h : List.Forall₂ word ts ts') :
    List.Forall₂ (fun s s' : Statement => List.Forall₂ word s.1 s'.1)
      (statements ts) (statements ts') :=
  nonempty_forall₂ (splitLines_forall₂ hword h)

lemma performAfter_retells {ss ss' : List Statement}
    (h : List.Forall₂ (fun s s' : Statement => List.Forall₂ word s.1 s'.1) ss ss')
    (last : Option Noun) :
    Retells (Told word) (performAfter registry last ss) (performAfter registry last ss') := by
  induction h generalizing last with
  | nil => exact retells_pure last
  | cons hs _ ih =>
    rw [performAfter_cons, performAfter_cons]
    exact (statement_retells hword hs _ _).bind fun v => ih (some v)

/-- **A line does what the same line in other words does**: it comes to the same value and leaves
the same environment, and a failure is told of the words in place of its own. -/
theorem interpret_retells (h : List.Forall₂ word ts ts') :
    Retells (Told word) (interpret registry ts) (interpret registry ts') :=
  performAfter_retells hword (statements_forall₂ hword h) none

end Steps

end ArrayCalc
