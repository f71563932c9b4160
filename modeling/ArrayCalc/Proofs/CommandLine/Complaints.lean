import ArrayCalc.Proofs.CommandLine.Lines
import ArrayCalc.Proofs.Error.Messages
import ArrayCalc.Proofs.Lexer.Layout
import ArrayCalc.Proofs.Sentence.Failures
/-!
What a line that fails complains of.

Characters of a source reach a complaint through the texts of its words, through symbols, names and
the fragments of numerals.  All of these are quoted on the way, so that no source can add a line to
a complaint or break one.

* `Failure.Brief`: a failure with one cause at most and with messages of one line each;
* `Registry.FailsOnOneLine`: verbs whose errors are on one line, which those of the catalog are;
* `nounOf_brief`, `brief_failureOf`, `stepsFailWith_brief`: the steps of a sentence fail briefly if
  the verbs do so;
* `failing_line_complains_once_per_error`: **a line that fails prints nothing but its errors, one
  line for each, of which there are one or two**.
-/

namespace ArrayCalc

open Lexer Text Evaluation

/-! ### Brief failures -/

/-- A failure with one cause at most, all of whose messages are on one line. -/
structure Failure.Brief (f : Failure) : Prop where
  causes : f.causes.length ≤ 1
  messages : ∀ m ∈ f.messages, OneLine m

namespace Failure

variable {e cause : Error}

lemma brief_plain (h : OneLine e.text) : (plain e).Brief where
  causes := Nat.zero_le 1
  messages := List.forall_mem_singleton.mpr h

lemma brief_caused (h : OneLine e.text) (hcause : OneLine cause.text) : Brief ⟨e, [cause]⟩ where
  causes := Nat.le_refl 1
  messages := List.forall_mem_cons.mpr ⟨h, List.forall_mem_singleton.mpr hcause⟩

end Failure

/-- An error that repeats nothing is on one line. -/
lemma Error.oneLine_of_repeated_eq_nil {e : Error} (h : e.repeated = []) : OneLine e.text :=
  oneLine_text (h ▸ List.forall_mem_nil _)

/-- What a verb fails with is told briefly. -/
lemma brief_failureOf (v : Valence) (t : Token) {e : Error} (h : OneLine e.text) :
    (failureOf v t e).Brief := by
  have hfailed : OneLine (Error.evaluation (.failed v t.text t.pos)).text :=
    Error.oneLine_of_repeated_eq_nil rfl
  rw [failureOf]
  split
  · exact Failure.brief_caused hfailed h
  · split
    · exact Failure.brief_caused hfailed (Error.oneLine_classified h)
    · exact Failure.brief_plain h
  · exact Failure.brief_plain h

/-! ### Verbs -/

/-- The errors of all verbs are on one line. -/
structure Registry.FailsOnOneLine (registry : Registry) : Prop where
  monad : ∀ symbol f n e, registry.monad symbol = .ok f → f n = .error e → OneLine e.text
  dyad : ∀ symbol d l r e, registry.dyad symbol = .ok d → d.apply l r = .error e → OneLine e.text

lemma Registry.failsOnOneLine_standard (limit : Nat) : (standard limit).FailsOnOneLine where
  monad symbol f n e h he := by
    obtain ⟨-, d, rfl, hd⟩ := error_of_monad_standard h he
    exact Error.oneLine_of_repeated_eq_nil hd
  dyad symbol d l r e h he := by
    obtain ⟨-, -, rfl⟩ := error_of_dyad_standard h he
    exact Error.oneLine_of_repeated_eq_nil rfl

/-! ### Steps of a sentence -/

/-- The words of a source are of known kinds. -/
lemma Lexer.repeated_kind_of_tokenize {source : String} {words : List Token} {t : Token}
    (h : tokenize source = .ok words) (ht : t ∈ words) : t.kind.repeated = [] := by
  obtain ⟨laid, hlaid, rfl⟩ := exists_laid_of_tokenize_ok h
  rcases hlaid.of_mem_wordsOf ht with ⟨start, stop, hword, -⟩ | rfl
  · cases hword <;> rfl
  · rfl

/-- An error that repeats nothing is told briefly. -/
lemma Failure.brief_of_repeated_eq_nil {e : Error} (h : e.repeated = []) : Brief ⟨e, []⟩ :=
  brief_plain (Error.oneLine_of_repeated_eq_nil h)

lemma nounOf_brief (t : Token) (hkind : t.kind.repeated = []) :
    (nounOf t).FailsWith Failure.Brief :=
  nounOf_failsWith
    (fun _ _ _ _ _ => Failure.brief_caused (Error.oneLine_of_repeated_eq_nil rfl)
      (Error.oneLine_of_repeated_eq_nil rfl))
    (fun _ => Failure.brief_of_repeated_eq_nil rfl) (fun _ => Failure.brief_of_repeated_eq_nil rfl)
    fun _ _ => Failure.brief_of_repeated_eq_nil hkind

variable {registry : Registry}

/-- The steps of a sentence fail briefly if the verbs do. -/
lemma stepsFailWith_brief (h : registry.FailsOnOneLine) {words : List Token}
    (hwords : ∀ t ∈ words, t.kind.repeated = []) :
    StepsFailWith registry words Failure.Brief where
  noun t ht := nounOf_brief t (hwords t ht)
  monad t _ _ _ :=
    monadStep_failsWith (Failure.brief_of_repeated_eq_nil rfl) fun _ e hf he =>
      brief_failureOf .monadic t (h.monad _ _ _ e hf he)
  dyad l hl t _ _ _ :=
    dyadStep_failsWith (Failure.brief_of_repeated_eq_nil rfl) (nounOf_brief l (hwords l hl))
      fun _ _ e hd he => brief_failureOf .dyadic t (h.dyad _ _ _ _ e hd he)
  nonsensical t ht _ := Failure.brief_of_repeated_eq_nil (hwords t ht)
  nothing _ _ _ := Failure.brief_of_repeated_eq_nil rfl

/-- A source fails briefly if the verbs do. -/
lemma evaluate_brief (h : registry.FailsOnOneLine) (source : String) :
    (evaluate registry source).FailsWith Failure.Brief := by
  rw [evaluate]
  cases ht : tokenize source with
  | error e =>
    obtain ⟨start, stop, rfl⟩ := unterminated_of_tokenize_eq_error ht
    exact failsWith_throw (Failure.brief_of_repeated_eq_nil rfl)
  | ok words =>
    exact (stepsFailWith_brief h fun t => repeated_kind_of_tokenize ht).interpret

namespace CommandLine

/-! ### Complaints -/

/-- Texts without line feeds, each ended by one, are cut apart again. -/
lemma linesOf_join {texts : List String} (h : ∀ s ∈ texts, '\n' ∉ s.toList) :
    linesOf (String.join (texts.map (· ++ "\n"))).toList =
      texts.map fun s => (s ++ "\n").toList := by
  induction texts with
  | nil => rfl
  | cons s texts ih =>
    obtain ⟨hs, htexts⟩ := List.forall_mem_cons.mp h
    have hjoin : (String.join ((s :: texts).map (· ++ "\n"))).toList =
        s.toList ++ '\n' :: (String.join (texts.map (· ++ "\n"))).toList := by
      simp [String.toList_join]
    rw [hjoin, linesOf_ended hs, ih htexts, List.map_cons, String.toList_append]
    rfl

/-- **The complaint of a line that fails**, where verbs are the primitive ones.  Nothing goes to the
standard output.  The standard error output gets one line for each error: one that says what failed,
and under it one for the cause if there is any.  There is one cause at most, and no message has a
line end of its own, whatever the source is made of.

The failures are those that sentences have: statements nest without a bound, so that none of them
exhausts a stack, the backend raises no alarm of its own, and no character of the source is one half
of a surrogate pair. -/
theorem failing_line_complains_once_per_error (limit : Nat) (source : String)
    (env after : Environment) (f : Failure)
    (h : (evaluate (.standard limit) source).carryOut env = (.error f, after)) :
    let report := (runLine (.standard limit) source env).1
    report.out = "" ∧
    (linesOf report.err.toList).length = f.messages.length ∧
    (f.messages.length = 1 ∨ f.messages.length = 2) ∧
    (linesOf report.err.toList).map String.ofList =
      ("error: " ++ f.error.text ++ "\n") ::
        f.causes.map (fun e => "  caused by: " ++ e.text ++ "\n") ∧
    ∀ m ∈ f.messages, '\n' ∉ m.toList ∧ '\r' ∉ m.toList := by
  have hbrief := evaluate_brief (Registry.failsOnOneLine_standard limit) source env f after h
  have hreport : (runLine (.standard limit) source env).1 = .failure f := by
    rw [runLine, h]
    rfl
  rw [hreport]
  obtain ⟨hhead, hcauses⟩ := List.forall_mem_cons.mp hbrief.messages
  have hcomplaint : ∀ s ∈ Report.complaint f.messages, OneLine s := by
    refine List.forall_mem_cons.mpr ⟨oneLine_append.mpr ⟨by decide, hhead⟩, fun s hs => ?_⟩
    obtain ⟨m, hm, rfl⟩ := List.mem_map.mp hs
    exact oneLine_append.mpr ⟨by decide, hcauses m hm⟩
  have hlines : linesOf (Report.failure f).err.toList =
      (Report.complaint f.messages).map fun s => (s ++ "\n").toList :=
    linesOf_join fun s hs => (hcomplaint s hs).1
  refine ⟨rfl, ?_, ?_, ?_, hbrief.messages⟩
  · rw [hlines, List.length_map]
    simp [Failure.messages, Report.complaint]
  · have hlength : f.messages.length = f.causes.length + 1 := by simp [Failure.messages]
    have hcount := hbrief.causes
    omega
  · simp only [hlines, Failure.messages, Report.complaint, List.map_cons, List.map_map,
      Function.comp_def, String.ofList_toList]

/-- Two numbers and the first three numbers do not agree: one line says which verb failed, and one
says why. -/
theorem complains_of_disagreement_in_two_lines :
    let report := (runLine (.standard defaultLimit) "1 2 + i. 3" .empty).1
    ∃ f after,
      (evaluate (.standard defaultLimit) "1 2 + i. 3").carryOut .empty = (.error f, after) ∧
      report.out = "" ∧
      (linesOf report.err.toList).length = f.messages.length ∧
      (f.messages.length = 1 ∨ f.messages.length = 2) ∧
      (linesOf report.err.toList).map String.ofList =
        ["error: Dyadic '+' failed at index 4\n",
          "  caused by: Incompatible array shapes for dyadic operation: 2 and 3\n"] ∧
      ∀ m ∈ f.messages, '\n' ∉ m.toList ∧ '\r' ∉ m.toList := by
  have hfailure : (match (evaluate (.standard defaultLimit) "1 2 + i. 3").carryOut .empty with
      | (.error f, _) => some f
      | (.ok _, _) => none) =
      some ⟨.evaluation (.failed .dyadic "+" 4), [.shape (.disagreement [2] [3])]⟩ := by
    decide +kernel
  cases hrun : (evaluate (.standard defaultLimit) "1 2 + i. 3").carryOut .empty with
  | mk r after =>
    rw [hrun] at hfailure
    cases r with
    | ok v => cases hfailure
    | error f =>
      obtain ⟨hout, hlength, hcount, hlines, hmessages⟩ :=
        failing_line_complains_once_per_error _ _ _ _ _ hrun
      refine ⟨f, after, rfl, hout, hlength, hcount, hlines.trans ?_, hmessages⟩
      cases hfailure
      decide +kernel

/-- An unknown symbol is quoted, even if it is a line end. -/
example : (runLine (.standard defaultLimit) "1 \r 2" .empty).1.err =
    "error: Unknown dyadic verb '\\r'\n" := by
  decide +kernel

end CommandLine

end ArrayCalc
