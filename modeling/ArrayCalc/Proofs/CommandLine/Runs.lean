import ArrayCalc.Proofs.CommandLine.Lines
import ArrayCalc.Proofs.Sentence.Sessions
/-!
Runs that outlast failures.

* `shown`, `complaints`: the texts for the nouns and for the failures among some results;
  `prompted`: what is shown of them in a session;
* `runLines_eq`, `expressionRun_eq`, `sessionRun_eq`: what a run prints, by what its lines come to;
* `FailsAlone`: a line that fails and has no other statement that could have succeeded;
  `outcomes_insert`, `environmentAfter_insert`: among other lines it changes nothing that they come
  to;
* `linesTyped`: the lines of an input; `linesTyped_remove`: those of the input without one of them;
* `run_outlasts_failures`: **a run goes on after a failure, and but for the complaint it is the run
  without the line that fails**.
-/

namespace ArrayCalc.CommandLine

open Lexer

variable {registry : Registry}

/-! ### Results and what is printed of them -/

/-- The display of the noun that a source has come to, with a line end. -/
def display? : Result → Option String
  | .ok (some n) => some (n.display ++ "\n")
  | _ => none

/-- The complaint about a source that has failed. -/
def complaint? : Result → Option String
  | .ok _ => none
  | .error f => some (Report.failure f).err

/-- The displays of the nouns among some results, each with a line end. -/
def shown (results : List Result) : String := String.join (results.filterMap display?)

/-- The complaints about the failures among some results. -/
def complaints (results : List Result) : String := String.join (results.filterMap complaint?)

/-- The same displays, with a prompt for each result. -/
def prompted (results : List Result) : String :=
  String.join (results.map fun r => prompt ++ (display? r).getD "")

lemma out_ofResult (r : Result) : (Report.ofResult r).out = (display? r).getD "" := by
  match r with
  | .ok (some _) | .ok none | .error _ => rfl

lemma err_ofResult (r : Result) : (Report.ofResult r).err = (complaint? r).getD "" := by
  match r with
  | .ok (some _) | .ok none | .error _ => rfl

/-- Results without a text add nothing. -/
lemma join_getD (text? : Result → Option String) (results : List Result) :
    String.join (results.map fun r => (text? r).getD "") =
      String.join (results.filterMap text?) := by
  induction results with
  | nil => rfl
  | cons r results ih =>
    rw [List.map_cons, String.join_cons, ih, List.filterMap_cons]
    cases text? r with
    | none => exact String.empty_append
    | some s => exact String.join_cons.symm

section Append

variable (f : Failure) (before after : List Result)

lemma shown_append : shown (before ++ after) = shown before ++ shown after := by
  rw [shown, List.filterMap_append, String.join_append]
  rfl

lemma complaints_append : complaints (before ++ after) = complaints before ++ complaints after := by
  rw [complaints, List.filterMap_append, String.join_append]
  rfl

lemma prompted_append : prompted (before ++ after) = prompted before ++ prompted after := by
  rw [prompted, List.map_append, String.join_append]
  rfl

lemma shown_error : shown (.error f :: after) = shown after := rfl

lemma complaints_error :
    complaints (.error f :: after) = (Report.failure f).err ++ complaints after :=
  String.join_cons

lemma prompted_error : prompted (.error f :: after) = prompt ++ prompted after := by
  rw [prompted, List.map_cons, String.join_cons]
  exact congrArg (· ++ _) String.append_empty

end Append

lemma failed_ofResult {r : Result} :
    (Report.ofResult r).failed = false ↔ ∃ v?, r = .ok v? := by
  match r with
  | .ok (some n) => exact ⟨fun _ => ⟨some n, rfl⟩, fun _ => rfl⟩
  | .ok none => exact ⟨fun _ => ⟨none, rfl⟩, fun _ => rfl⟩
  | .error f => exact ⟨nofun, nofun⟩

/-! ### Runs by what their lines come to -/

lemma runLines_eq (registry : Registry) (lines : List String) (env : Environment) :
    runLines registry lines env =
      ((outcomes registry lines env).map Report.ofResult, environmentAfter registry lines env) := by
  induction lines generalizing env with
  | nil => rfl
  | cons line lines ih =>
    rw [runLines, outcomes_cons]
    simp only [runLine, ih]
    rfl

lemma any_failed {results : List Result} :
    (results.map Report.ofResult).any Report.failed = false ↔ ∀ r ∈ results, ∃ v?, r = .ok v? := by
  rw [List.any_map, List.any_eq_false]
  refine forall₂_congr fun r _ => ?_
  rw [Function.comp_apply, Bool.not_eq_true, failed_ofResult]

/-- What a run over expressions prints, and its status. -/
lemma expressionRun_eq (registry : Registry) (sources : List String) :
    let results := outcomes registry sources .empty
    (expressionRun registry sources).out = shown results ∧
    (expressionRun registry sources).err = complaints results ∧
    ((expressionRun registry sources).status = 0 ↔ ∀ r ∈ results, ∃ v?, r = .ok v?) := by
  intro results
  simp only [expressionRun, runLines_eq, List.map_map, Function.comp_def, out_ofResult,
    err_ofResult, join_getD]
  refine ⟨rfl, rfl, ?_⟩
  rw [← any_failed]
  cases (results.map Report.ofResult).any Report.failed with
  | false => exact ⟨fun _ => rfl, fun _ => rfl⟩
  | true => exact ⟨nofun, nofun⟩

/-- The lines of an input, each with its line end. -/
def linesTyped (input : String) : List String := (linesOf input.toList).map String.ofList

/-- What a session prints. -/
lemma sessionRun_eq (registry : Registry) (input : String) (interrupted : Bool) :
    let results := outcomes registry (linesTyped input) .empty
    (sessionRun registry input interrupted).out =
      prompted results ++ prompt ++ (if interrupted then "" else "\n") ∧
    (sessionRun registry input interrupted).err =
      complaints results ++ if interrupted then "\n" else "" := by
  intro results
  rw [sessionRun]
  change let rs := (runLines registry (linesTyped input) .empty).1; _
  simp only [runLines_eq, List.map_map, Function.comp_def, out_ofResult, err_ofResult, join_getD]
  cases interrupted with
  | false => exact ⟨rfl, String.append_empty.symm⟩
  | true => exact ⟨String.append_empty.symm, rfl⟩

lemma run_expressions {arguments sources : List String} {input : String} {interrupted : Bool}
    (h : request arguments = .ok (.evaluate sources)) (hne : sources ≠ []) :
    run registry arguments input interrupted = expressionRun registry sources := by
  rw [run, h]
  cases sources with
  | nil => exact absurd rfl hne
  | cons source sources => rfl

lemma run_session {arguments : List String} {input : String} {interrupted : Bool}
    (h : request arguments = .ok (.evaluate [])) :
    run registry arguments input interrupted = sessionRun registry input interrupted := by
  rw [run, h]

/-! ### A line that fails among other lines -/

/-- A source that fails in an environment and has at most one statement, if it can be cut into words
at all. -/
structure FailsAlone (registry : Registry) (source : String) (env : Environment) (f : Failure) :
    Prop where
  fails : ((evaluate registry source).carryOut env).1 = .error f
  alone : ∀ ts, tokenize source = .ok ts → (statements ts).length ≤ 1

section Insert

variable {before after : List String} {source : String} {env : Environment} {f : Failure}

lemma FailsAlone.carryOut (h : FailsAlone registry source env f) :
    (evaluate registry source).carryOut env = (.error f, env) := by
  have hrun : (evaluate registry source).carryOut env =
      (.error f, ((evaluate registry source).carryOut env).2) := Prod.ext h.fails rfl
  rw [hrun, evaluate_error_keeps hrun h.alone]

/-- The lines behind a line that fails come to what they come to without it. -/
lemma outcomes_insert (h : FailsAlone registry source (environmentAfter registry before env) f) :
    outcomes registry (before ++ source :: after) env =
      outcomes registry before env ++
        .error f :: outcomes registry after (environmentAfter registry before env) := by
  rw [outcomes_append, outcomes_cons, h.carryOut]

lemma environmentAfter_insert
    (h : FailsAlone registry source (environmentAfter registry before env) f) :
    environmentAfter registry (before ++ source :: after) env =
      environmentAfter registry (before ++ after) env := by
  rw [environmentAfter_append, environmentAfter_append, environmentAfter, List.foldl_cons,
    h.carryOut]
  rfl

/-- Without a line of it, an input has its other lines. -/
lemma linesTyped_remove {input line : String} (h : linesTyped input = before ++ line :: after) :
    linesTyped (String.join (before ++ after)) = before ++ after := by
  have hback : ∀ lines : List (List Char), (lines.map String.ofList).map String.toList = lines := by
    simp [Function.comp_def]
  have hlines : linesOf input.toList =
      before.map String.toList ++ line.toList :: after.map String.toList := by
    rw [← List.map_cons, ← List.map_append, ← h, linesTyped, hback]
  have hrest : AreLines ((before ++ after).map String.toList) := by
    rw [List.map_append]
    exact (hlines ▸ areLines_linesOf input.toList).remove
  rw [linesTyped, String.toList_join, List.flatMap_def, hrest.linesOf_flatten, List.map_map]
  simp [Function.comp_def]

end Insert

/-! ### Whole runs -/

/-- **A run outlasts its failures**, where verbs are the primitive ones.

Expressions are evaluated in order in one environment, and so are the lines of a session, whichever
of them fail.  The displays of the nouns that they come to make up the standard output, but for the
prompts of a session, and the complaints about those that fail the standard error output.  The
status of a run over expressions is zero exactly if none of them fails.

A line that fails and has one statement at most leaves no trace but its complaint: without it the
run prints the same, less the complaint and, in a session, less a prompt, and ends in the same
environment.

All of this is about the failures that sentences have.  Statements nest without a bound and arrays
are held whatever their size and rank is, so that no line fails for want of stack or of memory, and
sources, being lists of characters, hold no half of a surrogate pair. -/
theorem run_outlasts_failures (limit : Nat) (input : String) (interrupted : Bool) :
    (∀ sources env, runLines (.standard limit) sources env =
      ((outcomes (.standard limit) sources env).map Report.ofResult,
        environmentAfter (.standard limit) sources env)) ∧
    (∀ arguments sources, request arguments = .ok (.evaluate sources) → sources ≠ [] →
      let t := run (.standard limit) arguments input interrupted
      let results := outcomes (.standard limit) sources .empty
      t.out = shown results ∧ t.err = complaints results ∧
      (t.status = 0 ↔ ∀ r ∈ results, ∃ v?, r = .ok v?)) ∧
    (∀ arguments others before source after f,
      request arguments = .ok (.evaluate (before ++ source :: after)) →
      request others = .ok (.evaluate (before ++ after)) → before ++ after ≠ [] →
      FailsAlone (.standard limit) source (environmentAfter (.standard limit) before .empty) f →
      let t := run (.standard limit) arguments input interrupted
      let t' := run (.standard limit) others input interrupted
      let done := outcomes (.standard limit) before .empty
      t'.out = t.out ∧
      (∃ rest, t.err = complaints done ++ (Report.failure f).err ++ rest ∧
        t'.err = complaints done ++ rest) ∧
      (runLines (.standard limit) (before ++ after) .empty).2 =
        (runLines (.standard limit) (before ++ source :: after) .empty).2) ∧
    (∀ arguments, request arguments = .ok (.evaluate []) →
      let t := run (.standard limit) arguments input interrupted
      let results := outcomes (.standard limit) (linesTyped input) .empty
      t.out = prompted results ++ prompt ++ (if interrupted then "" else "\n") ∧
      t.err = complaints results ++ if interrupted then "\n" else "") ∧
    (∀ arguments before line after f, request arguments = .ok (.evaluate []) →
      linesTyped input = before ++ line :: after →
      FailsAlone (.standard limit) line (environmentAfter (.standard limit) before .empty) f →
      let t := run (.standard limit) arguments input interrupted
      let t' := run (.standard limit) arguments (String.join (before ++ after)) interrupted
      let done := outcomes (.standard limit) before .empty
      (∃ rest, t.out = prompted done ++ prompt ++ rest ∧ t'.out = prompted done ++ rest) ∧
      (∃ rest, t.err = complaints done ++ (Report.failure f).err ++ rest ∧
        t'.err = complaints done ++ rest) ∧
      (runLines (.standard limit) (before ++ after) .empty).2 =
        (runLines (.standard limit) (before ++ line :: after) .empty).2) := by
  refine ⟨runLines_eq (.standard limit), ?expressions, ?expression, ?session, ?line⟩
  case expressions =>
    intro arguments sources hrequest hne t results
    have ht : t = expressionRun (.standard limit) sources := run_expressions hrequest hne
    rw [ht]
    exact expressionRun_eq (.standard limit) sources
  case expression =>
    intro arguments others before source after f hrequest hothers hne hfails t t' done
    have ht : t = expressionRun (.standard limit) (before ++ source :: after) :=
      run_expressions hrequest (List.append_ne_nil_of_right_ne_nil _ (List.cons_ne_nil _ _))
    have ht' : t' = expressionRun (.standard limit) (before ++ after) := run_expressions hothers hne
    obtain ⟨hout, herr, -⟩ := expressionRun_eq (.standard limit) (before ++ source :: after)
    obtain ⟨hout', herr', -⟩ := expressionRun_eq (.standard limit) (before ++ after)
    rw [ht, ht', hout, herr, hout', herr', runLines_eq, runLines_eq, outcomes_insert hfails,
      outcomes_append]
    refine ⟨?_, ⟨_, ?_, complaints_append _ _⟩, (environmentAfter_insert hfails).symm⟩
    · rw [shown_append, shown_append, shown_error]
    · rw [complaints_append, complaints_error, String.append_assoc]
  case session =>
    intro arguments hrequest t results
    have ht : t = sessionRun (.standard limit) input interrupted := run_session hrequest
    rw [ht]
    exact sessionRun_eq (.standard limit) input interrupted
  case line =>
    intro arguments before line after f hrequest hlines hfails t t' done
    have ht : t = sessionRun (.standard limit) input interrupted := run_session hrequest
    have ht' : t' = sessionRun (.standard limit) (String.join (before ++ after)) interrupted :=
      run_session hrequest
    obtain ⟨hout, herr⟩ := sessionRun_eq (.standard limit) input interrupted
    obtain ⟨hout', herr'⟩ :=
      sessionRun_eq (.standard limit) (String.join (before ++ after)) interrupted
    have hdone : outcomes (.standard limit) before .empty = done := rfl
    rw [hlines, outcomes_insert hfails, hdone] at hout herr
    rw [linesTyped_remove hlines, outcomes_append, hdone] at hout' herr'
    rw [ht, ht', hout, herr, hout', herr', runLines_eq, runLines_eq]
    generalize outcomes (.standard limit) after _ = rest
    generalize (if interrupted then "" else "\n") = outEnd
    generalize (if interrupted then "\n" else "") = errEnd
    refine ⟨⟨prompted rest ++ prompt ++ outEnd, ?_, ?_⟩, ⟨complaints rest ++ errEnd, ?_, ?_⟩,
      (environmentAfter_insert hfails).symm⟩
    · simp only [prompted_append, prompted_error, String.append_assoc]
    · simp only [prompted_append, String.append_assoc]
    · simp only [complaints_append, complaints_error, String.append_assoc]
    · simp only [complaints_append, String.append_assoc]

/-- A name is bound, a word that is no numeral fails, and the name is used: with and without that
word among the expressions; and a session that ends with that word. -/
theorem outlasts_malformed_numeral :
    let registry := Registry.standard defaultLimit
    let t := run registry ["-e", "x =: 2", "-e", "1x", "-e", "x * 3"] "" false
    let t' := run registry ["-e", "x =: 2", "-e", "x * 3"] "" false
    let complaint := "error: Failed to parse '1x' as a number\n" ++
      "  caused by: invalid numeral syntax '1x'\n"
    (t.out = "2\n6\n" ∧ t.err = complaint ∧ t.status = 1) ∧
    (t'.out = t.out ∧
      ∃ first rest, t.err = first ++ complaint ++ rest ∧ t'.err = first ++ rest) ∧
    ∃ first rest, (run registry [] "x =: 2\n1x" false).out = first ++ prompt ++ rest ∧
      (run registry [] "x =: 2\n" false).out = first ++ rest := by
  intro registry t t' complaint
  have hout : t.out = "2\n6\n" := by decide +kernel
  have herr : t.err = complaint := by decide +kernel
  have hstatus : t.status = 1 := by decide +kernel
  have hfails : ∀ env, FailsAlone registry "1x" env
      ⟨.literal "1x", [.numeral (.malformed "1x")]⟩ := by
    have hwords : tokenize "1x" = .ok [⟨.number, "1x", 0, 2, ["1x"]⟩, ⟨.eol, "", 2, 2, []⟩] := rfl
    refine fun env => ⟨?_, fun ts hts => ?_⟩
    · rw [evaluate_of_tokens hwords]
      rfl
    · rw [hwords] at hts
      cases hts
      decide
  have hcomplaint : (Report.failure ⟨.literal "1x", [.numeral (.malformed "1x")]⟩).err =
      complaint := by decide +kernel
  obtain ⟨-, -, hexpression, -, -⟩ := run_outlasts_failures defaultLimit "" false
  obtain ⟨hsame, hless, -⟩ := hexpression ["-e", "x =: 2", "-e", "1x", "-e", "x * 3"]
    ["-e", "x =: 2", "-e", "x * 3"] ["x =: 2"] "1x" ["x * 3"] _ (by decide) (by decide)
    (List.cons_ne_nil _ _) (hfails _)
  obtain ⟨-, -, -, -, hline⟩ := run_outlasts_failures defaultLimit "x =: 2\n1x" false
  obtain ⟨hprompt, -⟩ := hline [] ["x =: 2\n"] "1x" [] _ rfl (by decide) (hfails _)
  rw [hcomplaint] at hless
  exact ⟨⟨hout, herr, hstatus⟩, ⟨hsame, _, hless⟩, _, hprompt⟩

end ArrayCalc.CommandLine
