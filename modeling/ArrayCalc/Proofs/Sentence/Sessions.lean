import ArrayCalc.Proofs.Sentence.Atomicity
/-!
Sessions: sources evaluated one after the other in one environment.

* `environmentAfter`, `outcomes`: the environment after some sources, and what each of them comes to
  (`Result`) in the environment that those before it have made; their laws for sources put one
  after the other;
* `evaluate_error_keeps`: **a source of one statement at most that fails changes nothing**;
* `Moment`: a statement that has succeeded; `moments`: those of a session in order;
* `Moment.Chain`: moments each of which starts where the one before it has ended;
  `chain_moments`: **the moments of a session are such a chain, from its first environment to its
  last one**.
-/

namespace ArrayCalc

open Lexer Evaluation

variable {registry : Registry}

/-! ### Sources one after the other -/

/-- What a source comes to: a failure, a noun, or nothing if it has no statements. -/
abbrev Result := Except Failure (Option Noun)

/-- The environment after sources evaluated in order. -/
def environmentAfter (registry : Registry) (sources : List String) (env : Environment) :
    Environment :=
  sources.foldl (fun env source => ((evaluate registry source).carryOut env).2) env

/-- What each source comes to in the environment that the sources before it have made. -/
def outcomes (registry : Registry) (sources : List String) (env : Environment) : List Result :=
  sources.mapIdx fun i source =>
    ((evaluate registry source).carryOut (environmentAfter registry (sources.take i) env)).1

lemma environmentAfter_append (before after : List String) (env : Environment) :
    environmentAfter registry (before ++ after) env =
      environmentAfter registry after (environmentAfter registry before env) :=
  List.foldl_append

lemma outcomes_cons (source : String) (sources : List String) (env : Environment) :
    outcomes registry (source :: sources) env =
      ((evaluate registry source).carryOut env).1 ::
        outcomes registry sources ((evaluate registry source).carryOut env).2 :=
  List.mapIdx_cons

lemma outcomes_append (before after : List String) (env : Environment) :
    outcomes registry (before ++ after) env =
      outcomes registry before env ++
        outcomes registry after (environmentAfter registry before env) := by
  induction before generalizing env with
  | nil => rfl
  | cons source before ih =>
    rw [List.cons_append, outcomes_cons, outcomes_cons, ih]
    rfl

/-- A source that fails and has one statement at most, or cannot be cut into words, changes
nothing. -/
lemma evaluate_error_keeps {source : String} {env after : Environment} {f : Failure}
    (h : (evaluate registry source).carryOut env = (.error f, after))
    (hone : ∀ ts, tokenize source = .ok ts → (statements ts).length ≤ 1) : after = env := by
  cases ht : tokenize source with
  | error e =>
    rw [evaluate_of_lexError ht] at h
    exact (Prod.mk.inj h).2.symm
  | ok ts =>
    rw [evaluate_of_tokens ht] at h
    obtain ⟨done, s, rest, hss, ⟨v?, hdone⟩, -⟩ := performAfter_error_iff.mp h
    -- the statement that fails is the only one
    have hnil : done = [] := by
      have hlength := hone ts ht
      rw [hss, List.length_append, List.length_cons] at hlength
      exact List.length_eq_zero_iff.mp (by omega)
    subst hnil
    exact (Prod.mk.inj hdone).2.symm

/-! ### Moments -/

/-- A statement that has succeeded: its words, what it has come to, and the environment after it. -/
structure Moment where
  words : List Token
  value : Noun
  after : Environment

/-- The moment of a statement, if it succeeds. -/
def moment? (registry : Registry) (ts : List Token) (h : ts ≠ []) (env : Environment) :
    Option Moment :=
  let run := (statement registry ts h).carryOut env
  run.1.toOption.map fun v => ⟨ts, v, run.2⟩

lemma moment?_of_ok {ts : List Token} {h : ts ≠ []} {env next : Environment} {v : Noun}
    (hs : (statement registry ts h).carryOut env = (.ok v, next)) :
    moment? registry ts h env = some ⟨ts, v, next⟩ := by
  rw [moment?, hs]
  rfl

lemma moment?_of_error {ts : List Token} {h : ts ≠ []} {env next : Environment} {f : Failure}
    (hs : (statement registry ts h).carryOut env = (.error f, next)) :
    moment? registry ts h env = none := by
  rw [moment?, hs]
  rfl

/-- The statements that succeed before the first one that fails. -/
def statementMoments (registry : Registry) : List Statement → Environment → List Moment
  | [], _ => []
  | ⟨ts, h⟩ :: ss, env =>
    match moment? registry ts h env with
    | none => []
    | some m => m :: statementMoments registry ss m.after

/-- The statements of a source that succeed. -/
def sourceMoments (registry : Registry) (source : String) (env : Environment) : List Moment :=
  match tokenize source with
  | .error _ => []
  | .ok ts => statementMoments registry (statements ts) env

/-- The statements that succeed in a session; where one fails, the session goes on with the next
source. -/
def moments (registry : Registry) : List String → Environment → List Moment
  | [], _ => []
  | source :: sources, env =>
    sourceMoments registry source env ++
      moments registry sources ((evaluate registry source).carryOut env).2

lemma moments_append (before after : List String) (env : Environment) :
    moments registry (before ++ after) env =
      moments registry before env ++
        moments registry after (environmentAfter registry before env) := by
  induction before generalizing env with
  | nil => rfl
  | cons source before ih =>
    rw [List.cons_append, moments, moments, ih, List.append_assoc]
    rfl

/-! ### Chains of moments -/

namespace Moment

/-- Statements carried out one after the other, from one environment to another. -/
inductive Chain (registry : Registry) : Environment → List Moment → Environment → Prop
  | nil (env : Environment) : Chain registry env [] env
  | cons {s : Statement} {v : Noun} {env next after : Environment} {ms : List Moment} :
      (statement registry s.1 s.2).carryOut env = (.ok v, next) → Chain registry next ms after →
      Chain registry env (⟨s.1, v, next⟩ :: ms) after

namespace Chain

variable {env next after : Environment} {ms rest : List Moment} {m : Moment}

lemma append (h : Chain registry env ms next) (hrest : Chain registry next rest after) :
    Chain registry env (ms ++ rest) after := by
  induction h with
  | nil => exact hrest
  | cons hs _ ih => exact .cons hs (ih hrest)

/-- A chain up to one of its moments ends in the environment after it. -/
lemma upTo (h : Chain registry env (ms ++ m :: rest) after) :
    Chain registry env (ms ++ [m]) m.after := by
  induction ms generalizing env with
  | nil =>
    cases h with
    | cons hs _ => exact .cons hs (.nil _)
  | cons _ ms ih =>
    cases h with
    | cons hs hrest => exact .cons hs (ih hrest)

end Chain

end Moment

open Moment

/-- Statements pass through their moments, and end with the value of one of them unless there is
none. -/
lemma chain_statementMoments {ss : List Statement} {env after : Environment} {last : Option Noun}
    {r : Result}
    (h : (performAfter registry last ss).carryOut env = (r, after)) :
    Chain registry env (statementMoments registry ss env) after ∧
      ∀ v, r = .ok (some v) →
        last = some v ∨ ∃ m ∈ statementMoments registry ss env, m.value = v := by
  induction ss generalizing env last with
  | nil =>
    cases h
    refine ⟨.nil _, ?_⟩
    rintro v ⟨⟩
    exact .inl rfl
  | cons s ss ih =>
    rw [statementMoments]
    cases hs : (statement registry s.1 s.2).carryOut env with
    | mk r' next =>
      cases r' with
      | error f =>
        obtain rfl := carryOut_statement_error hs
        rw [performAfter_cons_error hs] at h
        cases h
        rw [moment?_of_error hs]
        refine ⟨.nil _, ?_⟩
        rintro v ⟨⟩
      | ok w =>
        rw [performAfter_cons_ok hs] at h
        rw [moment?_of_ok hs]
        obtain ⟨hchain, hvalue⟩ := ih h
        refine ⟨.cons hs hchain, fun v hv => .inr ?_⟩
        rcases hvalue v hv with hw | ⟨m, hm, rfl⟩
        · exact ⟨⟨s.1, w, next⟩, List.mem_cons_self, Option.some.inj hw⟩
        · exact ⟨m, List.mem_cons_of_mem _ hm, rfl⟩

/-- A source passes through its moments, and comes to the value of one of them if it comes to any
noun. -/
lemma chain_sourceMoments {source : String} {env after : Environment} {r : Result}
    (h : (evaluate registry source).carryOut env = (r, after)) :
    Chain registry env (sourceMoments registry source env) after ∧
      ∀ v, r = .ok (some v) → ∃ m ∈ sourceMoments registry source env, m.value = v := by
  rw [sourceMoments]
  cases ht : tokenize source with
  | error e =>
    rw [evaluate_of_lexError ht] at h
    cases h
    refine ⟨.nil _, ?_⟩
    rintro v ⟨⟩
  | ok ts =>
    rw [evaluate_of_tokens ht] at h
    obtain ⟨hchain, hvalue⟩ := chain_statementMoments h
    exact ⟨hchain, fun v hv => (hvalue v hv).resolve_left nofun⟩

/-- **A session passes through its moments**, whether or not some of its sources fail. -/
theorem chain_moments (registry : Registry) (sources : List String) (env : Environment) :
    Chain registry env (moments registry sources env) (environmentAfter registry sources env) := by
  induction sources generalizing env with
  | nil => exact .nil env
  | cons source sources ih => exact (chain_sourceMoments rfl).1.append (ih _)

end ArrayCalc
