import ArrayCalc.Proofs.Sentence.Grammar
/-!
A statement binds all of its names or none.

* `assignedNames`, `assignedWords`: the names of the assignments that a statement opens with, and
  the words behind them; `Environment.setAll`: names bound to one noun, with its lookup law;
* `Assigns`: what a statement that comes to a noun has done to the environment, and from which
  environment it has read;
* `statement_assigns`: a statement that succeeds has done that; one that fails has done nothing
  (`carryOut_statement_error`);
* `perform`: statements one after the other; `performAfter_error_iff`: they fail at one of them, in
  the environment that those before it have made;
* `evaluate_atomic`: **the same for sources**, whether or not they can be cut into words.
-/

namespace ArrayCalc

open Lexer Evaluation

/-! ### What a statement assigns -/

/-- The names of the assignments that a statement opens with, from left to right. -/
def assignedNames : List Token → List String
  | name :: symbol :: ts => if isAssignment name symbol then name.text :: assignedNames ts else []
  | _ => []

/-- The words behind the assignments that a statement opens with. -/
def assignedWords : List Token → List Token
  | name :: symbol :: ts =>
    if isAssignment name symbol then assignedWords ts else name :: symbol :: ts
  | ts => ts

lemma assignedNames_of_not {ts : List Token} (h : opensAssignment ts = false) :
    assignedNames ts = [] := by
  match ts with
  | [] => rfl
  | [t] => rfl
  | name :: symbol :: ts =>
    have hs : isAssignment name symbol = false := h
    rw [assignedNames, hs, if_neg Bool.false_ne_true]

lemma assignedWords_of_not {ts : List Token} (h : opensAssignment ts = false) :
    assignedWords ts = ts := by
  match ts with
  | [] => rfl
  | [t] => rfl
  | name :: symbol :: ts =>
    have hs : isAssignment name symbol = false := h
    rw [assignedWords, hs, if_neg Bool.false_ne_true]

/-- Names bound to one noun, the last of them first. -/
def Environment.setAll (env : Environment) (names : List String) (v : Noun) : Environment :=
  names.foldr (fun name next => next.set name v) env

lemma Environment.get?_setAll (env : Environment) (names : List String) (v : Noun)
    (other : String) :
    (env.setAll names v).get? other = if other ∈ names then some v else env.get? other := by
  induction names with
  | nil => rfl
  | cons name names ih =>
    show ((env.setAll names v).set name v).get? other = _
    rw [get?_set, ih]
    by_cases h : other = name
    · rw [if_pos h, if_pos (h ▸ List.mem_cons_self)]
    · simp only [h, List.mem_cons, false_or, if_false]

/-- A statement that comes to `v` binds to `v` the names of the assignments that it opens with, and
no other name; the phrase behind them has the value `v` where names mean what they meant before the
statement. -/
structure Assigns (registry : Registry) (ts : List Token) (env : Environment) (v : Noun)
    (after : Environment) : Prop where
  bound : ∀ name ∈ assignedNames ts, after.get? name = some v
  kept : ∀ name ∉ assignedNames ts, after.get? name = env.get? name
  order : after = env.setAll (assignedNames ts) v
  read : ∃ p : Phrase, p.words = assignedWords ts ∧ p.value registry env = .ok v

/-- A clause that comes to a noun has bound its names to the value of its phrase. -/
lemma Clause.run_eq_ok {registry : Registry} {c : Clause} {env after : Environment} {v : Noun}
    (h : c.run registry env = (.ok v, after)) :
    after = env.setAll (assignedNames c.words) v ∧
      ∃ p : Phrase, p.words = assignedWords c.words ∧ p.value registry env = .ok v := by
  induction c generalizing after with
  | phrase p hp =>
    obtain ⟨hv, rfl⟩ := Prod.mk.inj h
    refine ⟨?_, p, (assignedWords_of_not hp).symm, hv⟩
    rw [words, assignedNames_of_not hp]
    rfl
  | assign name symbol hs rest ih =>
    rw [run] at h
    generalize hrun : rest.run registry env = r at h
    obtain ⟨r, next⟩ := r
    cases r with
    | error f => cases h
    | ok w =>
      obtain ⟨hv, rfl⟩ := Prod.mk.inj h
      cases hv
      obtain ⟨rfl, p, hp, hvalue⟩ := ih hrun
      refine ⟨?_, p, ?_, hvalue⟩
      · rw [words, assignedNames, if_pos hs]
        rfl
      · rw [words, assignedWords, if_pos hs, hp]

/-- A statement that succeeds assigns its value, and nothing else happens. -/
lemma statement_assigns {registry : Registry} {ts : List Token} {h : ts ≠ []}
    {env after : Environment} {v : Noun}
    (hok : (statement registry ts h).carryOut env = (.ok v, after)) :
    Assigns registry ts env v after := by
  obtain ⟨c, rfl⟩ := exists_clause_of_statement_ok hok
  obtain ⟨rfl, hread⟩ := Clause.run_eq_ok ((carryOut_statement registry c env).symm.trans hok)
  refine ⟨fun name hname => ?_, fun name hname => ?_, rfl, hread⟩
  · rw [Environment.get?_setAll, if_pos hname]
  · rw [Environment.get?_setAll, if_neg hname]

/-! ### Statements one after the other -/

/-- Statements carried out in order after one that came to `last`; the value is that of the last of
them. -/
def performAfter (registry : Registry) (last : Option Noun) (ss : List Statement) :
    Evaluation (Option Noun) :=
  ss.foldlM (follow registry) last

/-- Statements carried out in order; the value is that of the last of them, if there is any. -/
def perform (registry : Registry) (ss : List Statement) : Evaluation (Option Noun) :=
  performAfter registry none ss

lemma interpret_eq_perform (registry : Registry) (ts : List Token) :
    interpret registry ts = perform registry (statements ts) := rfl

section Perform

variable {registry : Registry} {last : Option Noun} {s : Statement} {ss : List Statement}
  {env next after : Environment} {v : Noun} {v? : Option Noun} {f : Failure}

/-- The first statement, and the others after its value. -/
lemma performAfter_cons (registry : Registry) (last : Option Noun) (s : Statement)
    (ss : List Statement) :
    performAfter registry last (s :: ss) =
      statement registry s.1 s.2 >>= fun v => performAfter registry (some v) ss := by
  rw [performAfter, List.foldlM_cons, follow, ← bind_pure_comp, bind_assoc]
  simp only [pure_bind]
  rfl

lemma performAfter_cons_ok (h : (statement registry s.1 s.2).carryOut env = (.ok v, next)) :
    (performAfter registry last (s :: ss)).carryOut env =
      (performAfter registry (some v) ss).carryOut next := by
  rw [performAfter_cons]
  exact carryOut_bind_ok h _

lemma performAfter_cons_error (h : (statement registry s.1 s.2).carryOut env = (.error f, next)) :
    (performAfter registry last (s :: ss)).carryOut env = (.error f, next) := by
  rw [performAfter_cons]
  exact carryOut_bind_error h _

lemma performAfter_append (done rest : List Statement)
    (h : (performAfter registry last done).carryOut env = (.ok v?, next)) :
    (performAfter registry last (done ++ rest)).carryOut env =
      (performAfter registry v? rest).carryOut next := by
  rw [performAfter, List.foldlM_append]
  exact carryOut_bind_ok h _

/-- Statements fail exactly when one of them fails in the environment that those before it have
made, and that environment stays. -/
lemma performAfter_error_iff :
    (performAfter registry last ss).carryOut env = (.error f, after) ↔
      ∃ done s rest, ss = done ++ s :: rest ∧
        (∃ v?, (performAfter registry last done).carryOut env = (.ok v?, after)) ∧
        (statement registry s.1 s.2).carryOut after = (.error f, after) := by
  constructor
  · intro hf
    induction ss generalizing env last with
    | nil => cases hf
    | cons s ss ih =>
      cases hrun : (statement registry s.1 s.2).carryOut env with
      | mk r next =>
        cases r with
        | error g =>
          obtain rfl := carryOut_statement_error hrun
          rw [performAfter_cons_error hrun] at hf
          cases hf
          exact ⟨[], s, ss, rfl, ⟨last, rfl⟩, hrun⟩
        | ok v =>
          rw [performAfter_cons_ok hrun] at hf
          obtain ⟨done, t, rest, rfl, ⟨v?, hdone⟩, ht⟩ := ih hf
          exact ⟨s :: done, t, rest, rfl, ⟨v?, (performAfter_cons_ok hrun).trans hdone⟩, ht⟩
  · rintro ⟨done, s, rest, rfl, ⟨v?, hdone⟩, hs⟩
    rw [performAfter_append done (s :: rest) hdone, performAfter_cons_error hs]

end Perform

/-! ### Sources -/

lemma evaluate_of_lexError {registry : Registry} {source : String} {e : LexError}
    (h : tokenize source = .error e) (env : Environment) :
    (evaluate registry source).carryOut env = (.error (.plain (.lex e)), env) := by
  rw [evaluate, h]
  rfl

lemma evaluate_of_tokens {registry : Registry} {source : String} {ts : List Token}
    (h : tokenize source = .ok ts) :
    evaluate registry source = perform registry (statements ts) := by
  rw [evaluate, h]
  exact interpret_eq_perform registry ts

/-- **Statements are atomic.**  A source that cannot be cut into words touches nothing.  A statement
that succeeds binds the names of the assignments that it opens with, all of them to its value, and
no other, and all that it reads is read before; a statement that fails touches nothing.  So a source
fails exactly when one of its statements does, and then the environment is the one that the
statements before it have made. -/
theorem evaluate_atomic (registry : Registry) (source : String) (env : Environment) :
    (∀ e, tokenize source = .error e →
      (evaluate registry source).carryOut env = (.error (.plain (.lex e)), env)) ∧
    (∀ (s : Statement) (before after : Environment),
      (∀ v, (statement registry s.1 s.2).carryOut before = (.ok v, after) →
        Assigns registry s.1 before v after) ∧
      (∀ f, (statement registry s.1 s.2).carryOut before = (.error f, after) → after = before)) ∧
    (∀ ts, tokenize source = .ok ts → ∀ f after,
      (evaluate registry source).carryOut env = (.error f, after) ↔
        ∃ done s rest, statements ts = done ++ s :: rest ∧
          (∃ v?, (perform registry done).carryOut env = (.ok v?, after)) ∧
          (statement registry s.1 s.2).carryOut after = (.error f, after)) := by
  refine ⟨fun e he => evaluate_of_lexError he env, fun s before after => ⟨?_, ?_⟩, ?_⟩
  · intro v hok
    exact statement_assigns hok
  · intro f hf
    exact carryOut_statement_error hf
  · intro ts hts f after
    rw [evaluate_of_tokens hts]
    exact performAfter_error_iff

/-- An open quote; and the line `a =: b =: 1` before the line `c =: d`: both `a` and `b` are bound,
and `c` is not, since nothing is bound to `d`. -/
theorem atomic_chain_before_failure :
    let registry := Registry.standard defaultLimit
    let chain : List Token := [⟨.name, "a", 0, 1, []⟩, ⟨.operator, "=:", 2, 4, []⟩,
      ⟨.name, "b", 5, 6, []⟩, ⟨.operator, "=:", 7, 9, []⟩, ⟨.number, "1", 10, 11, ["1"]⟩]
    let broken : List Token := [⟨.name, "c", 12, 13, []⟩, ⟨.operator, "=:", 14, 16, []⟩,
      ⟨.name, "d", 17, 18, []⟩]
    let one := Noun.atom .integer 1
    let bound := (Environment.empty.set "b" one).set "a" one
    let undefined := Failure.plain (.evaluation (.undefinedName "d" 17))
    (tokenize "\x22" = .error (.unterminated 0 1) ∧
      (evaluate registry "\x22").carryOut .empty =
        (.error (.plain (.lex (.unterminated 0 1))), .empty)) ∧
    ((statement registry chain (by simp [chain])).carryOut .empty = (.ok one, bound) ∧
      Assigns registry chain .empty one bound) ∧
    (∃ after, (statement registry broken (by simp [broken])).carryOut bound =
      (.error undefined, after) ∧ after = bound) ∧
    tokenize "a =: b =: 1\nc =: d" =
      .ok (chain ++ ⟨.eol, "\n", 11, 12, []⟩ :: broken ++ [⟨.eol, "", 18, 18, []⟩]) ∧
    (evaluate registry "a =: b =: 1\nc =: d").carryOut .empty = (.error undefined, bound) := by
  intro registry chain broken one bound undefined
  obtain ⟨hlex, -, -⟩ := evaluate_atomic registry "\x22" .empty
  obtain ⟨-, hstatement, hsource⟩ := evaluate_atomic registry "a =: b =: 1\nc =: d" .empty
  have hchain : (statement registry chain (by simp [chain])).carryOut .empty = (.ok one, bound) :=
    rfl
  have hbroken : (statement registry broken (by simp [broken])).carryOut bound =
      (.error undefined, bound) := rfl
  have hfirst : (perform registry [⟨chain, by simp [chain]⟩]).carryOut .empty =
      (.ok (some one), bound) := rfl
  exact ⟨⟨rfl, hlex _ rfl⟩,
    ⟨hchain, (hstatement ⟨chain, by simp [chain]⟩ .empty bound).1 one hchain⟩,
    ⟨bound, hbroken, (hstatement ⟨broken, by simp [broken]⟩ bound bound).2 undefined hbroken⟩, rfl,
    (hsource _ rfl undefined bound).2
      ⟨[⟨chain, by simp [chain]⟩], ⟨broken, by simp [broken]⟩, [], rfl, ⟨_, hfirst⟩, hbroken⟩⟩

end ArrayCalc
