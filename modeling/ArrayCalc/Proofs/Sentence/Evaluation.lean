import ArrayCalc.Sentence
import Mathlib.Tactic.Lemma
/-!
What evaluations do to the environment.

* `Evaluation.carryOut_bind`: one step after the other: a failure of the first step is the failure
  of both, in the environment that the first step left;
* `Evaluation.Yields`: the result of an evaluation in an environment that it leaves as it is, with
  one lemma for each of the steps a sentence is made of;
* `Evaluation.Steady`: an evaluation that never changes the environment; `scan_steady` and
  `expression_steady`: whatever the words are, reading an expression is one;
* `carryOut_bindName`: the only step that does change the environment;
* `scan_induction`, `statement_induction`: induction along what is read, the words of an expression
  from the right and the assignments of a statement from the left;
* `statements_append`, `mem_of_mem_statements`: the statements of a line, parted by line ends;
* `carryOut_evaluate_numeral`: a source of one numeral word is worth the noun of that word.
-/

namespace ArrayCalc

open Lexer

namespace Evaluation

variable {α β : Type}

@[simp] lemma carryOut_pure (a : α) (env : Environment) :
    (pure a : Evaluation α).carryOut env = (.ok a, env) := rfl

@[simp] lemma carryOut_throw (f : Failure) (env : Environment) :
    (throw f : Evaluation α).carryOut env = (.error f, env) := rfl

@[simp] lemma carryOut_get (env : Environment) :
    (get : Evaluation Environment).carryOut env = (.ok env, env) := rfl

@[simp] lemma carryOut_set (next env : Environment) :
    (set next : Evaluation PUnit).carryOut env = (.ok ⟨⟩, next) := rfl

lemma carryOut_bind (e : Evaluation α) (k : α → Evaluation β) (env : Environment) :
    (e >>= k).carryOut env =
      match e.carryOut env with
      | (.ok a, next) => (k a).carryOut next
      | (.error f, next) => (.error f, next) := by
  simp only [carryOut, StateT.run, ExceptT.run, bind, ExceptT.bind, ExceptT.mk, StateT.bind]
  obtain ⟨r, next⟩ := e env
  cases r <;> rfl

lemma carryOut_bind_ok {e : Evaluation α} {a : α} {env next : Environment}
    (h : e.carryOut env = (.ok a, next)) (k : α → Evaluation β) :
    (e >>= k).carryOut env = (k a).carryOut next := by
  rw [carryOut_bind, h]

lemma carryOut_bind_error {e : Evaluation α} {f : Failure} {env next : Environment}
    (h : e.carryOut env = (.error f, next)) (k : α → Evaluation β) :
    (e >>= k).carryOut env = (.error f, next) := by
  rw [carryOut_bind, h]

/-- Two steps succeed only one after the other. -/
lemma carryOut_bind_eq_ok {e : Evaluation α} {k : α → Evaluation β} {b : β}
    {env after : Environment} (h : (e >>= k).carryOut env = (.ok b, after)) :
    ∃ a next, e.carryOut env = (.ok a, next) ∧ (k a).carryOut next = (.ok b, after) := by
  rw [carryOut_bind] at h
  generalize he : e.carryOut env = p at h
  obtain ⟨r, next⟩ := p
  cases r with
  | ok a => exact ⟨a, next, rfl, h⟩
  | error f => cases h

/-! ### Evaluations that leave the environment as it is -/

/-- In this environment the evaluation comes to a result and leaves the environment as it is. -/
def Yields (e : Evaluation α) (env : Environment) (r : Except Failure α) : Prop :=
  e.carryOut env = (r, env)

lemma yields_pure (a : α) (env : Environment) : (pure a : Evaluation α).Yields env (.ok a) := rfl

lemma yields_throw (f : Failure) (env : Environment) :
    (throw f : Evaluation α).Yields env (.error f) := rfl

lemma yields_mk (r : Except Failure α) (env : Environment) :
    Yields (ExceptT.mk (pure r)) env r := rfl

lemma yields_look (r : Except Error α) (env : Environment) :
    (look r).Yields env (r.mapError .plain) := rfl

lemma yields_apply (v : Valence) (t : Token) (r : Except Error Noun) (env : Environment) :
    (apply v t r).Yields env (r.mapError (failureOf v t)) := rfl

lemma Yields.bind {e : Evaluation α} {k : α → Evaluation β} {env : Environment}
    {r : Except Failure α} {s : α → Except Failure β} (he : e.Yields env r)
    (hk : ∀ a, (k a).Yields env (s a)) : (e >>= k).Yields env (r >>= s) := by
  cases r with
  | ok a => exact (carryOut_bind_ok he k).trans (hk a)
  | error f => exact carryOut_bind_error he k

/-- The evaluation never changes the environment, be there a value or a failure. -/
def Steady (e : Evaluation α) : Prop := ∀ env, ∃ r, e.Yields env r

lemma Steady.bind {e : Evaluation α} {k : α → Evaluation β} (he : e.Steady)
    (hk : ∀ a, (k a).Steady) : (e >>= k).Steady := by
  intro env
  obtain ⟨r, hr⟩ := he env
  cases r with
  | ok a =>
    obtain ⟨s, hs⟩ := hk a env
    exact ⟨s, (carryOut_bind_ok hr k).trans hs⟩
  | error f => exact ⟨.error f, carryOut_bind_error hr k⟩

lemma Steady.eq {e : Evaluation α} (he : e.Steady) {env after : Environment}
    {r : Except Failure α} (h : e.carryOut env = (r, after)) : after = env := by
  obtain ⟨s, hs⟩ := he env
  have heq : (s, env) = (r, after) := hs.symm.trans h
  exact (Prod.mk.inj heq).2.symm

end Evaluation

open Evaluation

/-! ### The steps of a sentence -/

lemma nounOf_steady (t : Token) : (nounOf t).Steady := by
  intro env
  unfold nounOf
  split
  · exact ⟨_, yields_mk _ env⟩
  · refine Steady.bind (fun env => ⟨_, rfl⟩) (fun next env => ?_) env
    cases next.get? t.text with
    | some n => exact ⟨_, yields_pure n env⟩
    | none => exact ⟨_, yields_throw _ env⟩
  · exact ⟨_, yields_throw _ env⟩
  · exact ⟨_, yields_throw _ env⟩

/-- A name bound to a noun: the environment takes it. -/
lemma carryOut_bindName (name : String) (n : Noun) (env : Environment) :
    (bindName name (.noun n)).carryOut env = (.ok (), env.set name n) := rfl

/-- A verb with the noun on its right. -/
def monadStep (registry : Registry) (t : Token) (right : Noun) : Evaluation Noun := do
  let f ← look (registry.monad t.text)
  apply .monadic t (f right)

/-- A verb with the word on its left and the noun on its right. -/
def dyadStep (registry : Registry) (l t : Token) (right : Noun) : Evaluation Noun := do
  let f ← look (registry.dyad t.text)
  let left ← nounOf l
  apply .dyadic t (f.apply left right)

lemma monadStep_steady (registry : Registry) (t : Token) (right : Noun) :
    (monadStep registry t right).Steady :=
  Steady.bind (fun _ => ⟨_, rfl⟩) fun _ _ => ⟨_, rfl⟩

lemma dyadStep_steady (registry : Registry) (l t : Token) (right : Noun) :
    (dyadStep registry l t right).Steady :=
  Steady.bind (fun _ => ⟨_, rfl⟩) fun _ => (nounOf_steady l).bind fun _ _ => ⟨_, rfl⟩

/-! ### Looking verbs up -/

namespace Registry

/-- The only failure to find a rule for one noun is that there is none. -/
lemma monad_eq_error {registry : Registry} {symbol : String} {e : Error}
    (h : registry.monad symbol = .error e) : e = .unknownVerb .monadic symbol := by
  rw [monad] at h
  split at h
  · cases h
  · cases h
    rfl

/-- The only failure to find a rule for two nouns is that there is none. -/
lemma dyad_eq_error {registry : Registry} {symbol : String} {e : Error}
    (h : registry.dyad symbol = .error e) : e = .unknownVerb .dyadic symbol := by
  rw [dyad] at h
  split at h
  · cases h
  · cases h
    rfl

end Registry

/-! ### The scan from right to left -/

/-- The first of some words can stand to the left of a verb. -/
def headIsNoun : List Token → Bool
  | [] => false
  | t :: _ => t.kind.isNoun

lemma scan_nil (registry : Registry) : scan registry [] = pure := by
  funext right
  rw [scan]

lemma scan_nonsensical (registry : Registry) {t : Token} (ht : t.kind ≠ .operator)
    (rest : List Token) (right : Noun) :
    scan registry (t :: rest) right =
      throw (.plain (.evaluation (.nonsensical t.kind t.text t.pos))) := by
  cases rest <;> rw [scan, if_pos ht] <;> rfl

lemma scan_monad (registry : Registry) {t : Token} (ht : t.kind = .operator)
    {rest : List Token} (hrest : headIsNoun rest = false) (right : Noun) :
    scan registry (t :: rest) right = monadStep registry t right >>= scan registry rest := by
  cases rest with
  | nil =>
    rw [scan, if_neg (not_not_intro ht), scan_nil, bind_pure]
    rfl
  | cons l rest =>
    rw [scan, if_neg (not_not_intro ht)]
    simp only [monadStep, bind_assoc, show l.kind.isNoun = false from hrest]
    rfl

lemma scan_dyad (registry : Registry) {t l : Token} (ht : t.kind = .operator)
    (hl : l.kind.isNoun = true) (rest : List Token) (right : Noun) :
    scan registry (t :: l :: rest) right = dyadStep registry l t right >>= scan registry rest := by
  rw [scan, if_neg (not_not_intro ht)]
  simp only [dyadStep, bind_assoc, hl, if_true]

/-- **Induction along the scan**, the words nearest first: no words are left, the nearest one is
no verb, it is a verb without a noun on its left, or one with it. -/
@[elab_as_elim]
theorem scan_induction {P : List Token → Prop} (nil : P [])
    (nonsensical : ∀ t ts, t.kind ≠ .operator → P (t :: ts))
    (monad : ∀ t ts, t.kind = .operator → headIsNoun ts = false → P ts → P (t :: ts))
    (dyad : ∀ t l ts, t.kind = .operator → l.kind.isNoun = true → P ts → P (t :: l :: ts)) :
    ∀ ts, P ts
  | [] => nil
  | [t] => by
    by_cases ht : t.kind = .operator
    · exact monad t [] ht rfl nil
    · exact nonsensical t [] ht
  | t :: l :: ts => by
    by_cases ht : t.kind = .operator
    · cases hl : l.kind.isNoun with
      | true => exact dyad t l ts ht hl (scan_induction nil nonsensical monad dyad ts)
      | false =>
        exact monad t (l :: ts) ht hl (scan_induction nil nonsensical monad dyad (l :: ts))
    · exact nonsensical t (l :: ts) ht

/-- Words are read in two goes wherever no noun is torn from the verb on its right. -/
lemma scan_append (registry : Registry) {ys : List Token} (hys : headIsNoun ys = false)
    (xs : List Token) (right : Noun) :
    scan registry (xs ++ ys) right = scan registry xs right >>= scan registry ys := by
  induction xs using scan_induction generalizing right with
  | nil => rw [List.nil_append, scan_nil, pure_bind]
  | nonsensical t xs ht =>
    rw [List.cons_append, scan_nonsensical registry ht, scan_nonsensical registry ht]
    rfl
  | monad t xs ht hxs ih =>
    have happ : headIsNoun (xs ++ ys) = false := by
      cases xs with
      | nil => exact hys
      | cons l xs => exact hxs
    rw [List.cons_append, scan_monad registry ht happ, scan_monad registry ht hxs, bind_assoc]
    exact congrArg _ (funext ih)
  | dyad t l xs ht hl ih =>
    rw [List.cons_append, List.cons_append, scan_dyad registry ht hl, scan_dyad registry ht hl,
      bind_assoc]
    exact congrArg _ (funext ih)

/-- Reading words from right to left never changes the environment. -/
lemma scan_steady (registry : Registry) (ts : List Token) (right : Noun) :
    (scan registry ts right).Steady := by
  induction ts using scan_induction generalizing right with
  | nil =>
    rw [scan_nil]
    exact fun env => ⟨_, yields_pure right env⟩
  | nonsensical t ts ht =>
    rw [scan_nonsensical registry ht]
    exact fun env => ⟨_, yields_throw _ env⟩
  | monad t ts ht hts ih =>
    rw [scan_monad registry ht hts]
    exact (monadStep_steady registry t right).bind ih
  | dyad t l ts ht hl ih =>
    rw [scan_dyad registry ht hl]
    exact (dyadStep_steady registry l t right).bind ih

lemma expression_steady (registry : Registry) (ts : List Token) (h : ts ≠ []) :
    (expression registry ts h).Steady :=
  (nounOf_steady _).bind (scan_steady registry _)

/-! ### Statements -/

lemma kinds_of_isAssignment {name symbol : Token} (h : isAssignment name symbol = true) :
    name.kind = .name ∧ symbol.kind = .operator := by
  simp only [isAssignment, Bool.and_eq_true, decide_eq_true_eq] at h
  exact h.1

/-- The words open with a name and the symbol that assigns. -/
def opensAssignment : List Token → Bool
  | name :: symbol :: _ => isAssignment name symbol
  | _ => false

/-- **Induction along the assignments** that words open with: there is none, or there are words
behind the first one. -/
@[elab_as_elim]
theorem assignment_induction {P : List Token → Prop}
    (phrase : ∀ ts, opensAssignment ts = false → P ts)
    (assign : ∀ name symbol ts, isAssignment name symbol = true → P ts →
      P (name :: symbol :: ts)) : ∀ ts, P ts
  | [] => phrase [] rfl
  | [t] => phrase [t] rfl
  | name :: symbol :: ts => by
    cases hs : isAssignment name symbol with
    | false => exact phrase (name :: symbol :: ts) hs
    | true => exact assign name symbol ts hs (assignment_induction phrase assign ts)

lemma statement_of_phrase (registry : Registry) {ts : List Token} (h : ts ≠ [])
    (hts : opensAssignment ts = false) : statement registry ts h = expression registry ts h := by
  match ts with
  | [] => exact absurd rfl h
  | [t] => rfl
  | name :: symbol :: rest =>
    have hs : isAssignment name symbol = false := hts
    unfold statement
    rw [hs, if_neg Bool.false_ne_true]

lemma statement_of_assignment (registry : Registry) {name symbol : Token} {ts : List Token}
    (hs : isAssignment name symbol = true) (hts : ts ≠ []) (h : name :: symbol :: ts ≠ []) :
    statement registry (name :: symbol :: ts) h = (do
      let v ← statement registry ts hts
      bindName name.text (.noun v)
      return v) := by
  match ts with
  | [] => exact absurd rfl hts
  | t :: ts => rw [statement, if_pos hs]

lemma statement_of_nothing (registry : Registry) {name symbol : Token}
    (hs : isAssignment name symbol = true) (h : [name, symbol] ≠ []) :
    statement registry [name, symbol] h =
      throw (.plain (.evaluation (.nothingToAssign name.text))) := by
  rw [statement, if_pos hs]

/-- **Induction along a statement**: it is a phrase, or an assignment of nothing, or one of the
statement behind it. -/
@[elab_as_elim]
theorem statement_induction {P : (ts : List Token) → ts ≠ [] → Prop}
    (phrase : ∀ ts h, opensAssignment ts = false → P ts h)
    (nothing : ∀ name symbol h, isAssignment name symbol = true → P [name, symbol] h)
    (assign : ∀ name symbol ts h hts, isAssignment name symbol = true → P ts hts →
      P (name :: symbol :: ts) h) (ts : List Token) (h : ts ≠ []) : P ts h := by
  induction ts using assignment_induction with
  | phrase ts hphrase => exact phrase ts h hphrase
  | assign name symbol ts hs ih =>
    by_cases hts : ts = []
    · subst hts
      exact nothing name symbol h hs
    · exact assign name symbol ts h hts hs (ih hts)

/-- A statement that fails leaves the environment as it was: names are bound on the way out of what
has succeeded. -/
lemma carryOut_statement_error {registry : Registry} {ts : List Token} {h : ts ≠ []}
    {env after : Environment} {f : Failure}
    (hf : (statement registry ts h).carryOut env = (.error f, after)) : after = env := by
  induction ts, h using statement_induction with
  | phrase ts h hphrase =>
    rw [statement_of_phrase registry h hphrase] at hf
    exact (expression_steady registry ts h).eq hf
  | nothing name symbol h hs =>
    rw [statement_of_nothing registry hs] at hf
    exact Steady.eq (fun env => ⟨_, yields_throw _ env⟩) hf
  | assign name symbol ts h hts hs ih =>
    rw [statement_of_assignment registry hs hts] at hf
    cases hrun : (statement registry ts hts).carryOut env with
    | mk r next =>
      cases r with
      | ok v =>
        rw [carryOut_bind_ok hrun, carryOut_bind_ok (carryOut_bindName _ v next)] at hf
        cases hf
      | error g =>
        rw [carryOut_bind_error hrun] at hf
        cases hf
        exact ih hrun

/-! ### The statements of a line -/

lemma splitLines_ne_nil (ts : List Token) : splitLines ts ≠ [] := by
  cases ts with
  | nil => exact List.cons_ne_nil _ _
  | cons t ts =>
    rw [splitLines]
    split
    · exact List.cons_ne_nil _ _
    · split <;> exact List.cons_ne_nil _ _

/-- Line ends part the words of a line. -/
lemma splitLines_append {e : Token} (he : e.kind = .eol) (xs ys : List Token) :
    splitLines (xs ++ e :: ys) = splitLines xs ++ splitLines ys := by
  induction xs with
  | nil =>
    show splitLines (e :: ys) = [] :: splitLines ys
    rw [splitLines, if_pos he]
  | cons t xs ih =>
    rw [List.cons_append, splitLines, splitLines, ih]
    split
    · rfl
    · cases hsplit : splitLines xs with
      | nil => exact absurd hsplit (splitLines_ne_nil xs)
      | cons l ls => rfl

lemma nonempty_append (ks ls : List (List Token)) :
    nonempty (ks ++ ls) = nonempty ks ++ nonempty ls := by
  induction ks with
  | nil => rfl
  | cons k ks ih =>
    cases k with
    | nil => exact ih
    | cons t ts => exact congrArg (_ :: ·) ih

/-- The statements before a line end come first, and those behind it follow. -/
lemma statements_append {e : Token} (he : e.kind = .eol) (xs ys : List Token) :
    statements (xs ++ e :: ys) = statements xs ++ statements ys := by
  rw [statements, splitLines_append he, nonempty_append]
  rfl

lemma mem_of_mem_splitLines {t : Token} {ts l : List Token} (hl : l ∈ splitLines ts)
    (ht : t ∈ l) : t ∈ ts := by
  induction ts generalizing l with
  | nil =>
    rw [List.mem_singleton.mp hl] at ht
    cases ht
  | cons s ts ih =>
    rw [splitLines] at hl
    split at hl
    · rcases List.mem_cons.mp hl with rfl | hl
      · cases ht
      · exact List.mem_cons_of_mem s (ih hl ht)
    · split at hl
      · rw [List.mem_singleton.mp hl] at ht
        rw [List.mem_singleton.mp ht]
        exact List.mem_cons_self
      · rename_i first rest hsplit
        rw [hsplit] at ih
        rcases List.mem_cons.mp hl with rfl | hl
        · rcases List.mem_cons.mp ht with rfl | ht
          · exact List.mem_cons_self
          · exact List.mem_cons_of_mem s (ih List.mem_cons_self ht)
        · exact List.mem_cons_of_mem s (ih (List.mem_cons_of_mem first hl) ht)

lemma mem_of_mem_nonempty {ls : List (List Token)} {s : Statement} (h : s ∈ nonempty ls) :
    s.1 ∈ ls := by
  induction ls with
  | nil => cases h
  | cons l ls ih =>
    cases l with
    | nil => exact List.mem_cons_of_mem _ (ih h)
    | cons t ts =>
      rcases List.mem_cons.mp h with rfl | h
      · exact List.mem_cons_self
      · exact List.mem_cons_of_mem _ (ih h)

/-- The statements of a line are made of its words. -/
lemma mem_of_mem_statements {t : Token} {ts : List Token} {s : Statement} (hs : s ∈ statements ts)
    (ht : t ∈ s.1) : t ∈ ts :=
  mem_of_mem_splitLines (mem_of_mem_nonempty hs) ht

/-! ### A source of one word -/

/-- A source of one numeral word is worth the noun of that word. -/
lemma carryOut_evaluate_numeral (registry : Registry) (env : Environment) {source : String}
    {t e : Token} (h : tokenize source = .ok [t, e]) (ht : t.kind = .number) (he : e.kind = .eol) :
    (evaluate registry source).carryOut env = ((numberLiteral t).map some, env) := by
  have hlines : statements [t, e] = [⟨[t], List.cons_ne_nil t []⟩] := by
    simp only [statements, splitLines, ht, he, if_true, reduceCtorEq, if_false, nonempty]
  have hnoun : (nounOf t).carryOut env = (numberLiteral t, env) := by
    rw [nounOf, ht]
    rfl
  rw [evaluate, h]
  dsimp only
  rw [interpret, hlines]
  change ((some <$> (nounOf t >>= scan registry [])) >>= pure).carryOut env = _
  rw [scan_nil, bind_pure, bind_pure, ← bind_pure_comp, carryOut_bind, hnoun]
  cases numberLiteral t <;> rfl

end ArrayCalc
