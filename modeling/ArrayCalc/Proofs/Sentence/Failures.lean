import ArrayCalc.Proofs.Lexer.Reading
import ArrayCalc.Proofs.Numeral.Lists
import ArrayCalc.Proofs.Sentence.Evaluation
import ArrayCalc.Proofs.Verb.Catalog
/-!
What a sentence may fail with.

* `Evaluation.FailsWith`: an evaluation all of whose failures are of one sort, and how this carries
  over to steps one after the other;
* `Expected`: the failures of sentences made of given words, each with the word that it is about;
* `StepsFailWith`: the steps of a sentence fail with failures of one sort; and so, along the scan,
  do expressions, statements and lines;
* `nounOf_failsWith`, `monadStep_failsWith`, `dyadStep_failsWith`: for which reasons the steps of a
  sentence fail; `stepsFailWith_expected`: all of them are expected of the primitive verbs;
* `evaluate_failure_expected`: **so does every source**, unless it cannot be cut into words;
* `evaluate_contained`: **no alarm of a verb gets out of a source**, whatever the verbs are.
-/

namespace ArrayCalc

open Lexer

namespace Evaluation

variable {α β : Type} {P : Failure → Prop}

/-- In every environment, the evaluation succeeds or fails with a failure of this sort. -/
def FailsWith (P : Failure → Prop) (e : Evaluation α) : Prop :=
  ∀ env f after, e.carryOut env = (.error f, after) → P f

lemma failsWith_pure (a : α) : (pure a : Evaluation α).FailsWith P := by
  rintro env f after ⟨⟩

lemma failsWith_throw {f : Failure} (h : P f) : (throw f : Evaluation α).FailsWith P := by
  rintro env g after ⟨⟩
  exact h

/-- A result that does not touch the environment. -/
lemma failsWith_mk {r : Except Failure α} (h : ∀ f, r = .error f → P f) :
    FailsWith P (ExceptT.mk (pure r)) := by
  intro env f after hrun
  exact h f (Prod.mk.inj hrun).1

lemma failsWith_look {r : Except Error α} (h : ∀ e, r = .error e → P (.plain e)) :
    (look r).FailsWith P := by
  refine failsWith_mk fun f hf => ?_
  cases r with
  | ok a => cases hf
  | error e =>
    cases hf
    exact h e rfl

lemma eq_ok_of_carryOut_look {r : Except Error α} {a : α} {env next : Environment}
    (h : (look r).carryOut env = (.ok a, next)) : r = .ok a := by
  cases r with
  | ok b =>
    cases h
    rfl
  | error e => cases h

lemma failsWith_apply {v : Valence} {t : Token} {r : Except Error Noun}
    (h : ∀ e, r = .error e → P (failureOf v t e)) : (apply v t r).FailsWith P := by
  refine failsWith_mk fun f hf => ?_
  cases r with
  | ok a => cases hf
  | error e =>
    cases hf
    exact h e rfl

/-- Steps one after the other fail with one of their failures. -/
lemma FailsWith.bind {e : Evaluation α} {k : α → Evaluation β} (he : e.FailsWith P)
    (hk : ∀ env a next, e.carryOut env = (.ok a, next) → (k a).FailsWith P) :
    (e >>= k).FailsWith P := by
  intro env f after hf
  cases hrun : e.carryOut env with
  | mk r next =>
    cases r with
    | ok a =>
      rw [carryOut_bind_ok hrun] at hf
      exact hk env a next hrun next f after hf
    | error g =>
      rw [carryOut_bind_error hrun] at hf
      cases hf
      exact he env _ _ hrun

end Evaluation

open Evaluation

/-! ### Steps and sentences -/

/-- The steps of a sentence of these words, and what its words do where they make no sense, fail
only with failures of this sort. -/
structure StepsFailWith (registry : Registry) (words : List Token) (P : Failure → Prop) : Prop where
  noun : ∀ t ∈ words, (nounOf t).FailsWith P
  monad : ∀ t ∈ words, t.kind = .operator → ∀ right, (monadStep registry t right).FailsWith P
  dyad : ∀ l ∈ words, ∀ t ∈ words, t.kind = .operator →
    ∀ right, (dyadStep registry l t right).FailsWith P
  nonsensical : ∀ t ∈ words, t.kind ≠ .operator →
    P ⟨.evaluation (.nonsensical t.kind t.text t.pos), []⟩
  nothing : ∀ t ∈ words, t.kind = .name → P ⟨.evaluation (.nothingToAssign t.text), []⟩

namespace StepsFailWith

variable {registry : Registry} {words : List Token} {P : Failure → Prop}

lemma scan (h : StepsFailWith registry words P) {ts : List Token} (hts : ∀ t ∈ ts, t ∈ words)
    (right : Noun) : (scan registry ts right).FailsWith P := by
  induction ts using scan_induction generalizing right with
  | nil =>
    rw [scan_nil]
    exact failsWith_pure right
  | nonsensical t ts ht =>
    rw [scan_nonsensical _ ht]
    exact failsWith_throw (h.nonsensical t (hts t List.mem_cons_self) ht)
  | monad t ts ht hrest ih =>
    obtain ⟨hmem, htail⟩ := List.forall_mem_cons.mp hts
    rw [scan_monad _ ht hrest]
    exact (h.monad t hmem ht right).bind fun _ next _ _ => ih htail next
  | dyad t l ts ht hl ih =>
    obtain ⟨hmem, htail⟩ := List.forall_mem_cons.mp hts
    obtain ⟨hleft, htail⟩ := List.forall_mem_cons.mp htail
    rw [scan_dyad _ ht hl]
    exact (h.dyad l hleft t hmem ht right).bind fun _ next _ _ => ih htail next

lemma expression (h : StepsFailWith registry words P) {ts : List Token}
    (hts : ∀ t ∈ ts, t ∈ words) (hne : ts ≠ []) : (expression registry ts hne).FailsWith P := by
  refine (h.noun _ (hts _ (List.getLast_mem hne))).bind fun _ right _ _ =>
    h.scan (fun t ht => hts t ?_) right
  exact List.dropLast_subset ts (List.mem_reverse.mp ht)

lemma statement (h : StepsFailWith registry words P) {ts : List Token} (hne : ts ≠ [])
    (hts : ∀ t ∈ ts, t ∈ words) : (statement registry ts hne).FailsWith P := by
  induction ts, hne using statement_induction with
  | phrase ts hne hphrase =>
    rw [statement_of_phrase _ hne hphrase]
    exact h.expression hts hne
  | nothing name symbol hne hs =>
    rw [statement_of_nothing _ hs]
    exact failsWith_throw (h.nothing name (List.forall_mem_cons.mp hts).1
      (kinds_of_isAssignment hs).1)
  | assign name symbol ts hne hnil hs ih =>
    obtain ⟨-, htail⟩ := List.forall_mem_cons.mp hts
    rw [statement_of_assignment _ hs hnil]
    refine (ih (List.forall_mem_cons.mp htail).2).bind fun _ v _ _ => ?_
    refine FailsWith.bind ?_ fun _ _ _ _ => failsWith_pure v
    rintro env f after ⟨⟩

lemma foldlM_follow (h : StepsFailWith registry words P) {ss : List Statement}
    (hss : ∀ s ∈ ss, ∀ t ∈ s.1, t ∈ words) (last : Option Noun) :
    (ss.foldlM (follow registry) last).FailsWith P := by
  induction ss generalizing last with
  | nil => exact failsWith_pure last
  | cons s ss ih =>
    obtain ⟨hs, htail⟩ := List.forall_mem_cons.mp hss
    rw [List.foldlM_cons]
    refine FailsWith.bind ?_ fun _ v _ _ => ih htail v
    rw [follow, ← bind_pure_comp]
    exact (h.statement s.2 hs).bind fun _ v _ _ => failsWith_pure _

/-- A line of words fails only as the steps of its sentences may. -/
lemma interpret (h : StepsFailWith registry words P) : (interpret registry words).FailsWith P :=
  h.foldlM_follow (fun _ hs _ ht => mem_of_mem_statements hs ht) none

end StepsFailWith

/-! ### The failures of a sentence -/

/-- How a sentence of these words may fail where verbs are the primitive ones: a numeral is none; a
symbol is no verb; a word makes no sense where it stands; or a verb at one of the words fails, a
dyad because its operands do not agree, or the monad that counts up because of its extents. -/
inductive Expected (words : List Token) : Failure → Prop
  | literal {t text e} : t ∈ words → t.kind = .number → text ∈ t.parts →
      readNumeral text = .error e → Expected words ⟨.literal text, [.numeral e]⟩
  | unknownVerb {t} (v : Valence) : t ∈ words → t.kind = .operator →
      Expected words ⟨.unknownVerb v t.text, []⟩
  | undefinedName {t} : t ∈ words → t.kind = .name →
      Expected words ⟨.evaluation (.undefinedName t.text t.pos), []⟩
  | stringLiteral {t} : t ∈ words → t.kind = .string →
      Expected words ⟨.evaluation (.stringLiteral t.pos), []⟩
  | expectedNoun {t} : t ∈ words → t.kind ≠ .number → t.kind ≠ .name →
      Expected words ⟨.evaluation (.expectedNoun t.kind t.text t.pos), []⟩
  | nonsensical {t} : t ∈ words → t.kind ≠ .operator →
      Expected words ⟨.evaluation (.nonsensical t.kind t.text t.pos), []⟩
  | nothingToAssign {t} : t ∈ words → t.kind = .name →
      Expected words ⟨.evaluation (.nothingToAssign t.text), []⟩
  | disagreement {t} {a b : List Nat} : t ∈ words → t.kind = .operator →
      t.text ∈ agreeingSymbols → ¬ (a <:+ b ∨ b <:+ a) →
      Expected words
        ⟨.evaluation (.failed .dyadic t.text t.pos), [.shape (.disagreement a b)]⟩
  | domain {t} (d : DomainError) : t ∈ words → t.kind = .operator → t.text = countingSymbol →
      Expected words ⟨.evaluation (.failed .monadic t.text t.pos), [.domain d]⟩

/-! ### Numerals -/

/-- A numeral word fails for one of its parts. -/
lemma numberLiteral_eq_error {t : Token} (hk : t.kind = .number) {f : Failure}
    (h : numberLiteral t = .error f) : ∃ text ∈ t.parts, readLiteral text = .error f := by
  rw [numberLiteral_eq hk, map_eq_error_iff, mapM_eq_error_iff] at h
  obtain ⟨before, text, after, hparts, -, htext⟩ := h
  exact ⟨text, hparts ▸ List.mem_append_right _ List.mem_cons_self, htext⟩

/-! ### The steps of a sentence -/

section Steps

variable {P : Failure → Prop} {registry : Registry} {t : Token}

/-- A word has no noun for one of four reasons. -/
lemma nounOf_failsWith
    (hliteral : t.kind = .number → ∀ text ∈ t.parts, ∀ e, readNumeral text = .error e →
      P ⟨.literal text, [.numeral e]⟩)
    (hundefined : t.kind = .name → P ⟨.evaluation (.undefinedName t.text t.pos), []⟩)
    (hstring : t.kind = .string → P ⟨.evaluation (.stringLiteral t.pos), []⟩)
    (hother : t.kind ≠ .number → t.kind ≠ .name →
      P ⟨.evaluation (.expectedNoun t.kind t.text t.pos), []⟩) : (nounOf t).FailsWith P := by
  rw [nounOf]
  split
  · rename_i hk
    refine failsWith_mk fun f hf => ?_
    obtain ⟨text, htext, hr⟩ := numberLiteral_eq_error hk hf
    obtain ⟨e, he, rfl⟩ := readLiteral_eq_error hr
    exact hliteral hk text htext e he
  · rename_i hk
    refine FailsWith.bind (fun env f after hf => by cases hf) fun env next _ _ => ?_
    cases next.get? t.text with
    | some n => exact failsWith_pure n
    | none => exact failsWith_throw (hundefined hk)
  · rename_i hk
    exact failsWith_throw (hstring hk)
  · rename_i hn hm _
    exact failsWith_throw (hother hn hm)

/-- A verb is not found, or it fails. -/
lemma monadStep_failsWith {right : Noun} (hunknown : P ⟨.unknownVerb .monadic t.text, []⟩)
    (hfailed : ∀ f e, registry.monad t.text = .ok f → f right = .error e →
      P (failureOf .monadic t e)) : (monadStep registry t right).FailsWith P := by
  refine FailsWith.bind (failsWith_look fun e he => ?_) fun env f next hf => ?_
  · rw [Registry.monad_eq_error he]
    exact hunknown
  · exact failsWith_apply fun e he => hfailed f e (eq_ok_of_carryOut_look hf) he

/-- A verb is not found, the word on its left has no noun, or the verb fails. -/
lemma dyadStep_failsWith {l : Token} {right : Noun}
    (hunknown : P ⟨.unknownVerb .dyadic t.text, []⟩) (hleft : (nounOf l).FailsWith P)
    (hfailed : ∀ d left e, registry.dyad t.text = .ok d → d.apply left right = .error e →
      P (failureOf .dyadic t e)) : (dyadStep registry l t right).FailsWith P := by
  refine FailsWith.bind (failsWith_look fun e he => ?_) fun env d next hd => ?_
  · rw [Registry.dyad_eq_error he]
    exact hunknown
  · exact hleft.bind fun env left _ _ => failsWith_apply fun e he =>
      hfailed d left e (eq_ok_of_carryOut_look hd) he

end Steps

/-! ### Verbs of the catalog -/

variable {limit : Nat}

namespace Registry

/-- A monad of the catalog fails only if it counts up. -/
lemma error_of_monad_standard {symbol : String} {f : MonadicRule}
    (h : (standard limit).monad symbol = .ok f) {n : Noun} {e : Error} (he : f n = .error e) :
    symbol = countingSymbol ∧ ∃ d, e = .domain d ∧ d.repeated = [] := by
  rcases cases_of_monad h with ⟨result, hkeeps⟩ | ⟨hs, rfl⟩
  · obtain ⟨m, hm, -⟩ := hkeeps n
    rw [hm] at he
    cases he
  · exact ⟨hs, Primitive.exists_domain_of_iota_eq_error he⟩

/-- A dyad of the catalog fails only if its operands do not agree. -/
lemma error_of_dyad_standard {symbol : String} {d : Dyad}
    (h : (standard limit).dyad symbol = .ok d) {l r : Noun} {e : Error}
    (he : d.apply l r = .error e) :
    symbol ∈ agreeingSymbols ∧ ¬ (l.shape <:+ r.shape ∨ r.shape <:+ l.shape) ∧
      e = .shape (.disagreement l.shape r.shape) := by
  rcases cases_of_dyad h with ⟨hs, result, hagrees⟩ | ⟨side, rfl⟩
  · by_cases hapart : l.Apart r
    · rw [hagrees.failure l r hapart] at he
      cases he
      exact ⟨hs, Noun.apart_iff.mp hapart, rfl⟩
    · obtain ⟨m, hm, -⟩ := hagrees.value l r hapart
      rw [hm] at he
      cases he
  · cases side <;> cases he

end Registry

/-! ### Lines and sources -/

/-- A word of a line has no noun for an expected reason. -/
lemma nounOf_expected {words : List Token} {t : Token} (ht : t ∈ words) :
    (nounOf t).FailsWith (Expected words) :=
  nounOf_failsWith (fun hk _ htext _ he => .literal ht hk htext he) (.undefinedName ht)
    (.stringLiteral ht) (.expectedNoun ht)

/-- The steps of a sentence fail as expected where verbs are the primitive ones. -/
lemma stepsFailWith_expected (words : List Token) :
    StepsFailWith (.standard limit) words (Expected words) where
  noun _ ht := nounOf_expected ht
  monad t ht hk right := by
    refine monadStep_failsWith (.unknownVerb .monadic ht hk) fun f e hf he => ?_
    obtain ⟨hs, d, rfl, -⟩ := Registry.error_of_monad_standard hf he
    exact .domain d ht hk hs
  dyad l hl t ht hk right := by
    refine dyadStep_failsWith (.unknownVerb .dyadic ht hk) (nounOf_expected hl)
      fun d left e hd he => ?_
    obtain ⟨hs, hagree, rfl⟩ := Registry.error_of_dyad_standard hd he
    exact .disagreement ht hk hs hagree
  nonsensical _ ht hk := .nonsensical ht hk
  nothing _ ht hk := .nothingToAssign ht hk

/-- A line of words fails only as its words may. -/
lemma interpret_failsWith (ts : List Token) :
    (interpret (.standard limit) ts).FailsWith (Expected ts) :=
  (stepsFailWith_expected ts).interpret

/-- Only an open quote keeps a source from being cut into words. -/
lemma unterminated_of_tokenize_eq_error {source : String} {e : LexError}
    (h : tokenize source = .error e) : ∃ start stop, e = .unterminated start stop := by
  rw [tokenize_eq] at h
  dsimp only at h
  split at h
  · cases h
    exact ⟨_, _, rfl⟩
  · cases h

/-- **The failures of a source** where verbs are the primitive ones.  A source that cannot be cut
into words has an open quote and fails with that alone.  Any other fails as expected of its words:
for a numeral, with the reason why it is none; for a symbol that is no verb or a word out of place,
without a cause; or for a verb at its place, because two shapes do not agree or because extents are
out of the domain. -/
theorem evaluate_failure_expected (limit : Nat) (source : String) (env after : Environment)
    (f : Failure) (h : (evaluate (.standard limit) source).carryOut env = (.error f, after)) :
    (∃ start stop, tokenize source = .error (.unterminated start stop) ∧
      f = ⟨.lex (.unterminated start stop), []⟩) ∨
    ∃ words, tokenize source = .ok words ∧ Expected words f := by
  rw [evaluate] at h
  cases ht : tokenize source with
  | error e =>
    rw [ht] at h
    cases h
    obtain ⟨start, stop, rfl⟩ := unterminated_of_tokenize_eq_error ht
    exact .inl ⟨start, stop, rfl, rfl⟩
  | ok words =>
    rw [ht] at h
    exact .inr ⟨words, rfl, interpret_failsWith words env f after h⟩

/-- Two numbers and the first three numbers do not agree; and the failure says so. -/
theorem failure_expected_disagreement :
    let source := "1 2 + i. 3"
    let f : Failure :=
      ⟨.evaluation (.failed .dyadic "+" 4), [.shape (.disagreement [2] [3])]⟩
    (∃ after, (evaluate (.standard defaultLimit) source).carryOut .empty = (.error f, after)) ∧
    ((∃ start stop, tokenize source = .error (.unterminated start stop) ∧
        f = ⟨.lex (.unterminated start stop), []⟩) ∨
      ∃ words, tokenize source = .ok words ∧ Expected words f) := by
  intro source f
  have hfailure : (match (evaluate (.standard defaultLimit) source).carryOut .empty with
      | (.error g, _) => some g
      | (.ok _, _) => none) = some f := by decide +kernel
  cases hrun : (evaluate (.standard defaultLimit) source).carryOut .empty with
  | mk r after =>
    rw [hrun] at hfailure
    cases r with
    | ok v => cases hfailure
    | error g =>
      cases hfailure
      exact ⟨⟨after, rfl⟩, evaluate_failure_expected _ _ _ _ _ hrun⟩

/-! ### Alarms -/

/-- A failure that tells no alarm of a verb as it is: its error is none, and its causes are errors
of running sentences, unless the error is about reading. -/
structure Failure.Contained (f : Failure) : Prop where
  error : ∀ a, f.error.family = .alarm a → a.isVerbFailure = false
  causes : ∀ c ∈ f.causes, c.family = .runtime ∨ f.error.family = .reading

namespace Failure

lemma contained_of_runtime {e : Error} {causes : List Error} (he : e.family = .runtime)
    (hcauses : ∀ c ∈ causes, c.family = .runtime) : Contained ⟨e, causes⟩ where
  error a ha := by
    rw [he] at ha
    cases ha
  causes c hc := .inl (hcauses c hc)

lemma contained_of_reading {e : Error} {causes : List Error} (he : e.family = .reading) :
    Contained ⟨e, causes⟩ where
  error a ha := by
    rw [he] at ha
    cases ha
  causes _ _ := .inr he

end Failure

/-- Whatever an error is, it is classified as an error of running sentences. -/
lemma Error.family_classified (e : Error) : e.classified.family = .runtime := by
  rw [classified]
  split_ifs <;> rfl

/-- What a verb fails with is contained. -/
lemma contained_failureOf (v : Valence) (t : Token) (e : Error) : (failureOf v t e).Contained := by
  rw [failureOf]
  split
  · rename_i he
    exact Failure.contained_of_runtime rfl (List.forall_mem_singleton.mpr he)
  · rename_i a ha
    split
    · exact Failure.contained_of_runtime rfl (List.forall_mem_singleton.mpr e.family_classified)
    · rename_i hpasses
      refine ⟨fun b hb => ?_, fun _ hc => by cases hc⟩
      obtain rfl : a = b := Error.Family.alarm.inj (ha.symm.trans hb)
      exact Bool.eq_false_iff.mpr hpasses
  · rename_i he
    exact Failure.contained_of_reading he

/-- **No alarm of a verb gets out of a source**, whatever the verbs are: an alarm that counts as the
failure of a verb is classified and becomes the cause of a failure of the sentence. -/
theorem evaluate_contained (registry : Registry) (source : String) :
    (evaluate registry source).FailsWith Failure.Contained := by
  have hplain : ∀ {e : Error}, e.family = .runtime → Failure.Contained ⟨e, []⟩ :=
    fun he => Failure.contained_of_runtime he (List.forall_mem_nil _)
  have hnoun : ∀ t, (nounOf t).FailsWith Failure.Contained := fun t =>
    nounOf_failsWith (fun _ _ _ _ _ => Failure.contained_of_reading rfl) (fun _ => hplain rfl)
      (fun _ => hplain rfl) fun _ _ => hplain rfl
  rw [evaluate]
  cases tokenize source with
  | error e => exact failsWith_throw (Failure.contained_of_reading rfl)
  | ok words =>
    exact StepsFailWith.interpret
      { noun := fun t _ => hnoun t
        monad := fun t _ _ _ =>
          monadStep_failsWith (hplain rfl) fun _ e _ _ => contained_failureOf .monadic t e
        dyad := fun l _ t _ _ _ =>
          dyadStep_failsWith (hplain rfl) (hnoun l) fun _ _ e _ _ => contained_failureOf .dyadic t e
        nonsensical := fun _ _ _ => hplain rfl
        nothing := fun _ _ _ => hplain rfl }

end ArrayCalc
