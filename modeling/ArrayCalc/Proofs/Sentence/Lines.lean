import ArrayCalc.Proofs.Sentence.Retelling
/-!
A source of several lines is evaluated line by line.

* `Failure.later`: a failure told of a sentence that stands some places later; `Failure.ToldLater`:
  what stays the same, and what does not;
* `Evaluation.Relocates`: an evaluation that does what another one does, but tells its failures
  later; `performAfter_relocates`: so do statements whose words stand later;
* `statements_eq_nil_iff`, `performAfter_of_ok`: words that make no statement, and the value of
  statements that come after others;
* `evaluate_line_by_line`: **a source and another one on the next line** are evaluated one after the
  other.
-/

namespace ArrayCalc

open Lexer Text

/-! ### Failures told later -/

/-- The same complaint about a word that stands `n` places later. -/
def EvaluationError.later (n : Nat) : EvaluationError → EvaluationError
  | undefinedName name p => undefinedName name (p + n)
  | stringLiteral p => stringLiteral (p + n)
  | expectedNoun kind text p => expectedNoun kind text (p + n)
  | nonsensical kind text p => nonsensical kind text (p + n)
  | nothingToAssign name => nothingToAssign name
  | failed valence symbol p => failed valence symbol (p + n)
  | reported message => reported message

/-- Only complaints of a sentence have a place in it. -/
def Error.later (n : Nat) : Error → Error
  | evaluation e => evaluation (e.later n)
  | e => e

/-- The failure of a sentence that stands `n` places later; what led to it is the same. -/
def Failure.later (n : Nat) (f : Failure) : Failure := ⟨f.error.later n, f.causes⟩

/-- The second text is the first one, or the first one with an index in it that is `n` larger. -/
def SameButIndex (n : Nat) (s s' : String) : Prop :=
  s' = s ∨ ∃ (before after : String) (p : Int),
    s = before ++ p.repr ++ after ∧ s' = before ++ (p + n).repr ++ after

/-- The second failure is the first one, told of a sentence that stands `n` places later: it has the
same class and the same causes, and the wording differs in the index only. -/
structure Failure.ToldLater (n : Nat) (f g : Failure) : Prop where
  name : g.error.name = f.error.name
  causes : g.causes = f.causes
  message : SameButIndex n f.error.message g.error.message
  told : g = f.later n

/-- An index at the end of a text. -/
lemma sameButIndex_append (n : Nat) (before : String) (p : Int) :
    SameButIndex n (before ++ p.repr) (before ++ (p + n).repr) := by
  have hend : ∀ s : String, s ++ "" = s := fun _ => String.append_empty
  exact .inr ⟨before, "", p, (hend _).symm, (hend _).symm⟩

lemma EvaluationError.message_later (n : Nat) (e : EvaluationError) :
    SameButIndex n e.message (e.later n).message := by
  cases e with
  | undefinedName name p => exact sameButIndex_append n _ p
  | stringLiteral p => exact .inr ⟨"String literal at index ", " is not a noun", p, rfl, rfl⟩
  | expectedNoun kind text p =>
    -- the index stands in the middle: what comes behind it is one text
    have hmiddle : ∀ i : Int, "Expected a noun at index " ++ i.repr ++ ", found " ++ kind.label ++
        " " ++ quoted text = "Expected a noun at index " ++ i.repr ++
          (", found " ++ kind.label ++ " " ++ quoted text) := by
      intro i
      simp only [String.append_assoc]
    exact .inr ⟨_, _, p, hmiddle p, hmiddle (p + n)⟩
  | nonsensical kind text p => exact sameButIndex_append n _ p
  | nothingToAssign name => exact .inl rfl
  | failed valence symbol p => exact sameButIndex_append n _ p
  | reported message => exact .inl rfl

lemma Failure.toldLater (n : Nat) (f : Failure) : f.ToldLater n (f.later n) := by
  obtain ⟨e, causes⟩ := f
  cases e with
  | evaluation e => exact ⟨rfl, rfl, e.message_later n, rfl⟩
  | _ => exact ⟨rfl, rfl, .inl rfl, rfl⟩

/-- A verb at a word that stands later fails later. -/
lemma failureOf_later (n : Nat) (v : Valence) (t : Token) (e : Error) :
    failureOf v (t.later n) e = (failureOf v t e).later n := by
  cases e with
  | alarm a message => cases a <;> rfl
  | _ => rfl

/-! ### Evaluations that tell their failures later -/

/-- What is told of words that stand later is told later. -/
lemma Told.eq_later {n : Nat} {f g : Failure} (h : Told (fun t t' => t' = t.later n) f g) :
    g = f.later n := by
  cases h with
  | literal text e => rfl
  | unknownVerb v symbol => rfl
  | nothingToAssign name => rfl
  | verb v e ht =>
    rw [ht]
    exact failureOf_later n v _ e
  | _ ht =>
    rw [ht]
    rfl

/-- The second evaluation comes to what the first one comes to and does the same to the environment,
but it tells a failure `n` places later. -/
def Evaluation.Relocates {α : Type} (n : Nat) (e e' : Evaluation α) : Prop :=
  ∀ env, e'.carryOut env = ((e.carryOut env).1.mapError (Failure.later n), (e.carryOut env).2)

lemma Evaluation.Retells.relocates {α : Type} {n : Nat} {e e' : Evaluation α}
    (h : Retells (Told fun t t' => t' = t.later n) e e') : Relocates n e e' := by
  intro env
  have hrun := h env
  generalize e.carryOut env = p, e'.carryOut env = p' at hrun ⊢
  cases hrun with
  | value a after => rfl
  | failure htold after =>
    rw [htold.eq_later]
    rfl

open Evaluation

/-! ### Statements one after the other -/

/-- A statement whose words stand `n` places later. -/
def Statement.later (n : Nat) (s : Statement) : Statement :=
  ⟨s.1.map (Token.later n), fun h => s.2 (List.map_eq_nil_iff.mp h)⟩

/-- Statements whose words, one by one, are those of other statements `n` places later. -/
lemma forall₂_later_iff {n : Nat} {ss ss' : List Statement} :
    List.Forall₂ (fun s s' : Statement => List.Forall₂ (fun t t' => t' = t.later n) s.1 s'.1)
      ss ss' ↔ ss' = ss.map (Statement.later n) := by
  have hmap : ∀ {α β : Type} (f : α → β) (xs : List α) (ys : List β),
      List.Forall₂ (fun x y => y = f x) xs ys ↔ ys = xs.map f := by
    intro α β f xs ys
    rw [eq_comm, ← List.forall₂_eq_eq_eq, List.forall₂_map_left_iff]
    simp only [eq_comm]
  rw [← hmap]
  simp only [hmap, Subtype.ext_iff, Statement.later]

lemma statements_map_later (n : Nat) (ts : List Token) :
    statements (ts.map (Token.later n)) = (statements ts).map (Statement.later n) := by
  have hwords : List.Forall₂ (fun t t' => t' = t.later n) ts (ts.map (Token.later n)) := by
    rw [List.forall₂_map_right_iff]
    exact List.forall₂_same.mpr fun _ _ => rfl
  exact forall₂_later_iff.mp (statements_forall₂ sameWord_of_later hwords)

/-- Words that are nothing but line ends make no statement, and all other words make one. -/
lemma statements_eq_nil_iff {ts : List Token} :
    statements ts = [] ↔ ∀ t ∈ ts, t.kind = .eol := by
  induction ts with
  | nil => exact iff_of_true rfl (List.forall_mem_nil _)
  | cons t ts ih =>
    rw [List.forall_mem_cons, ← ih]
    by_cases ht : t.kind = .eol
    · rw [and_iff_right ht]
      exact Iff.of_eq (congrArg (· = []) (statements_append ht [] ts))
    · refine iff_of_false ?_ fun h => ht h.1
      rw [statements, splitLines, if_neg ht]
      cases splitLines ts <;> exact List.cons_ne_nil _ _

/-- The end of a source makes no statement. -/
lemma statements_dropLast {text : String} {ts : List Token} (h : tokenize text = .ok ts) :
    statements ts.dropLast = statements ts := by
  obtain ⟨-, rfl⟩ := tokenize_eq_ok_iff.mp h
  rw [wordsOf, List.dropLast_concat, statements_append rfl]
  exact (List.append_nil _).symm

section Perform

variable {registry : Registry} {last v? : Option Noun} {ss : List Statement}
  {env next after : Environment} {f : Failure}

lemma performAfter_relocates (n : Nat) (ss : List Statement) (last : Option Noun) :
    Relocates n (performAfter registry last ss)
      (performAfter registry last (ss.map (Statement.later n))) :=
  (performAfter_retells sameWord_of_later (forall₂_later_iff.mpr rfl) last).relocates

lemma performAfter_append_error (done rest : List Statement)
    (h : (performAfter registry last done).carryOut env = (.error f, next)) :
    (performAfter registry last (done ++ rest)).carryOut env = (.error f, next) := by
  rw [performAfter, List.foldlM_append]
  exact carryOut_bind_error h _

/-- Statements without a value are no statements, and none came before. -/
lemma eq_none_iff_of_performAfter
    (h : (performAfter registry last ss).carryOut env = (.ok v?, after)) :
    v? = none ↔ last = none ∧ ss = [] := by
  induction ss generalizing last env with
  | nil =>
    obtain ⟨⟨⟩, -⟩ := Prod.mk.inj h
    exact (and_iff_left rfl).symm
  | cons s ss ih =>
    cases hrun : (statement registry s.1 s.2).carryOut env with
    | mk r next =>
      cases r with
      | error f =>
        rw [performAfter_cons_error hrun] at h
        cases h
      | ok v =>
        rw [performAfter_cons_ok hrun] at h
        rw [ih h]
        exact iff_of_false (fun hv => Option.some_ne_none v hv.1)
          fun hs => List.cons_ne_nil s ss hs.2

/-- What came before gives the value if no statement does. -/
lemma performAfter_of_ok (h : (perform registry ss).carryOut env = (.ok v?, after))
    (last : Option Noun) :
    (performAfter registry last ss).carryOut env = (.ok (v?.or last), after) := by
  cases ss with
  | nil =>
    cases h
    rfl
  | cons s ss =>
    have hvalue : v? ≠ none := fun hnone =>
      List.cons_ne_nil s ss ((eq_none_iff_of_performAfter h).mp hnone).2
    obtain ⟨v, rfl⟩ := Option.ne_none_iff_exists'.mp hvalue
    exact h

lemma performAfter_of_error (h : (perform registry ss).carryOut env = (.error f, after))
    (last : Option Noun) : (performAfter registry last ss).carryOut env = (.error f, after) := by
  cases ss with
  | nil => cases h
  | cons s ss => exact h

end Perform

/-! ### Two sources, one on the line after the other -/

/-- A source in which a statement stands. -/
def HasStatement (source : String) : Prop :=
  ∃ ts, tokenize source = .ok ts ∧ statements ts ≠ []

lemma hasStatement_iff {source : String} {ts : List Token} (h : tokenize source = .ok ts) :
    HasStatement source ↔ statements ts ≠ [] := by
  refine ⟨?_, fun hs => ⟨ts, h, hs⟩⟩
  rintro ⟨ts', hts', hs⟩
  rw [h] at hts'
  cases hts'
  exact hs

/-- The statements of two lines: those of the first one, then those of the second one, later. -/
lemma evaluate_append_line (registry : Registry) {a b : String} {as bs : List Token}
    (ha : tokenize a = .ok as) (hb : tokenize b = .ok bs) :
    evaluate registry (a ++ "\n" ++ b) =
      perform registry (statements as ++ (statements bs).map (Statement.later (a.length + 1))) := by
  rw [evaluate_of_tokens (tokenize_append_line ha hb), statements_append rfl,
    statements_dropLast ha, statements_map_later]

/-- **A source of several lines is evaluated line by line.**  Take two sources, each with an even
number of quotes, and put the second one on the line after the first one.  If the first one fails,
so do both together, in the same way.  If it succeeds, both together do what the second one does in
the environment that the first one has made: they leave the same environment and fail as it fails,
told later; or they have its value, but that of the first one if it has no statement.  There is no
value exactly if both are spaces, tabs and line feeds. -/
theorem evaluate_line_by_line (registry : Registry) (a b : String)
    (ha : a.toList.count '\x22' % 2 = 0) (hb : b.toList.count '\x22' % 2 = 0)
    (env : Environment) :
    (∀ f mid, (evaluate registry a).carryOut env = (.error f, mid) →
      (evaluate registry (a ++ "\n" ++ b)).carryOut env = (.error f, mid)) ∧
    (∀ va mid, (evaluate registry a).carryOut env = (.ok va, mid) →
      (∀ f after, (evaluate registry b).carryOut mid = (.error f, after) →
        ∃ g, (evaluate registry (a ++ "\n" ++ b)).carryOut env = (.error g, after) ∧
          f.ToldLater (a.length + 1) g) ∧
      (∀ vb after, (evaluate registry b).carryOut mid = (.ok vb, after) →
        ∃ v, (evaluate registry (a ++ "\n" ++ b)).carryOut env = (.ok v, after) ∧
          (HasStatement b → v = vb) ∧ (¬ HasStatement b → v = va) ∧
          (v = none ↔ IsBlankText a.toList ∧ IsBlankText b.toList))) := by
  obtain ⟨as, has⟩ := exists_tokenize_ok ha
  obtain ⟨bs, hbs⟩ := exists_tokenize_ok hb
  rw [evaluate_append_line registry has hbs, evaluate_of_tokens has, evaluate_of_tokens hbs,
    hasStatement_iff hbs]
  refine ⟨fun f mid hfirst => performAfter_append_error _ _ hfirst, fun va mid hfirst => ?_⟩
  -- the second line goes on with the value of the first one
  have hwhole := performAfter_append (statements as)
    ((statements bs).map (Statement.later (a.length + 1))) hfirst
  rw [performAfter_relocates (a.length + 1) (statements bs) va mid] at hwhole
  refine ⟨fun f after hsecond => ?_, fun vb after hsecond => ?_⟩
  · rw [performAfter_of_error hsecond va] at hwhole
    exact ⟨f.later (a.length + 1), hwhole, f.toldLater (a.length + 1)⟩
  · rw [performAfter_of_ok hsecond va] at hwhole
    have hvalue := eq_none_iff_of_performAfter hsecond
    refine ⟨vb.or va, hwhole, fun hsome => ?_, fun hnone => ?_, ?_⟩
    · obtain ⟨v, rfl⟩ := Option.ne_none_iff_exists'.mp fun h => hsome (hvalue.mp h).2
      rfl
    · rw [hvalue.mpr ⟨rfl, Classical.not_not.mp hnone⟩]
      rfl
    · rw [eq_none_iff_of_performAfter hwhole, List.append_eq_nil_iff, List.map_eq_nil_iff,
        statements_eq_nil_iff, statements_eq_nil_iff, forall_eol_iff has, forall_eol_iff hbs,
        and_iff_right rfl]

/-- Where `x` is bound to 1, `y =: x` before `y + z` binds `y` and then fails, and the index of `z`
is seven larger than in `y + z`; `x` before a blank line has the value of `x`; and where nothing is
bound to `x`, it fails in the same way whatever follows. -/
theorem two_lines_in_order :
    let run := fun source => (evaluate (.standard defaultLimit) source).carryOut
    let one := Noun.atom .integer 1
    let env := Environment.empty.set "x" one
    let undefined := fun name place => Failure.plain (.evaluation (.undefinedName name place))
    (run "x" .empty = (.error (undefined "x" 0), .empty) ∧
      run ("x" ++ "\n" ++ "y + z") .empty = (.error (undefined "x" 0), .empty)) ∧
    (run "y =: x" env = (.ok (some one), env.set "y" one) ∧
      run "y + z" (env.set "y" one) = (.error (undefined "z" 4), env.set "y" one) ∧
      ∃ g, run ("y =: x" ++ "\n" ++ "y + z") env = (.error g, env.set "y" one) ∧
        (undefined "z" 4).ToldLater 7 g) ∧
    (run "x" env = (.ok (some one), env) ∧ run " \t\n" env = (.ok none, env) ∧
      ∃ v, run ("x" ++ "\n" ++ " \t\n") env = (.ok v, env) ∧
        (HasStatement " \t\n" → v = none) ∧ (¬ HasStatement " \t\n" → v = some one) ∧
        (v = none ↔ IsBlankText ['x'] ∧ IsBlankText [' ', '\t', '\n'])) := by
  intro run one env undefined
  have hx : tokenize "x" = .ok [⟨.name, "x", 0, 1, []⟩, ⟨.eol, "", 1, 1, []⟩] := rfl
  have hassign : tokenize "y =: x" = .ok [⟨.name, "y", 0, 1, []⟩, ⟨.operator, "=:", 2, 4, []⟩,
      ⟨.name, "x", 5, 6, []⟩, ⟨.eol, "", 6, 6, []⟩] := rfl
  have hsum : tokenize "y + z" = .ok [⟨.name, "y", 0, 1, []⟩, ⟨.operator, "+", 2, 3, []⟩,
      ⟨.name, "z", 4, 5, []⟩, ⟨.eol, "", 5, 5, []⟩] := rfl
  have hblank : tokenize " \t\n" = .ok [⟨.eol, "\n", 2, 3, []⟩, ⟨.eol, "", 3, 3, []⟩] := rfl
  have hrun : ∀ {source ts} next, tokenize source = .ok ts →
      run source next = (perform (.standard defaultLimit) (statements ts)).carryOut next := by
    intro source ts next h
    rw [← evaluate_of_tokens h]
  have hfails : run "x" .empty = (.error (undefined "x" 0), .empty) := hrun _ hx
  have hvalue : run "x" env = (.ok (some one), env) := hrun _ hx
  have hbinds : run "y =: x" env = (.ok (some one), env.set "y" one) := hrun _ hassign
  have hundefined : run "y + z" (env.set "y" one) =
      (.error (undefined "z" 4), env.set "y" one) := hrun _ hsum
  have hnothing : run " \t\n" env = (.ok none, env) := hrun _ hblank
  exact ⟨⟨hfails, (evaluate_line_by_line _ "x" "y + z" rfl rfl .empty).1 _ _ hfails⟩,
    ⟨hbinds, hundefined,
      ((evaluate_line_by_line _ "y =: x" "y + z" rfl rfl env).2 _ _ hbinds).1 _ _ hundefined⟩,
    hvalue, hnothing,
    ((evaluate_line_by_line _ "x" " \t\n" rfl rfl env).2 _ _ hvalue).2 _ _ hnothing⟩

end ArrayCalc
