import ArrayCalc.Lexer.Scan
import Mathlib.Tactic.Lemma
/-!
Tables that pass the check can be run over every source.

* `Table.Runnable`: no gaps, no words from states that make none, and at the end of the input only
  line breaks left; `Table.accepted_eq_ok_iff`: **the check accepts these tables and no others**, of
  which all have the same number of entries (`Table.check_eq_ok_iff`);
* `Token.Spans`: a word lies between two places of a source and has the text that stands there;
* `Machine.Tidy`: the invariant of a run: the open span and all words lie in what has been read;
  `Table.Runnable.step_cases`, `Table.Runnable.run_cases`: a step either meets an entry that gives
  up or keeps the invariant, and so does a run;
* `Table.Reaches`: the machine after the first characters of a source;
* `Table.check_guards_scan`: an accepted table gives up at an entry that says so, or it cuts the
  source into words and ends with a line end.
-/

namespace ArrayCalc.Lexer

/-! ### What the check accepts -/

/-- A table that can be run. -/
structure Table.Runnable (t : Table) : Prop where
  /-- There is an entry for every state and every class, and for the end of the input. -/
  total : ∀ s c, ∃ next, t s c = some next
  /-- Outside of words no entry makes a word. -/
  silent : ∀ s c next, s = .initial ∨ s = .whitespace → t s c = some next →
    next.action.emits = false ∧ next.action.appends = false
  /-- The end of the input is the end of a line, unless the entry gives up. -/
  ends : ∀ s next, t s none = some next → next.action = .stop ∨ next.target = .lineBreak

lemma State.tokenKind_eq_none_iff {s : State} :
    s.tokenKind = none ↔ s = .initial ∨ s = .whitespace := by
  cases s <;> decide

namespace Table

variable {t : Table}

lemma entryDefect?_eq_none_iff {s : State} {c : Option CharClass} :
    t.entryDefect? s c = none ↔ ∃ next, t s c = some next ∧
      (s = .initial ∨ s = .whitespace →
        next.action.emits = false ∧ next.action.appends = false) := by
  rw [entryDefect?]
  cases t s c with
  | none => simp
  | some next =>
    simp only [Option.some.injEq, exists_eq_left', ← State.tokenKind_eq_none_iff]
    cases s.tokenKind <;> cases next.action.emits <;> cases next.action.appends <;> simp

lemma endDefect?_eq_none_iff {s : State} :
    t.endDefect? s = none ↔
      ∀ next, t s none = some next → next.action = .stop ∨ next.target = .lineBreak := by
  rw [endDefect?]
  cases t s none with
  | none => simp
  | some next =>
    by_cases ha : next.action = .stop <;> by_cases hl : next.target = .lineBreak <;> simp [ha, hl]

lemma defect?_eq_none_iff : t.defect? = none ↔ t.Runnable := by
  simp only [defect?, Option.or_eq_none_iff, List.findSome?_eq_none_iff, State.mem_all, mem_inputs,
    forall_const, entryDefect?_eq_none_iff, endDefect?_eq_none_iff]
  constructor
  · rintro ⟨hentry, hend⟩
    refine ⟨fun s c => ?_, fun s c next hs hnext => ?_, hend⟩
    · obtain ⟨next, hnext, -⟩ := hentry s c
      exact ⟨next, hnext⟩
    · obtain ⟨other, hother, hsilent⟩ := hentry s c
      rw [hnext] at hother
      cases hother
      exact hsilent hs
  · intro h
    refine ⟨fun s c => ?_, h.ends⟩
    obtain ⟨next, hnext⟩ := h.total s c
    exact ⟨next, hnext, fun hs => h.silent s c next hs hnext⟩

/-- **The check accepts the tables that can be run, and no others**, and gives them back as they
are. -/
lemma accepted_eq_ok_iff {accepted : Table} :
    t.accepted = .ok accepted ↔ accepted = t ∧ t.Runnable := by
  rw [← defect?_eq_none_iff, Table.accepted]
  cases t.defect? with
  | none => simp [eq_comm]
  | some e => simp

/-- The built-in table is accepted. -/
lemma accepted_standard : standard.accepted = .ok standard := rfl

/-- Without gaps there is an entry for each state and each input. -/
lemma size_of_runnable (h : t.Runnable) : t.size = State.all.length * inputs.length := by
  have hrow : ∀ s, (inputs.filterMap (t s)).length = inputs.length := by
    intro s
    rw [List.length_filterMap_eq_countP, List.countP_eq_length]
    intro c _
    obtain ⟨next, hnext⟩ := h.total s c
    rw [hnext]
    rfl
  rw [size, List.length_flatMap, List.map_congr_left fun s _ => hrow s, List.map_const',
    List.sum_replicate_nat]

/-- All tables that are accepted have the same number of entries. -/
lemma check_eq_ok_iff {n : Nat} : t.check = .ok n ↔ t.Runnable ∧ n = 72 := by
  rw [check]
  constructor
  · intro h
    cases haccepted : t.accepted with
    | error e =>
      rw [haccepted] at h
      cases h
    | ok accepted =>
      obtain ⟨rfl, hrun⟩ := accepted_eq_ok_iff.mp haccepted
      rw [haccepted] at h
      cases h
      exact ⟨hrun, size_of_runnable hrun⟩
  · rintro ⟨hrun, rfl⟩
    rw [accepted_eq_ok_iff.mpr ⟨rfl, hrun⟩]
    exact congrArg Except.ok (size_of_runnable hrun)

end Table

/-! ### Words inside of what has been read -/

/-- A word that lies before a place of a source and has the text between its own two places. -/
structure Token.Spans (source : List Char) (place : Nat) (w : Token) : Prop where
  nonneg : 0 ≤ w.pos
  ordered : w.pos ≤ w.stop
  bounded : w.stop ≤ place
  text : w.text = String.ofList (slice source w.pos.toNat w.stop.toNat)

variable {source : List Char} {place : Nat}

lemma Token.Spans.mono {w : Token} (h : w.Spans source place) {next : Nat} (hle : place ≤ next) :
    w.Spans source next := by
  refine ⟨h.nonneg, h.ordered, ?_, h.text⟩
  have hstop := h.bounded
  omega

lemma spans_wordAt {start : Nat} (h : start ≤ place) (kind : TokenKind) :
    (wordAt source start place kind).Spans source place :=
  ⟨Int.natCast_nonneg start, Int.ofNat_le.mpr h, Int.le_refl _, rfl⟩

/-- A list of numerals that grows still starts where it did. -/
lemma Token.Spans.extend {w : Token} (h : w.Spans source place) (start : Nat) :
    (w.extend source start place).Spans source place :=
  ⟨h.nonneg, Int.le_trans h.ordered h.bounded, Int.le_refl _, rfl⟩

namespace Machine

/-- The open span starts in what has been read of a source, and all words lie in it. -/
structure Tidy (source : List Char) (place : Nat) (m : Machine) : Prop where
  start : m.start ≤ place
  words : ∀ w ∈ m.words, w.Spans source place

variable {m : Machine}

lemma Tidy.mono (h : m.Tidy source place) {next : Nat} (hle : place ≤ next) :
    m.Tidy source next :=
  ⟨Nat.le_trans h.start hle, fun w hw => (h.words w hw).mono hle⟩

/-- Inside of a word the open span can become one. -/
lemma Tidy.emit (h : m.Tidy source place) {kind : TokenKind} (hk : m.state.tokenKind = some kind) :
    ∃ words, m.emit source place = .ok words ∧ ∀ w ∈ words, w.Spans source place := by
  refine ⟨wordAt source m.start place kind :: m.words, by rw [Machine.emit, hk], ?_⟩
  exact List.forall_mem_cons.mpr ⟨spans_wordAt h.start kind, h.words⟩

lemma Tidy.append (h : m.Tidy source place) {kind : TokenKind}
    (hk : m.state.tokenKind = some kind) :
    ∃ words, m.append source place = .ok words ∧ ∀ w ∈ words, w.Spans source place := by
  rw [Machine.append]
  cases hwords : m.words with
  | nil => exact h.emit hk
  | cons last words =>
    dsimp only
    split
    · have hspans := h.words
      rw [hwords] at hspans
      obtain ⟨hlast, hrest⟩ := List.forall_mem_cons.mp hspans
      exact ⟨_, rfl, List.forall_mem_cons.mpr ⟨hlast.extend m.start, hrest⟩⟩
    · exact h.emit hk

end Machine

/-! ### Running a table -/

/-- The words after an action, if the open span can become one where the action asks for it. -/
def Machine.wordsAfter (m : Machine) (a : Action) (source : List Char) (place : Nat) :
    Except LexError (List Token) :=
  if a.emits then m.emit source place
  else if a.appends then m.append source place
  else .ok m.words

lemma Table.step_eq {t : Table} {m : Machine} {input : Option CharClass} {next : Transition}
    (hnext : t m.state input = some next) (hstop : next.action ≠ .stop) :
    t.step source place input m = (m.wordsAfter next.action source place).map fun words =>
      ⟨next.target, if next.action.opensSpan then place else m.start, words⟩ := by
  rw [Table.step, hnext, Machine.wordsAfter]
  dsimp only
  rw [if_neg hstop]
  split
  · cases m.emit source place <;> rfl
  · split
    · cases m.append source place <;> rfl
    · rfl

/-- The machine that a table has made of the first characters of a source. -/
inductive Table.Reaches (t : Table) (source : List Char) : Nat → Machine → Prop
  | start : t.Reaches source 0 .initial
  | next {place m c m'} : t.Reaches source place m → source[place]? = some c →
      t.step source place (some (.ofChar c)) m = .ok m' → t.Reaches source (place + 1) m'

/-- The table meets an entry that gives up, in a state that it has reached, at the character that
comes next or at the end of the source; and it fails with the span that is open there. -/
def Table.GivesUp (t : Table) (source : List Char) (e : LexError) : Prop :=
  ∃ place m next, t.Reaches source place m ∧
    t m.state (source[place]?.map CharClass.ofChar) = some next ∧ next.action = .stop ∧
    e = .unterminated m.start place

namespace Table.Runnable

variable {t : Table} {m : Machine}

/-- An entry that makes a word belongs to a state that has a kind of words. -/
lemma wordsAfter_eq_ok (ht : t.Runnable) (hm : m.Tidy source place) {input : Option CharClass}
    {next : Transition} (hnext : t m.state input = some next) :
    ∃ words, m.wordsAfter next.action source place = .ok words ∧
      ∀ w ∈ words, w.Spans source place := by
  cases hk : m.state.tokenKind with
  | none =>
    obtain ⟨hemits, happends⟩ :=
      ht.silent m.state input next (State.tokenKind_eq_none_iff.mp hk) hnext
    refine ⟨m.words, ?_, hm.words⟩
    rw [Machine.wordsAfter, hemits, happends]
    rfl
  | some kind =>
    rw [Machine.wordsAfter]
    split
    · exact hm.emit hk
    · split
      · exact hm.append hk
      · exact ⟨m.words, rfl, hm.words⟩

/-- **One step**: the entry gives up, or the words still lie in what has been read. -/
theorem step_cases (ht : t.Runnable) (hm : m.Tidy source place) (input : Option CharClass) :
    ∃ next, t m.state input = some next ∧
      (next.action = .stop ∧
          t.step source place input m = .error (.unterminated m.start place) ∨
        next.action ≠ .stop ∧ ∃ m', t.step source place input m = .ok m' ∧
          m'.state = next.target ∧ m'.Tidy source place) := by
  obtain ⟨next, hnext⟩ := ht.total m.state input
  refine ⟨next, hnext, ?_⟩
  by_cases hstop : next.action = .stop
  · refine .inl ⟨hstop, ?_⟩
    rw [Table.step, hnext]
    exact if_pos hstop
  refine .inr ⟨hstop, ?_⟩
  obtain ⟨words, hwords, hspans⟩ := ht.wordsAfter_eq_ok hm hnext
  rw [step_eq hnext hstop, hwords]
  refine ⟨_, rfl, rfl, ?_, hspans⟩
  dsimp only
  split
  · exact Nat.le_refl place
  · exact hm.start

/-- **A run**: the table gives up on the way, or it has read the source and ends in a line break.
By induction on what is left to read. -/
theorem run_cases (ht : t.Runnable) {rest : List Char} (hrest : source.drop place = rest)
    (hreach : t.Reaches source place m) (hm : m.Tidy source place) :
    (∃ e, t.run source place rest m = .error e ∧ t.GivesUp source e) ∨
      ∃ m', t.run source place rest m = .ok m' ∧ m'.state = .lineBreak ∧
        m'.Tidy source (place + rest.length) := by
  induction rest generalizing place m with
  | nil =>
    have hend : source[place]? = none := by rw [← List.head?_drop, hrest, List.head?_nil]
    obtain ⟨next, hnext, ⟨hstop, herror⟩ | ⟨hstop, m', hok, hstate, htidy⟩⟩ :=
      ht.step_cases hm none
    · exact .inl ⟨_, herror, place, m, next, hreach, by rw [hend]; exact hnext, hstop, rfl⟩
    · refine .inr ⟨m', hok, ?_, htidy⟩
      rw [hstate]
      exact (ht.ends m.state next hnext).resolve_left hstop
  | cons c rest ih =>
    have hc : source[place]? = some c := by rw [← List.head?_drop, hrest, List.head?_cons]
    have htail : source.drop (place + 1) = rest := by
      rw [← List.tail_drop, hrest, List.tail_cons]
    rw [Table.run]
    obtain ⟨next, hnext, ⟨hstop, herror⟩ | ⟨hstop, m', hok, hstate, htidy⟩⟩ :=
      ht.step_cases hm (some (.ofChar c))
    · refine .inl ⟨.unterminated m.start place, by rw [herror]; rfl, place, m, next, hreach, ?_,
        hstop, rfl⟩
      rw [hc]
      exact hnext
    · have hplace : place + 1 + rest.length = place + (c :: rest).length := by
        rw [List.length_cons]
        omega
      rw [hok, ← hplace]
      exact ih htail (hreach.next hc hok) (htidy.mono (Nat.le_succ place))

end Table.Runnable

/-- **A table that passes the check can be run over every source.**  The check accepts a table
exactly if it has no gaps, makes no words outside of words, and ends lines at the end of the input,
and gives it back as it is.  Run over a source, such a table gives up at an entry that says so, or
it cuts the source into words: each has the text between its two places, and the last one is a line
end that ends with the source. -/
theorem Table.check_guards_scan (t : Table) :
    (∀ accepted, t.accepted = .ok accepted ↔ accepted = t ∧ t.Runnable) ∧
    ((∃ accepted, t.accepted = .ok accepted) → ∀ source : List Char,
      (∃ e, t.scan source = .error e ∧ t.GivesUp source e) ∨
      ∃ words, t.scan source = .ok words ∧
        (∃ last, words.getLast? = some last ∧ last.kind = .eol ∧ last.stop = source.length) ∧
        ∀ w ∈ words, w.Spans source source.length) := by
  refine ⟨fun accepted => accepted_eq_ok_iff, fun ⟨accepted, haccepted⟩ source => ?_⟩
  obtain ⟨-, hrun⟩ := accepted_eq_ok_iff.mp haccepted
  have hstart : Machine.initial.Tidy source 0 := ⟨Nat.le_refl 0, List.forall_mem_nil _⟩
  obtain ⟨e, herror, hgives⟩ | ⟨m, hok, hstate, htidy⟩ :=
    hrun.run_cases List.drop_zero .start hstart
  · refine .inl ⟨e, ?_, hgives⟩
    rw [scan, herror]
    rfl
  · rw [Nat.zero_add] at htidy
    have hemit : m.emit source source.length =
        .ok (wordAt source m.start source.length .eol :: m.words) := by
      rw [Machine.emit, hstate]
      rfl
    refine .inr ⟨(wordAt source m.start source.length .eol :: m.words).reverse, ?_, ?_, ?_⟩
    · rw [scan, hok]
      show (m.emit source source.length >>= fun words => pure words.reverse) = _
      rw [hemit]
      rfl
    · exact ⟨_, by rw [List.reverse_cons, List.getLast?_concat], rfl, rfl⟩
    · intro w hw
      rcases List.mem_cons.mp (List.mem_reverse.mp hw) with rfl | hw
      · exact spans_wordAt htidy.start .eol
      · exact htidy.words w hw

/-- A table in which a colon parts numerals, and in which a quote after a numeral gives up: it
passes the check, and it is run over a source with a colon and over one with a quote. -/
theorem check_guards_parted_numerals :
    let t := (Table.standard.set .numeric (some .colon) ⟨.numeric, .appendAndAdvance⟩).set
      .numeric (some .quote) ⟨.quoted, .stop⟩
    t.accepted = .ok t ∧ t.Runnable ∧
    (t.scan "1:2".toList =
        .ok [⟨.number, "1:2", 0, 3, ["1", ":2"]⟩, ⟨.eol, "", 3, 3, []⟩] ∧
      t.scan "1\x22".toList = .error (.unterminated 0 1)) ∧
    ∀ source : List Char,
      (∃ e, t.scan source = .error e ∧ t.GivesUp source e) ∨
      ∃ words, t.scan source = .ok words ∧
        (∃ last, words.getLast? = some last ∧ last.kind = .eol ∧ last.stop = source.length) ∧
        ∀ w ∈ words, w.Spans source source.length := by
  intro t
  have haccepted : t.accepted = .ok t := rfl
  obtain ⟨hiff, hscan⟩ := Table.check_guards_scan t
  exact ⟨haccepted, ((hiff t).mp haccepted).2, ⟨rfl, rfl⟩, hscan ⟨t, haccepted⟩⟩

end ArrayCalc.Lexer
