import ArrayCalc.Matching
/-!
Verbs.

* `MonadicKernels`, `DyadicKernels`: one kernel for each kind and the kind of its results;
* `monadic`, `dyadic`: the rules that they make for nouns;
* `Dyad`: a rule for two nouns, or the choice of one of them;
* `Verb`: a symbol with a rule for either valence;
* `Registry`: verbs with symbols of their own, looked up by symbol and valence.
-/

namespace ArrayCalc

/-- What a verb does to the noun on its right.  It is a function of this noun alone: it keeps no
state and reads no environment, what it gives back is a noun, and an error that it raises has no
causes of its own. -/
abbrev MonadicRule := Noun → Except Error Noun

/-- What a verb does to the nouns on its left and on its right.  It is a function of these two
alone, as a `MonadicRule` is of one: its results are nouns, and its errors have no causes. -/
abbrev DyadicRule := Noun → Noun → Except Error Noun

/-! ### Kernels -/

/-- One kernel of one operand for each kind. -/
structure MonadicKernels where
  result : Kind → Kind
  run : (k : Kind) → Run k.Elem → Run (result k).Elem

/-- One kernel of two operands for each kind. -/
structure DyadicKernels where
  result : Kind → Kind
  run : (k : Kind) → Run k.Elem → Run k.Elem → Run (result k).Elem

/-- Kernels that treat elements one by one. -/
def MonadicKernels.pointwise (result : Kind → Kind) (f : (k : Kind) → k.Elem → (result k).Elem) :
    MonadicKernels := ⟨result, fun k => Run.each (f k)⟩

/-- Kernels that treat elements pair by pair. -/
def DyadicKernels.pointwise (result : Kind → Kind)
    (f : (k : Kind) → k.Elem → k.Elem → (result k).Elem) : DyadicKernels :=
  ⟨result, fun k => Run.both (f k)⟩

/-- The kernel for the kind of the noun, applied to its elements. -/
def monadic (ks : MonadicKernels) : MonadicRule := fun n =>
  ((n.value.mapRun (ks.run n.kind)).map fun v => ⟨ks.result n.kind, v⟩).mapError Error.shape

/-- Both nouns at their common kind, and the kernel for it applied to their elements. -/
def dyadic (ks : DyadicKernels) : DyadicRule := fun l r =>
  ((l.matched r).zipRun ks.result ks.run).mapError Error.shape

/-- A pointwise monad never fails and keeps the shape. -/
theorem monadic_pointwise (result : Kind → Kind) (f : (k : Kind) → k.Elem → (result k).Elem)
    (n : Noun) :
    monadic (.pointwise result f) n = .ok ⟨result n.kind, n.value.map (f n.kind)⟩ := by
  simp only [monadic, MonadicKernels.pointwise, Shaped.mapRun_each]
  rfl

/-! ### Dyads -/

/-- What a verb does to two operands: it needs both of them, or it gives one back and never looks at
the other. -/
inductive Dyad where
  | both (rule : DyadicRule)
  | one (side : Side)

namespace Dyad

/-- A dyad applied to two nouns. -/
def apply : Dyad → Noun → Noun → Except Error Noun
  | both f, l, r => f l r
  | one .left, l, _ => .ok l
  | one .right, _, r => .ok r

/-- A dyad applied to operands that may be no nouns.  When both are needed, the left one is asked
first. -/
def applyHosts : Dyad → Host → Host → Except Error Host
  | one .left, l, _ => .ok l
  | one .right, _, r => .ok r
  | both f, .noun l, .noun r => (f l r).map .noun
  | both _, .foreign t, _ => .error (.promotion (.notNoun .left t))
  | both _, .noun _, .foreign t => .error (.promotion (.notNoun .right t))

theorem applyHosts_noun (d : Dyad) (l r : Noun) :
    d.applyHosts (.noun l) (.noun r) = (d.apply l r).map .noun := by
  cases d with
  | both f => rfl
  | one side => cases side <;> rfl

end Dyad

/-! ### Verbs and registries -/

/-- A symbol, and what it does to one noun and to two. -/
structure Verb where
  symbol : String
  monad : Option MonadicRule := none
  dyad : Option Dyad := none

/-- Verbs in the order of registration, no two with one symbol. -/
structure Registry where
  verbs : List Verb
  distinct : (verbs.map Verb.symbol).Nodup

namespace Registry

/-- The first symbol that has come up before. -/
def repeated? (seen : List String) : List Verb → Option String
  | [] => none
  | v :: vs => if v.symbol ∈ seen then some v.symbol else repeated? (v.symbol :: seen) vs

theorem nodup_of_repeated? {seen : List String} {vs : List Verb} (h : repeated? seen vs = none) :
    (vs.map Verb.symbol).Nodup ∧ ∀ s ∈ vs.map Verb.symbol, s ∉ seen := by
  induction vs generalizing seen with
  | nil => simp
  | cons v vs ih =>
    rw [repeated?] at h
    split at h
    · cases h
    · rename_i hv
      have ⟨hn, hs⟩ := ih h
      refine ⟨List.nodup_cons.2 ⟨fun hm => hs _ hm (List.mem_cons_self ..), hn⟩, ?_⟩
      intro s hm
      rcases List.mem_cons.1 hm with rfl | hm
      · exact hv
      · exact fun hseen => hs s hm (List.mem_cons_of_mem _ hseen)

/-- The registry of a list of verbs, refused when a symbol comes up twice. -/
def ofVerbs (vs : List Verb) : Except Error Registry :=
  match h : repeated? [] vs with
  | some s => .error (.duplicateVerb s)
  | none => .ok ⟨vs, (nodup_of_repeated? h).1⟩

/-- The symbols in the order of registration. -/
def symbols (r : Registry) : List String := r.verbs.map Verb.symbol

/-- The verb with a symbol. -/
def find? (r : Registry) (symbol : String) : Option Verb := r.verbs.find? (·.symbol == symbol)

/-- Whether a symbol is registered. -/
def contains (r : Registry) (symbol : String) : Bool := (r.find? symbol).isSome

/-- The verb with a symbol, or the complaint that there is none. -/
def verb (r : Registry) (symbol : String) : Except Error Verb :=
  match r.find? symbol with
  | some v => .ok v
  | none => .error (.unbound symbol)

/-- What a symbol does to one noun. -/
def monad (r : Registry) (symbol : String) : Except Error MonadicRule :=
  match (r.find? symbol).bind Verb.monad with
  | some f => .ok f
  | none => .error (.unknownVerb .monadic symbol)

/-- What a symbol does to two nouns. -/
def dyad (r : Registry) (symbol : String) : Except Error Dyad :=
  match (r.find? symbol).bind Verb.dyad with
  | some f => .ok f
  | none => .error (.unknownVerb .dyadic symbol)

end Registry

end ArrayCalc
