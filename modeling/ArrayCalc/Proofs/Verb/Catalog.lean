import ArrayCalc.Proofs.Verb.Primitives
/-!
What the primitive verbs give.

* `combinedKind`, `mappedKind`: the kinds of the results of the primitive dyads and monads, by
  symbol;
* `Noun.Apart`: two arrays whose shapes do not agree; `Dyad.Agrees`: a dyad that fails on these and
  on nothing else, and whose results have the longer shape and a kind that depends on the kinds of
  its operands only; `MonadicRule.Keeps`: a monad that never fails and keeps the shape;
* `dyadic_agrees`, `monadic_keeps`: verbs made of pointwise kernels are such verbs;
  `Dyad.agrees_of_views`, `dyadic_truth_agrees`: also on other views of their operands;
* `Verb.Cataloged`: a verb with such rules, or one that counts up or gives back an operand;
  `cataloged_of_mem_primitives`: **all primitive verbs are such verbs**, and
  `Registry.cases_of_monad`, `Registry.cases_of_dyad`: there are no others in their registry;
* `primitives_total`: **the primitive verbs have a result for all nouns**, but for arrays whose
  shapes do not agree and for counting up.
-/

namespace ArrayCalc

open Primitive

/-! ### The kinds of results -/

/-- The kind that a primitive dyad gives to operands of a common kind. -/
def combinedKind : String → Kind → Kind
  | "+", k | "-", k => Kind.join .integer k
  | "*", k => k
  | "%", _ => .decimal
  | _, _ => .boolean

/-- The symbols of the primitive monads that give each element of their operand an element. -/
def mappingSymbols : List String := ["+", "-", "*", "%", "|", "[", "]"]

/-- The kind that such a monad gives to an operand of a kind. -/
def mappedKind : String → Kind → Kind
  | "-", .boolean => .integer
  | "*", .decimal => .integer
  | "%", _ => .decimal
  | _, k => k

/-! ### Operands that cannot be combined -/

/-- Two arrays, neither of whose shapes is the tail of the other. -/
def Noun.Apart (l r : Noun) : Prop :=
  l.isAtom = false ∧ r.isAtom = false ∧ ¬ (l.shape <:+ r.shape ∨ r.shape <:+ l.shape)

lemma Shaped.shape_of_isAtom {α : Type} {v : Shaped α} (h : v.isAtom = true) : v.shape = [] := by
  cases v with
  | atom x => rfl
  | array a => cases h

/-- An atom is never in the way. -/
lemma Noun.apart_iff {l r : Noun} :
    l.Apart r ↔ ¬ (l.shape <:+ r.shape ∨ r.shape <:+ l.shape) := by
  refine ⟨fun h => h.2.2, fun h => ⟨?_, ?_, h⟩⟩
  · refine Bool.eq_false_iff.mpr fun hl => h (.inl ?_)
    rw [show l.shape = [] from Shaped.shape_of_isAtom hl]
    exact List.nil_suffix
  · refine Bool.eq_false_iff.mpr fun hr => h (.inr ?_)
    rw [show r.shape = [] from Shaped.shape_of_isAtom hr]
    exact List.nil_suffix

lemma Noun.apart_comm {l r : Noun} : l.Apart r ↔ r.Apart l := by
  rw [apart_iff, apart_iff, or_comm]

/-- A dyad that fails on two arrays whose shapes do not agree, with the shapes of both, and on
nothing else.  Its result is an atom if both operands are, and otherwise an array of the longer
shape; the kind depends on the common kind of the operands. -/
structure Dyad.Agrees (d : Dyad) (result : Kind → Kind) : Prop where
  failure : ∀ l r, l.Apart r →
    d.apply l r = .error (.shape (.disagreement l.shape r.shape))
  value : ∀ l r, ¬ l.Apart r → ∃ n, d.apply l r = .ok n ∧
    n.isAtom = (l.isAtom && r.isAtom) ∧ n.shape = Shape.longer l.shape r.shape ∧
    n.kind = result (Kind.join l.kind r.kind)

/-- A monad that has a result for all nouns, of the same type and shape. -/
def MonadicRule.Keeps (f : MonadicRule) (result : Kind → Kind) : Prop :=
  ∀ n, ∃ m, f n = .ok m ∧ m.isAtom = n.isAtom ∧ m.shape = n.shape ∧ m.kind = result n.kind

/-- Nouns of one type and one shape. -/
structure Noun.FormedAs (m n : Noun) : Prop where
  isAtom : m.isAtom = n.isAtom
  shape : m.shape = n.shape

lemma Noun.formedAs_truth (n : Noun) : n.truth.FormedAs n :=
  ⟨Shaped.isAtom_map _ _, Shaped.shape_map _ _⟩

lemma Noun.formedAs_widen (n : Noun) {k : Kind} (h : n.kind ≤ k) : (n.widen k h).FormedAs n :=
  ⟨Shaped.isAtom_map _ _, Shaped.shape_map _ _⟩

/-! ### Verbs made of kernels -/

section Kernels

variable {α β γ : Type} {result result' : Kind → Kind}

/-- An array made an atom only if it has no axes has the shape it had. -/
lemma Shaped.shape_ofDense {atomic : Bool} {c : Dense α} (h : atomic = true → c.shape = []) :
    (Shaped.ofDense atomic c).shape = c.shape := by
  cases atomic with
  | false => rfl
  | true =>
    unfold ofDense
    split
    · exact (h rfl).symm
    · rfl

/-- A pointwise kernel combines operands that agree to the longer shape. -/
lemma Shaped.exists_zipRun_both (f : α → β → γ) {l : Shaped α} {r : Shaped β}
    (h : l.shape <:+ r.shape ∨ r.shape <:+ l.shape) :
    ∃ v, l.zipRun (Run.both f) r = .ok v ∧ v.shape = Shape.longer l.shape r.shape := by
  rw [← shape_toDense l, ← shape_toDense r] at h ⊢
  obtain ⟨c, hc, hshape, -⟩ := Dense.agreementMap_both f h
  refine ⟨ofDense (l.isAtom && r.isAtom) c, ?_, ?_⟩
  · rw [zipRun_both, hc]
    rfl
  · rw [shape_ofDense fun hatoms => ?_, hshape]
    rw [Bool.and_eq_true] at hatoms
    rw [hshape, shape_toDense, shape_toDense, shape_of_isAtom hatoms.1, shape_of_isAtom hatoms.2]
    rfl

/-- Operands that agree make a noun. -/
lemma Shaped.exists_noun_of_both {k : Kind} (f : α → β → k.Elem) {l : Shaped α} {r : Shaped β}
    (h : l.shape <:+ r.shape ∨ r.shape <:+ l.shape) :
    ∃ n, ((l.zipRun (Run.both f) r).map (Noun.mk k)).mapError Error.shape = .ok n ∧
      n.isAtom = (l.isAtom && r.isAtom) ∧ n.shape = Shape.longer l.shape r.shape ∧ n.kind = k := by
  obtain ⟨v, hv, hshape⟩ := exists_zipRun_both f h
  refine ⟨⟨k, v⟩, ?_, isAtom_of_zipRun_eq_ok hv, hshape, rfl⟩
  rw [hv]
  rfl

/-- Operands that do not agree make none. -/
lemma Shaped.error_of_both {k : Kind} (f : α → β → k.Elem) {l : Shaped α} {r : Shaped β}
    (h : ¬ (l.shape <:+ r.shape ∨ r.shape <:+ l.shape)) :
    ((l.zipRun (Run.both f) r).map (Noun.mk k)).mapError Error.shape =
      .error (.shape (.disagreement l.shape r.shape)) := by
  rw [← shape_toDense l, ← shape_toDense r] at h ⊢
  rw [zipRun_both, Dense.agreementMap_eq_error _ h]
  rfl

/-- A dyad made of pointwise kernels fails only where no result can be. -/
lemma dyadic_agrees (result : Kind → Kind) (f : (k : Kind) → k.Elem → k.Elem → (result k).Elem)
    (hkind : ∀ k, result k = result' k) :
    (Dyad.both (dyadic (.pointwise result f))).Agrees result' := by
  have hleft : ∀ l r : Noun, (l.matched r).left.shape = l.shape := fun _ _ => Shaped.shape_map _ _
  have hright : ∀ l r : Noun, (l.matched r).right.shape = r.shape := fun _ _ => Shaped.shape_map _ _
  constructor
  · intro l r hapart
    rw [Noun.apart_iff, ← hleft l r, ← hright l r] at hapart
    have herror := Shaped.error_of_both (f (l.matched r).kind) hapart
    rwa [hleft, hright] at herror
  · intro l r hagree
    rw [Noun.apart_iff, Classical.not_not, ← hleft l r, ← hright l r] at hagree
    obtain ⟨n, hn, hatom, hshape, hresult⟩ :=
      Shaped.exists_noun_of_both (f (l.matched r).kind) hagree
    rw [hleft, hright] at hshape
    refine ⟨n, hn, ?_, hshape, hresult.trans (hkind _)⟩
    rw [hatom]
    simp only [Noun.matched, Shaped.isAtom_map, Noun.isAtom]

/-- A dyad agrees if it does to its operands what some dyad that agrees does to nouns of the same
forms. -/
lemma Dyad.agrees_of_views {rule : DyadicRule}
    (h : ∀ l r, ∃ (d : Dyad) (own : Kind → Kind) (l' r' : Noun), d.Agrees own ∧
      rule l r = d.apply l' r' ∧ l'.FormedAs l ∧ r'.FormedAs r ∧
      own (Kind.join l'.kind r'.kind) = result (Kind.join l.kind r.kind)) :
    (Dyad.both rule).Agrees result := by
  have hapart : ∀ {l l' r r' : Noun}, l'.FormedAs l → r'.FormedAs r → (l'.Apart r' ↔ l.Apart r) := by
    intro l l' r r' hl hr
    rw [Noun.apart_iff, Noun.apart_iff, hl.shape, hr.shape]
  constructor
  · intro l r h'
    obtain ⟨d, own, l', r', hagrees, hrule, hl, hr, -⟩ := h l r
    rw [apply, hrule, hagrees.failure l' r' ((hapart hl hr).mpr h'), hl.shape, hr.shape]
  · intro l r h'
    obtain ⟨d, own, l', r', hagrees, hrule, hl, hr, hkind⟩ := h l r
    obtain ⟨n, hn, hatom, hshape, hown⟩ :=
      hagrees.value l' r' fun hviews => h' ((hapart hl hr).mp hviews)
    refine ⟨n, ?_, ?_, ?_, hown.trans hkind⟩
    · rw [apply, hrule, hn]
    · rw [hatom, hl.isAtom, hr.isAtom]
    · rw [hshape, hl.shape, hr.shape]

/-- The same for the boolean views of the operands: their kinds do not matter. -/
lemma dyadic_truth_agrees (result : Kind → Kind)
    (f : (k : Kind) → k.Elem → k.Elem → (result k).Elem) {k : Kind} (hkind : result .boolean = k) :
    (Dyad.both fun l r => dyadic (.pointwise result f) l.truth r.truth).Agrees fun _ => k :=
  Dyad.agrees_of_views fun l r => ⟨.both (dyadic (.pointwise result f)), result, l.truth, r.truth,
    dyadic_agrees result f fun _ => rfl, rfl, l.formedAs_truth, r.formedAs_truth, hkind⟩

/-- A monad made of pointwise kernels keeps the type and the shape. -/
lemma monadic_keeps (result : Kind → Kind) (f : (k : Kind) → k.Elem → (result k).Elem)
    (hkind : ∀ k, result k = result' k) :
    MonadicRule.Keeps (monadic (.pointwise result f)) result' := by
  intro n
  exact ⟨_, monadic_pointwise result f n, Shaped.isAtom_map _ _, Shaped.shape_map _ _, hkind _⟩

end Kernels

/-! ### The catalog -/

namespace Registry

variable {registry : Registry} {symbol : String}

/-- A rule for one noun that is found is that of a verb with the symbol. -/
lemma exists_mem_of_monad {f : MonadicRule} (h : registry.monad symbol = .ok f) :
    ∃ v ∈ registry.verbs, v.symbol = symbol ∧ v.monad = some f := by
  rw [monad] at h
  split at h
  · rename_i g hg
    cases h
    obtain ⟨v, hv, hrule⟩ := Option.bind_eq_some_iff.mp hg
    have hs := List.find?_some hv
    exact ⟨v, List.mem_of_find?_eq_some hv, beq_iff_eq.mp hs, hrule⟩
  · cases h

/-- A rule for two nouns that is found is that of a verb with the symbol. -/
lemma exists_mem_of_dyad {d : Dyad} (h : registry.dyad symbol = .ok d) :
    ∃ v ∈ registry.verbs, v.symbol = symbol ∧ v.dyad = some d := by
  rw [dyad] at h
  split at h
  · rename_i g hg
    cases h
    obtain ⟨v, hv, hrule⟩ := Option.bind_eq_some_iff.mp hg
    have hs := List.find?_some hv
    exact ⟨v, List.mem_of_find?_eq_some hv, beq_iff_eq.mp hs, hrule⟩
  · cases h

end Registry

/-- A verb whose monad keeps shapes or counts up, and whose dyad combines its operands where they
agree or gives back one of them. -/
structure Verb.Cataloged (limit : Nat) (v : Verb) : Prop where
  monad : ∀ f, v.monad = some f →
    (∃ result, f.Keeps result) ∨ v.symbol = countingSymbol ∧ f = iota limit
  dyad : ∀ d, v.dyad = some d →
    (v.symbol ∈ agreeingSymbols ∧ ∃ result, d.Agrees result) ∨ ∃ side, d = .one side

namespace Verb

variable {limit : Nat} {symbol : String} {m : MonadicRule} {d : Dyad} {result result' : Kind → Kind}

lemma cataloged_of_both (hs : symbol ∈ agreeingSymbols) (hm : m.Keeps result)
    (hd : d.Agrees result') : Cataloged limit ⟨symbol, some m, some d⟩ where
  monad := by
    rintro f ⟨⟩
    exact .inl ⟨result, hm⟩
  dyad := by
    rintro f ⟨⟩
    exact .inl ⟨hs, result', hd⟩

lemma cataloged_of_dyad (hs : symbol ∈ agreeingSymbols) (hd : d.Agrees result) :
    Cataloged limit ⟨symbol, none, some d⟩ where
  monad := by rintro f ⟨⟩
  dyad := by
    rintro f ⟨⟩
    exact .inl ⟨hs, result, hd⟩

lemma cataloged_of_monad (hm : m.Keeps result) : Cataloged limit ⟨symbol, some m, none⟩ where
  monad := by
    rintro f ⟨⟩
    exact .inl ⟨result, hm⟩
  dyad := by rintro f ⟨⟩

lemma cataloged_of_iota : Cataloged limit ⟨countingSymbol, some (iota limit), none⟩ where
  monad := by
    rintro f ⟨⟩
    exact .inr ⟨rfl, rfl⟩
  dyad := by rintro f ⟨⟩

lemma cataloged_of_side (side : Side) :
    Cataloged limit ⟨symbol, some .ok, some (.one side)⟩ where
  monad := by
    rintro f ⟨⟩
    exact .inl ⟨id, fun n => ⟨n, rfl, rfl, rfl, rfl⟩⟩
  dyad := by
    rintro f ⟨⟩
    exact .inr ⟨side, rfl⟩

end Verb

/-- **The primitive verbs are of these sorts.** -/
theorem cataloged_of_mem_primitives {limit : Nat} {v : Verb} (h : v ∈ primitives limit) :
    v.Cataloged limit := by
  simp only [primitives, List.mem_cons, List.not_mem_nil, or_false] at h
  rcases h with rfl | rfl | rfl | rfl | rfl | rfl | rfl | rfl | rfl | rfl
  · exact Verb.cataloged_of_both (by decide) (monadic_keeps id _ fun _ => rfl)
      (dyadic_agrees arithmetic add fun _ => rfl)
  · exact Verb.cataloged_of_both (by decide) (monadic_keeps arithmetic negate fun _ => rfl)
      (dyadic_agrees arithmetic subtract fun _ => rfl)
  · exact Verb.cataloged_of_both (by decide) (monadic_keeps signKind sign fun _ => rfl)
      (dyadic_agrees id multiply fun _ => rfl)
  · exact Verb.cataloged_of_both (by decide)
      (monadic_keeps (fun _ => .decimal) reciprocal fun _ => rfl)
      (dyadic_agrees (fun _ => .decimal) divide fun _ => rfl)
  · exact Verb.cataloged_of_dyad (by decide) (dyadic_agrees (fun _ => .boolean) equal fun _ => rfl)
  · exact Verb.cataloged_of_dyad (by decide) (dyadic_truth_agrees (fun _ => .boolean) both rfl)
  · exact Verb.cataloged_of_monad (monadic_keeps id magnitude fun _ => rfl)
  · exact Verb.cataloged_of_iota
  · exact Verb.cataloged_of_side .left
  · exact Verb.cataloged_of_side .right

namespace Registry

variable {limit : Nat} {symbol : String}

/-- A primitive monad keeps shapes or counts up. -/
lemma cases_of_monad {f : MonadicRule} (h : (standard limit).monad symbol = .ok f) :
    (∃ result, f.Keeps result) ∨ symbol = countingSymbol ∧ f = iota limit := by
  obtain ⟨v, hv, rfl, hrule⟩ := exists_mem_of_monad h
  exact (cataloged_of_mem_primitives hv).monad f hrule

/-- A primitive dyad combines its operands where they agree, or gives back one of them. -/
lemma cases_of_dyad {d : Dyad} (h : (standard limit).dyad symbol = .ok d) :
    (symbol ∈ agreeingSymbols ∧ ∃ result, d.Agrees result) ∨ ∃ side, d = .one side := by
  obtain ⟨v, hv, rfl, hrule⟩ := exists_mem_of_dyad h
  exact (cataloged_of_mem_primitives hv).dyad d hrule

end Registry

/-- **The primitive verbs have a result for all nouns.**  Six dyads combine their operands: they
fail on two arrays whose shapes do not agree, and otherwise give an atom for atoms and an array of
the longer shape for all others, of a kind that depends on the kinds of the operands.  Two dyads
give one of their operands as it is, whatever the other one is.  Seven monads have a result for
every noun, of the same type and shape, and of a kind that depends on its kind.  Besides these there
is only the monad that counts up. -/
theorem primitives_total (limit : Nat) :
    (∀ symbol ∈ agreeingSymbols, ∃ d,
      (Registry.standard limit).dyad symbol = .ok d ∧ d.Agrees (combinedKind symbol)) ∧
    (∃ d, (Registry.standard limit).dyad "[" = .ok d ∧ ∀ l r, d.apply l r = .ok l) ∧
    (∃ d, (Registry.standard limit).dyad "]" = .ok d ∧ ∀ l r, d.apply l r = .ok r) ∧
    (∀ symbol ∈ mappingSymbols, ∃ f,
      (Registry.standard limit).monad symbol = .ok f ∧ f.Keeps (mappedKind symbol)) ∧
    (∀ symbol d, (Registry.standard limit).dyad symbol = .ok d →
      symbol ∈ agreeingSymbols ∨ symbol = "[" ∨ symbol = "]") ∧
    (∀ symbol f, (Registry.standard limit).monad symbol = .ok f →
      symbol ∈ mappingSymbols ∨ symbol = countingSymbol) := by
  refine ⟨?combining, ⟨_, rfl, fun _ _ => rfl⟩, ⟨_, rfl, fun _ _ => rfl⟩, ?mapping, ?dyads, ?monads⟩
  case combining =>
    intro symbol hsymbol
    simp only [agreeingSymbols, List.mem_cons, List.not_mem_nil, or_false] at hsymbol
    rcases hsymbol with rfl | rfl | rfl | rfl | rfl | rfl
    · exact ⟨_, rfl, dyadic_agrees arithmetic add fun k => by cases k <;> rfl⟩
    · exact ⟨_, rfl, dyadic_agrees arithmetic subtract fun k => by cases k <;> rfl⟩
    · exact ⟨_, rfl, dyadic_agrees id multiply fun _ => rfl⟩
    · exact ⟨_, rfl, dyadic_agrees (fun _ => .decimal) divide fun _ => rfl⟩
    · exact ⟨_, rfl, dyadic_agrees (fun _ => .boolean) equal fun _ => rfl⟩
    · exact ⟨_, rfl, dyadic_truth_agrees (fun _ => .boolean) both rfl⟩
  case mapping =>
    have hside : ∀ n : Noun, ∃ m, (Except.ok n : Except Error Noun) = .ok m ∧
        m.isAtom = n.isAtom ∧ m.shape = n.shape ∧ m.kind = n.kind :=
      fun n => ⟨n, rfl, rfl, rfl, rfl⟩
    intro symbol hsymbol
    simp only [mappingSymbols, List.mem_cons, List.not_mem_nil, or_false] at hsymbol
    rcases hsymbol with rfl | rfl | rfl | rfl | rfl | rfl | rfl
    · exact ⟨_, rfl, monadic_keeps id (fun _ w => w) fun _ => rfl⟩
    · exact ⟨_, rfl, monadic_keeps arithmetic negate fun k => by cases k <;> rfl⟩
    · exact ⟨_, rfl, monadic_keeps signKind sign fun k => by cases k <;> rfl⟩
    · exact ⟨_, rfl, monadic_keeps (fun _ => .decimal) reciprocal fun _ => rfl⟩
    · exact ⟨_, rfl, monadic_keeps id magnitude fun _ => rfl⟩
    · exact ⟨_, rfl, hside⟩
    · exact ⟨_, rfl, hside⟩
  case dyads =>
    intro symbol d hd
    obtain ⟨v, hv, rfl, hrule⟩ := Registry.exists_mem_of_dyad hd
    simp only [Registry.standard, primitives, List.mem_cons, List.not_mem_nil, or_false] at hv
    rcases hv with rfl | rfl | rfl | rfl | rfl | rfl | rfl | rfl | rfl | rfl <;> revert hrule <;>
      simp [agreeingSymbols]
  case monads =>
    intro symbol f hf
    obtain ⟨v, hv, rfl, hrule⟩ := Registry.exists_mem_of_monad hf
    simp only [Registry.standard, primitives, List.mem_cons, List.not_mem_nil, or_false] at hv
    rcases hv with rfl | rfl | rfl | rfl | rfl | rfl | rfl | rfl | rfl | rfl <;> revert hrule <;>
      simp [mappingSymbols, countingSymbol]

/-- A boolean array without elements less integers: with those of the shape of its last axis there
is a result, an integer array without elements; with more of them there is none. -/
theorem total_difference_without_elements :
    let a := Noun.array .boolean ⟨[0, 2], [], rfl⟩
    let b := Noun.array .boolean ⟨[2], [true, false], rfl⟩
    let c := Noun.array .integer ⟨[3], [4, 5, 6], rfl⟩
    ("-" ∈ agreeingSymbols ∧ ¬ a.Apart b ∧ a.Apart c) ∧
    ∃ d, (Registry.standard defaultLimit).dyad "-" = .ok d ∧
      (∃ n, d.apply a b = .ok n ∧ n.isAtom = false ∧ n.shape = [0, 2] ∧ n.kind = .integer) ∧
      d.apply a c = .error (.shape (.disagreement [0, 2] [3])) := by
  intro a b c
  have hb : ¬ a.Apart b := by
    rw [Noun.apart_iff, Classical.not_not]
    exact .inr (List.suffix_cons 0 [2])
  have hc : a.Apart c := ⟨rfl, rfl, by decide⟩
  obtain ⟨d, hd, hagrees⟩ := (primitives_total defaultLimit).1 "-" (by decide)
  exact ⟨⟨by decide, hb, hc⟩, d, hd, hagrees.value a b hb, hagrees.failure a c hc⟩

end ArrayCalc
