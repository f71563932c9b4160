import ArrayCalc.Proofs.Verb.Elementwise
/-!
Laws of integers that hold of nouns.

On booleans and integers, sums, differences, products and negatives are those of 64-bit integers,
truth values being counted as one and zero.  Whatever equation holds of these integers holds of
nouns as well, in whichever way they are atoms or arrays: what is left to ask is whether the shapes
go together, and that is the same question on both sides as long as the same nouns occur there.

* `Kind.whole`, `Noun.integer`: an element as an integer, and the integers that make a noun;
  `Noun.ext_integer`: with kind, type and shape they are all that there is;
* `IntegerMonad`, `IntegerDyad`: verbs whose rule is one of integers at both kinds;
  `IntegerMonad.negative`, `IntegerDyad.sum`, `IntegerDyad.difference`, `IntegerDyad.product`;
* `IntegerTerm`: nouns combined by such verbs; `IntegerTerm.run_cases`: a term either gives a noun
  made of the integers that it stands for, place by place, or has two operands somewhere whose
  shapes do not agree;
* `Alike`: two runs with the same noun, or that both fail on shapes; `IntegerTerm.Same`: terms of
  the same nouns that stand for the same integers; `IntegerTerm.Same.alike`: **such terms are
  alike**; `same_sum_comm` and so on: the laws, for terms;
* `nouns_obey_arithmetic`: commutativity, associativity, distributivity and subtraction.
-/

namespace ArrayCalc

open Primitive

/-! ### Nouns as integers -/

/-- An element as an integer; decimals are left out of account. -/
def Kind.whole : (k : Kind) → k.Elem → Int64
  | boolean => count
  | integer => fun x => x
  | decimal => fun _ => 0

namespace Kind

lemma whole_widen {a b : Kind} (h : a ≤ b) (hb : b ≤ .integer) (x : a.Elem) :
    b.whole (widen h x) = a.whole x := by
  cases a <;> cases b
  all_goals first
    | rfl
    | exact absurd h (by decide)
    | exact absurd hb (by decide)

lemma whole_injective {k : Kind} (hk : k ≤ .integer) {x y : k.Elem}
    (h : k.whole x = k.whole y) : x = y := by
  cases k with
  | boolean =>
    revert x y
    decide
  | integer => exact h
  | decimal => exact absurd hk (by decide)

lemma join_assoc (a b c : Kind) : join (join a b) c = join a (join b c) := by
  cases a <;> cases b <;> cases c <;> decide

end Kind

/-- The element of a noun at a place as an integer, elements coming round again after the last. -/
def Noun.integer (n : Noun) (j : Nat) : Int64 := ((n.value.element? j).map n.kind.whole).getD 0

/-- Nouns below decimals that have one kind, type and shape and the same integers are the same. -/
lemma Noun.ext_integer {m n : Noun} (hle : m.kind ≤ .integer) (hkind : m.kind = n.kind)
    (hatom : m.isAtom = n.isAtom) (hshape : m.shape = n.shape)
    (hinteger : volume n.shape ≠ 0 → ∀ j, m.integer j = n.integer j) : m = n := by
  obtain ⟨k, v⟩ := m
  obtain ⟨l, w⟩ := n
  cases hkind
  refine congrArg (Noun.mk k) (Shaped.ext_element hatom hshape fun j => ?_)
  have hlengthw : w.data.length = volume w.shape := w.length_data
  have hlengthv : v.data.length = volume w.shape :=
    v.length_data.trans (congrArg volume hshape)
  by_cases hvolume : volume w.shape = 0
  · rw [Shaped.element?, Shaped.element?, List.length_eq_zero_iff.mp (hlengthv.trans hvolume),
      List.length_eq_zero_iff.mp (hlengthw.trans hvolume)]
  · have hsame := hinteger hvolume j
    obtain ⟨x, hx⟩ := Shaped.exists_element? (hlengthv ▸ hvolume) j
    obtain ⟨y, hy⟩ := Shaped.exists_element? (hlengthw ▸ hvolume) j
    simp only [integer, hx, hy, Option.map_some, Option.getD_some] at hsame
    rw [hx, hy, Kind.whole_injective hle hsame]

/-! ### Verbs that act on integers -/

/-- A monad made of pointwise kernels that is a rule of integers on booleans and integers. -/
structure IntegerMonad where
  result : Kind → Kind
  rule : (k : Kind) → k.Elem → (result k).Elem
  op : Int64 → Int64
  result_le : ∀ k ≤ .integer, result k ≤ .integer
  whole_rule : ∀ k ≤ .integer, ∀ x, (result k).whole (rule k x) = op (k.whole x)

/-- A dyad made of pointwise kernels that is a rule of integers on booleans and integers. -/
structure IntegerDyad where
  result : Kind → Kind
  rule : (k : Kind) → k.Elem → k.Elem → (result k).Elem
  op : Int64 → Int64 → Int64
  result_le : ∀ k ≤ .integer, result k ≤ .integer
  whole_rule : ∀ k ≤ .integer, ∀ x y, (result k).whole (rule k x y) = op (k.whole x) (k.whole y)

/-- What the monad does to nouns. -/
def IntegerMonad.apply (m : IntegerMonad) : MonadicRule := monadic (.pointwise m.result m.rule)

/-- What the dyad does to nouns. -/
def IntegerDyad.apply (d : IntegerDyad) : DyadicRule := dyadic (.pointwise d.result d.rule)

lemma arithmetic_of_le {k : Kind} (h : k ≤ .integer) : arithmetic k = .integer := by
  cases k with
  | boolean | integer => rfl
  | decimal => exact absurd h (by decide)

lemma arithmetic_le {k : Kind} (h : k ≤ .integer) : arithmetic k ≤ .integer :=
  arithmetic_of_le h ▸ Kind.le_refl _

/-- The negative. -/
def IntegerMonad.negative : IntegerMonad where
  result := arithmetic
  rule := negate
  op x := -x
  result_le _ h := arithmetic_le h
  whole_rule k h x := by
    cases k with
    | boolean | integer => rfl
    | decimal => exact absurd h (by decide)

namespace IntegerDyad

/-- The sum. -/
def sum : IntegerDyad where
  result := arithmetic
  rule := add
  op x y := x + y
  result_le _ h := arithmetic_le h
  whole_rule k h x y := by
    cases k with
    | boolean | integer => rfl
    | decimal => exact absurd h (by decide)

/-- The difference. -/
def difference : IntegerDyad where
  result := arithmetic
  rule := subtract
  op x y := x - y
  result_le _ h := arithmetic_le h
  whole_rule k h x y := by
    cases k with
    | boolean | integer => rfl
    | decimal => exact absurd h (by decide)

/-- The product; that of truth values is one exactly if both hold. -/
def product : IntegerDyad where
  result := id
  rule := multiply
  op x y := x * y
  result_le _ h := h
  whole_rule k h x y := by
    cases k with
    | boolean => revert x y; decide
    | integer => rfl
    | decimal => exact absurd h (by decide)

end IntegerDyad

section Apply

variable {l r n : Noun}

lemma IntegerMonad.exists_apply_eq_ok (m : IntegerMonad) (hn : n.kind ≤ .integer) :
    ∃ v, m.apply n = .ok v ∧ v.kind = m.result n.kind ∧ v.isAtom = n.isAtom ∧
      v.shape = n.shape ∧ (volume v.shape ≠ 0 → ∀ j, v.integer j = m.op (n.integer j)) := by
  have hshape : (n.value.map (m.rule n.kind)).shape = n.value.shape := Shaped.shape_map _ _
  refine ⟨_, monadic_pointwise m.result m.rule n, rfl, Shaped.isAtom_map _ _, hshape, ?_⟩
  intro hvolume j
  have hsize : n.value.data.length ≠ 0 := by
    rw [Shaped.length_data, ← hshape]
    exact hvolume
  obtain ⟨x, hx⟩ := Shaped.exists_element? hsize j
  simp only [Noun.integer, Shaped.element?_map, hx, Option.map_some, Option.getD_some]
  exact m.whole_rule n.kind hn x

lemma IntegerDyad.apply_eq_error (d : IntegerDyad)
    (h : ¬ (l.shape <:+ r.shape ∨ r.shape <:+ l.shape)) :
    d.apply l r = .error (.shape (.disagreement l.shape r.shape)) :=
  (dyadic_agrees d.result d.rule fun _ => rfl).failure l r (Noun.apart_iff.mpr h)

lemma IntegerDyad.exists_apply_eq_ok (d : IntegerDyad) (hl : l.kind ≤ .integer)
    (hr : r.kind ≤ .integer) (h : l.shape <:+ r.shape ∨ r.shape <:+ l.shape) :
    ∃ v, d.apply l r = .ok v ∧ v.kind = d.result (Kind.join l.kind r.kind) ∧
      v.isAtom = (l.isAtom && r.isAtom) ∧ v.shape = Shape.longer l.shape r.shape ∧
      (volume v.shape ≠ 0 → ∀ j, v.integer j = d.op (l.integer j) (r.integer j)) := by
  have hagree : ¬ l.Apart r := fun hapart => Noun.apart_iff.mp hapart h
  obtain ⟨n, hn, hatom, hshape, hkind⟩ :=
    (dyadic_agrees d.result d.rule fun _ => rfl).value l r hagree
  refine ⟨n, hn, hkind, hatom, hshape, fun hvolume j => ?_⟩
  obtain ⟨v, hv, rfl⟩ := dyadic_eq_ok hn
  have hsize : v.data.length ≠ 0 := by
    rw [Shaped.length_data]
    exact hvolume
  obtain ⟨x, y, hx, hy, hxy⟩ := Shaped.element?_zipRun hv hsize j
  -- the operands have been widened to the common kind, which changes no integer
  rw [Shaped.element?_map] at hx hy
  obtain ⟨x', hx', rfl⟩ := Option.map_eq_some_iff.mp hx
  obtain ⟨y', hy', rfl⟩ := Option.map_eq_some_iff.mp hy
  have hjoin : Kind.join l.kind r.kind ≤ .integer := Kind.join_le hl hr
  simp only [Noun.integer, hx', hy', hxy, Option.map_some, Option.getD_some]
  rw [d.whole_rule _ hjoin, Kind.whole_widen _ hjoin, Kind.whole_widen _ hjoin]

end Apply

/-! ### Terms -/

/-- Nouns combined by verbs that act on integers. -/
inductive IntegerTerm where
  | noun (n : Noun)
  | monad (m : IntegerMonad) (t : IntegerTerm)
  | dyad (d : IntegerDyad) (l r : IntegerTerm)

namespace IntegerTerm

/-- What a term gives, the operand on the left being found first. -/
def run : IntegerTerm → Except Error Noun
  | noun n => .ok n
  | monad m t => do m.apply (← t.run)
  | dyad d l r => do d.apply (← l.run) (← r.run)

/-- The nouns in a term. -/
def leaves : IntegerTerm → List Noun
  | noun n => [n]
  | monad _ t => t.leaves
  | dyad _ l r => l.leaves ++ r.leaves

/-- The kind of what a term gives. -/
def kind : IntegerTerm → Kind
  | noun n => n.kind
  | monad m t => m.result t.kind
  | dyad d l r => d.result (Kind.join l.kind r.kind)

/-- What a term stands for when its nouns stand for integers. -/
def value (ρ : Noun → Int64) : IntegerTerm → Int64
  | noun n => ρ n
  | monad m t => m.op (t.value ρ)
  | dyad d l r => d.op (l.value ρ) (r.value ρ)

/-- A noun that a term gives.  It has the longest of the shapes in the term, all others being its
tails, and at each place the integer that the term stands for there. -/
structure Gives (t : IntegerTerm) (n : Noun) : Prop where
  kind : n.kind = t.kind
  kind_le : n.kind ≤ .integer
  isAtom : n.isAtom = true ↔ ∀ m ∈ t.leaves, m.isAtom = true
  shape : ∃ m ∈ t.leaves, m.shape = n.shape
  suffix : ∀ m ∈ t.leaves, m.shape <:+ n.shape
  integer : volume n.shape ≠ 0 → ∀ j, n.integer j = t.value (·.integer j)

/-- Two nouns in a term have shapes that do not agree. -/
def Clashes (t : IntegerTerm) : Prop :=
  ∃ m ∈ t.leaves, ∃ n ∈ t.leaves, ¬ (m.shape <:+ n.shape ∨ n.shape <:+ m.shape)

/-- What has been given has no two nouns that clash. -/
lemma Gives.not_clashes {t : IntegerTerm} {n : Noun} (h : t.Gives n) : ¬ t.Clashes := by
  rintro ⟨m, hm, m', hm', hapart⟩
  exact hapart (List.suffix_or_suffix_of_suffix (h.suffix m hm) (h.suffix m' hm'))

lemma gives_noun {n : Noun} (h : n.kind ≤ .integer) : (noun n).Gives n where
  kind := rfl
  kind_le := h
  isAtom := by rw [leaves, List.forall_mem_singleton]
  shape := ⟨n, List.mem_singleton_self n, rfl⟩
  suffix m hm := List.mem_singleton.mp hm ▸ List.suffix_refl _
  integer _ _ := rfl

lemma Gives.monad {t : IntegerTerm} {n : Noun} (h : t.Gives n) (m : IntegerMonad) :
    ∃ v, m.apply n = .ok v ∧ (IntegerTerm.monad m t).Gives v := by
  obtain ⟨v, hv, hkind, hatom, hshape, hinteger⟩ := m.exists_apply_eq_ok h.kind_le
  refine ⟨v, hv, ⟨?_, ?_, ?_, ?_, ?_, fun hvolume j => ?_⟩⟩
  · rw [hkind, h.kind]
    rfl
  · rw [hkind]
    exact m.result_le _ h.kind_le
  · rw [hatom]
    exact h.isAtom
  · rw [hshape]
    exact h.shape
  · rw [hshape]
    exact h.suffix
  · rw [hinteger hvolume j, h.integer (hshape ▸ hvolume) j]
    rfl

lemma Gives.dyad {s t : IntegerTerm} {l r : Noun} (hl : s.Gives l) (hr : t.Gives r)
    (d : IntegerDyad) (hagree : l.shape <:+ r.shape ∨ r.shape <:+ l.shape) :
    ∃ v, d.apply l r = .ok v ∧ (IntegerTerm.dyad d s t).Gives v := by
  obtain ⟨v, hv, hkind, hatom, hshape, hinteger⟩ :=
    d.exists_apply_eq_ok hl.kind_le hr.kind_le hagree
  have hleft : l.shape <:+ v.shape := hshape ▸ Shape.suffix_longer_left hagree
  have hright : r.shape <:+ v.shape := hshape ▸ Shape.suffix_longer_right hagree
  refine ⟨v, hv, ⟨?_, ?_, ?_, ?_, ?_, fun hvolume j => ?_⟩⟩
  · rw [hkind, hl.kind, hr.kind]
    rfl
  · rw [hkind]
    exact d.result_le _ (Kind.join_le hl.kind_le hr.kind_le)
  · rw [hatom, Bool.and_eq_true, hl.isAtom, hr.isAtom, leaves, List.forall_mem_append]
  · -- the longer shape is that of one of the operands
    obtain ⟨m, hm, hml⟩ := hl.shape
    obtain ⟨m', hm', hmr⟩ := hr.shape
    rw [hshape, Shape.longer]
    split
    · exact ⟨m', List.mem_append_right _ hm', hmr⟩
    · exact ⟨m, List.mem_append_left _ hm, hml⟩
  · intro m hm
    rcases List.mem_append.mp hm with hm | hm
    · exact (hl.suffix m hm).trans hleft
    · exact (hr.suffix m hm).trans hright
  · have hpos : ∀ {shape : List Nat}, shape <:+ v.shape → volume shape ≠ 0 := fun hs hzero =>
      hvolume (Nat.eq_zero_of_zero_dvd (hzero ▸ Shape.volume_dvd_of_suffix hs))
    rw [hinteger hvolume j, hl.integer (hpos hleft) j, hr.integer (hpos hright) j]
    rfl

/-- **A term gives a noun, or two nouns in it clash.** -/
theorem run_cases {t : IntegerTerm} (h : ∀ m ∈ t.leaves, m.kind ≤ .integer) :
    (∃ n, t.run = .ok n ∧ t.Gives n) ∨ (∃ e, t.run = .error (.shape e) ∧ t.Clashes) := by
  induction t with
  | noun n => exact .inl ⟨n, rfl, gives_noun (h n (List.mem_singleton_self n))⟩
  | monad m t ih =>
    rcases ih h with ⟨n, hn, hgives⟩ | ⟨e, he, hclashes⟩
    · obtain ⟨v, hv, hgives⟩ := hgives.monad m
      refine .inl ⟨v, ?_, hgives⟩
      rw [run, hn]
      exact hv
    · refine .inr ⟨e, ?_, hclashes⟩
      rw [run, he]
      rfl
  | dyad d l r ihl ihr =>
    have hclash : ∀ {t : IntegerTerm}, (∀ m ∈ t.leaves, m ∈ (dyad d l r).leaves) → t.Clashes →
        (dyad d l r).Clashes := fun hsub ⟨m, hm, m', hm', hapart⟩ =>
      ⟨m, hsub m hm, m', hsub m' hm', hapart⟩
    have hmeml : ∀ m ∈ l.leaves, m ∈ (dyad d l r).leaves := fun m hm =>
      List.mem_append_left _ hm
    have hmemr : ∀ m ∈ r.leaves, m ∈ (dyad d l r).leaves := fun m hm =>
      List.mem_append_right _ hm
    rcases ihl fun m hm => h m (hmeml m hm) with ⟨x, hx, hgivesl⟩ | ⟨e, he, hclashes⟩
    · rcases ihr fun m hm => h m (hmemr m hm) with ⟨y, hy, hgivesr⟩ | ⟨e, he, hclashes⟩
      · by_cases hagree : x.shape <:+ y.shape ∨ y.shape <:+ x.shape
        · obtain ⟨v, hv, hgives⟩ := hgivesl.dyad hgivesr d hagree
          refine .inl ⟨v, ?_, hgives⟩
          rw [run, hx, hy]
          exact hv
        · -- the operands have the shapes of nouns in the term
          obtain ⟨m, hm, hmx⟩ := hgivesl.shape
          obtain ⟨m', hm', hmy⟩ := hgivesr.shape
          refine .inr ⟨.disagreement x.shape y.shape, ?_, m, hmeml m hm, m', hmemr m' hm', ?_⟩
          swap
          · rwa [hmx, hmy]
          rw [run, hx, hy]
          exact d.apply_eq_error hagree
      · refine .inr ⟨e, ?_, hclash hmemr hclashes⟩
        rw [run, hx, he]
        rfl
    · refine .inr ⟨e, ?_, hclash hmeml hclashes⟩
      rw [run, he]
      rfl

end IntegerTerm

/-! ### Equations -/

/-- Two runs with the same noun, or that both fail because shapes do not go together. -/
inductive Alike : Except Error Noun → Except Error Noun → Prop
  | noun (n : Noun) : Alike (.ok n) (.ok n)
  | shapes (e e' : ShapeError) : Alike (.error (.shape e)) (.error (.shape e'))

namespace IntegerTerm

/-- Two terms that stand for the same integers.  They are made of the same nouns, so that one of
them has nouns that clash if the other has. -/
structure Same (s t : IntegerTerm) : Prop where
  leaves : ∀ m, m ∈ s.leaves ↔ m ∈ t.leaves
  kind : s.kind = t.kind
  value : ∀ ρ, s.value ρ = t.value ρ

lemma Same.refl (t : IntegerTerm) : t.Same t := ⟨fun _ => Iff.rfl, rfl, fun _ => rfl⟩

/-- **Terms of the same nouns that stand for the same integers are alike.** -/
theorem Same.alike {s t : IntegerTerm} (h : s.Same t)
    (hkind : ∀ m ∈ s.leaves, m.kind ≤ .integer) : Alike s.run t.run := by
  have hclashes : s.Clashes ↔ t.Clashes := by simp only [Clashes, h.leaves]
  rcases run_cases hkind with ⟨m, hm, hs⟩ | ⟨e, he, hs⟩
  · rcases run_cases fun m hm => hkind m ((h.leaves m).mpr hm) with ⟨n, hn, ht⟩ | ⟨e, -, ht⟩
    · -- each of the two has the longest shape
      obtain ⟨a, ha, hma⟩ := hs.shape
      obtain ⟨b, hb, hnb⟩ := ht.shape
      have hmn : m.shape <:+ n.shape := hma ▸ ht.suffix a ((h.leaves a).mp ha)
      have hnm : n.shape <:+ m.shape := hnb ▸ hs.suffix b ((h.leaves b).mpr hb)
      have hshape : m.shape = n.shape := hmn.eq_of_length_le hnm.length_le
      have hatom : m.isAtom = n.isAtom := by
        rw [Bool.eq_iff_iff, hs.isAtom, ht.isAtom]
        simp only [h.leaves]
      have hsame : m = n := by
        refine Noun.ext_integer hs.kind_le (by rw [hs.kind, ht.kind, h.kind]) hatom hshape ?_
        intro hvolume j
        rw [hs.integer (hshape ▸ hvolume) j, ht.integer hvolume j, h.value]
      rw [hm, hn, hsame]
      exact .noun n
    · exact absurd (hclashes.mpr ht) hs.not_clashes
  · rcases run_cases fun m hm => hkind m ((h.leaves m).mpr hm) with ⟨n, -, ht⟩ | ⟨e', he', -⟩
    · exact absurd (hclashes.mp hs) ht.not_clashes
    · rw [he, he']
      exact .shapes e e'

section Laws

variable (r s t : IntegerTerm)

lemma same_sum_comm : (dyad .sum s t).Same (dyad .sum t s) where
  leaves m := by rw [leaves, leaves, List.mem_append, List.mem_append, or_comm]
  kind := congrArg arithmetic (Kind.join_comm _ _)
  value _ := Int64.add_comm _ _

lemma same_product_comm : (dyad .product s t).Same (dyad .product t s) where
  leaves m := by rw [leaves, leaves, List.mem_append, List.mem_append, or_comm]
  kind := Kind.join_comm _ _
  value _ := Int64.mul_comm _ _

lemma same_product_assoc :
    (dyad .product (dyad .product r s) t).Same (dyad .product r (dyad .product s t)) where
  leaves m := by simp only [leaves, List.append_assoc]
  kind := Kind.join_assoc _ _ _
  value _ := Int64.mul_assoc _ _ _

variable {r s t}

/-- A sum has integers, also one of truth values. -/
lemma kind_sum (hs : s.kind ≤ .integer) (ht : t.kind ≤ .integer) :
    (dyad .sum s t).kind = .integer := arithmetic_of_le (Kind.join_le hs ht)

lemma same_sum_assoc (hr : r.kind ≤ .integer) (hs : s.kind ≤ .integer) (ht : t.kind ≤ .integer) :
    (dyad .sum (dyad .sum r s) t).Same (dyad .sum r (dyad .sum s t)) where
  leaves m := by simp only [leaves, List.append_assoc]
  kind := by
    have hleft : (dyad .sum r s).kind ≤ .integer := arithmetic_le (Kind.join_le hr hs)
    have hright : (dyad .sum s t).kind ≤ .integer := arithmetic_le (Kind.join_le hs ht)
    rw [kind_sum hleft ht, kind_sum hr hright]
  value _ := Int64.add_assoc _ _ _

lemma same_product_sum (hr : r.kind ≤ .integer) (hs : s.kind ≤ .integer)
    (ht : t.kind ≤ .integer) :
    (dyad .product r (dyad .sum s t)).Same
      (dyad .sum (dyad .product r s) (dyad .product r t)) where
  leaves m := by
    simp only [leaves, List.mem_append]
    tauto
  kind := by
    have hleft : (dyad .product r s).kind ≤ .integer := Kind.join_le hr hs
    have hright : (dyad .product r t).kind ≤ .integer := Kind.join_le hr ht
    calc Kind.join r.kind (dyad .sum s t).kind
        = Kind.join r.kind .integer := by rw [kind_sum hs ht]
      _ = .integer := Kind.le_antisymm (Kind.join_le hr (Kind.le_refl _)) (Kind.le_join_right _ _)
      _ = (dyad .sum (dyad .product r s) (dyad .product r t)).kind := (kind_sum hleft hright).symm
  value _ := Int64.mul_add

lemma same_difference (hs : s.kind ≤ .integer) (ht : t.kind ≤ .integer) :
    (dyad .difference s t).Same (dyad .sum s (monad .negative t)) where
  leaves _ := Iff.rfl
  kind := by
    have hnegative : (monad .negative t).kind ≤ .integer := arithmetic_le ht
    rw [kind_sum hs hnegative]
    exact arithmetic_of_le (Kind.join_le hs ht)
  value _ := Int64.sub_eq_add_neg _ _

end Laws

end IntegerTerm

open IntegerTerm

/-- **Booleans and integers obey the laws of arithmetic** modulo the range of the machine, for atoms
and arrays of all shapes: the primitive sums and products are commutative and associative, products
distribute over sums, and a difference is the sum with the negative.  Either both sides of an
equation give the same noun, or both fail on shapes that do not agree. -/
theorem nouns_obey_arithmetic (limit : Nat) {a b c : Noun} (ha : a.kind ≤ .integer)
    (hb : b.kind ≤ .integer) (hc : c.kind ≤ .integer) :
    ∃ plus times minus negative,
      ((Registry.standard limit).dyad "+" = .ok plus ∧
        (Registry.standard limit).dyad "*" = .ok times ∧
        (Registry.standard limit).dyad "-" = .ok minus ∧
        (Registry.standard limit).monad "-" = .ok negative) ∧
      Alike (plus.apply a b) (plus.apply b a) ∧
      Alike (times.apply a b) (times.apply b a) ∧
      Alike (do plus.apply (← plus.apply a b) c) (do plus.apply a (← plus.apply b c)) ∧
      Alike (do times.apply (← times.apply a b) c) (do times.apply a (← times.apply b c)) ∧
      Alike (do times.apply a (← plus.apply b c))
        (do plus.apply (← times.apply a b) (← times.apply a c)) ∧
      Alike (minus.apply a b) (do plus.apply a (← negative b)) := by
  refine ⟨_, _, _, _, ⟨rfl, rfl, rfl, rfl⟩, ?sum_comm, ?product_comm, ?sum_assoc, ?product_assoc,
    ?product_sum, ?difference⟩
  case sum_comm => exact (same_sum_comm (noun a) (noun b)).alike (by simp [leaves, ha, hb])
  case product_comm =>
    exact (same_product_comm (noun a) (noun b)).alike (by simp [leaves, ha, hb])
  case sum_assoc =>
    exact (same_sum_assoc (r := noun a) (s := noun b) (t := noun c) ha hb hc).alike
      (by simp [leaves, ha, hb, hc])
  case product_assoc =>
    exact (same_product_assoc (noun a) (noun b) (noun c)).alike (by simp [leaves, ha, hb, hc])
  case product_sum =>
    exact (same_product_sum (r := noun a) (s := noun b) (t := noun c) ha hb hc).alike
      (by simp [leaves, ha, hb, hc])
  case difference =>
    exact (same_difference (s := noun a) (t := noun b) ha hb).alike (by simp [leaves, ha, hb])

/-- A truth value, a list that reaches the end of the range, and a table of truth values. -/
theorem arithmetic_of_mixed_nouns :
    let a : Noun := .atom .boolean true
    let b : Noun := .array .integer ⟨[2], [9223372036854775807, -1], rfl⟩
    let c : Noun := .array .boolean ⟨[2, 2], [true, false, false, true], rfl⟩
    (a.kind ≤ .integer ∧ b.kind ≤ .integer ∧ c.kind ≤ .integer) ∧
    ∃ plus times, (Registry.standard 9).dyad "+" = .ok plus ∧
      (Registry.standard 9).dyad "*" = .ok times ∧
      plus.apply b c = .ok (.array .integer ⟨[2, 2],
        [-9223372036854775808, -1, 9223372036854775807, 0], rfl⟩) ∧
      Alike (do times.apply a (← plus.apply b c))
        (do plus.apply (← times.apply a b) (← times.apply a c)) := by
  intro a b c
  have ha : a.kind ≤ .integer := by decide
  have hb : b.kind ≤ .integer := by decide
  have hc : c.kind ≤ .integer := by decide
  obtain ⟨plus, times, -, -, ⟨hplus, htimes, -, -⟩, -, -, -, -, hproduct, -⟩ :=
    nouns_obey_arithmetic 9 ha hb hc
  have hsum : plus.apply b c = .ok (.array .integer ⟨[2, 2],
      [-9223372036854775808, -1, 9223372036854775807, 0], rfl⟩) := by
    cases hplus
    cbv
  exact ⟨⟨ha, hb, hc⟩, plus, times, hplus, htimes, hsum, hproduct⟩

end ArrayCalc
