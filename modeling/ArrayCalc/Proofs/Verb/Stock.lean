import ArrayCalc.Proofs.Error.Outcomes
import ArrayCalc.Proofs.Verb.Catalog
import ArrayCalc.Proofs.Verb.Exchange
import ArrayCalc.Stock
/-!
The stock of kernels.

Kernels from outside the catalog are applied to nouns as they are, each operand at its own kind.

* `Dense.tile_map`, `Shaped.zipRun_map`: operands may be read otherwise before they are repeated or
  afterwards; `dyadic_pointwise`: so it makes no difference whether kinds are matched before the
  kernel or within it;
* `Unary.exists_each`, `Binary.exists_both`: which kernels of the stock are pointwise;
  `mapStock_keeps`, `zipStock_agrees`: **these have a result wherever there can be one**;
  `monadic_kernels_keeps`, `dyadic_kernels_agrees`: and so have verbs whose kernels are taken from
  the stock, kind by kind;
* `mapStock_zero_eq_error_iff`, `zipStock_left_eq_error_iff`, `zipStock_right_eq_error_iff`: where
  the others do not fill an array;
* `monad_of_shared`, `dyad_of_shared`: **what the stock and the catalog have in common is the
  same**.
-/

namespace ArrayCalc

open Stock

variable {α α' β β' γ : Type}

/-! ### Operands read otherwise -/

lemma Dense.tile_map (f : α → β) (xs : List α) (size : Nat) :
    tile (xs.map f) size = (tile xs size).map f := by
  rw [tile, tile, List.length_map, List.map_flatten, List.map_replicate]

lemma Run.both_each (f : α' → β' → γ) (g : α → α') (h : β → β') (a : Run α) (b : Run β) :
    both f (a.each g) (b.each h) = both (fun x y => f (g x) (h y)) a b := by
  cases a <;> cases b <;> simp [both, List.zipWith_map]

/-- Arrays are read before they are repeated, or afterwards. -/
lemma Dense.agreementMap_map (f : α' → β' → γ) (g : α → α') (h : β → β') (a : Dense α)
    (b : Dense β) : agreementMap (Run.both f) (a.map g) (b.map h) =
      agreementMap (Run.both fun x y => f (g x) (h y)) a b := by
  have hrow : ∀ xs ys, Run.both f (.row (xs.map g)) (.row (ys.map h)) =
      Run.both (fun x y => f (g x) (h y)) (.row xs) (.row ys) :=
    fun xs ys => Run.both_each f g h (.row xs) (.row ys)
  have hsize : ∀ {δ δ' : Type} (f : δ → δ') (c : Dense δ), (c.map f).size = c.size :=
    fun f c => List.length_map f
  have hrank : ∀ {δ δ' : Type} (f : δ → δ') (c : Dense δ), (c.map f).rank = c.rank :=
    fun _ _ => rfl
  simp only [agreementMap, shape_map, data_map, hrank, hsize, tile_map, hrow]

/-- Shaped values are read before they meet, or when they do. -/
lemma Shaped.zipRun_map (f : α' → β' → γ) (g : α → α') (h : β → β') (l : Shaped α)
    (r : Shaped β) : (l.map g).zipRun (Run.both f) (r.map h) =
      l.zipRun (Run.both fun x y => f (g x) (h y)) r := by
  simp only [zipRun_both, toDense_map, isAtom_map, Dense.agreementMap_map]

/-- A dyad made of pointwise kernels may match the kinds of its operands within the kernel. -/
lemma dyadic_pointwise (result : Kind → Kind)
    (f : (k : Kind) → k.Elem → k.Elem → (result k).Elem) (l r : Noun) :
    dyadic (.pointwise result f) l r =
      ((l.value.zipRun (promoted result f l.kind r.kind) r.value).map
        (Noun.mk (result (Kind.join l.kind r.kind)))).mapError Error.shape := by
  have hmatched : (l.matched r).left.zipRun (Run.both (f (l.matched r).kind)) (l.matched r).right =
      l.value.zipRun (promoted result f l.kind r.kind) r.value := Shaped.zipRun_map _ _ _ _ _
  rw [← hmatched]
  rfl

/-! ### Kernels of one operand -/

/-- All kernels of one operand but `zero` are pointwise. -/
lemma Unary.exists_each {u : Unary} (hu : u ≠ .zero) (k : Kind) : ∃ f, u.run k = Run.each f := by
  cases u with
  | zero => exact absurd rfl hu
  | identity | negate | not | square | nonzero | decimal => exact ⟨_, rfl⟩

/-- **They have a result for all nouns.** -/
theorem mapStock_keeps {u : Unary} (hu : u ≠ .zero) :
    MonadicRule.Keeps (Noun.mapStock u) u.result := by
  intro n
  obtain ⟨f, hf⟩ := u.exists_each hu n.kind
  refine ⟨⟨u.result n.kind, n.value.map f⟩, ?_, Shaped.isAtom_map _ _, Shaped.shape_map _ _, rfl⟩
  rw [Noun.mapStock, hf, Shaped.mapRun_each]
  rfl

/-- One lone element does not fill an array of any other size. -/
theorem mapStock_zero_eq_error_iff {n : Noun} {e : Error} : n.mapStock .zero = .error e ↔
    volume n.shape ≠ 1 ∧ e = .shape (.unfilled 1 n.shape) := by
  obtain ⟨k, x | a⟩ := n
  · exact ⟨nofun, fun h => absurd rfl h.1⟩
  · have hrun : (Noun.array k a).mapStock .zero =
        (((Dense.fill a.shape [(0 : Int64)]).map Shaped.array).map (Noun.mk .integer)).mapError
          Error.shape := rfl
    show (Noun.array k a).mapStock .zero = _ ↔ volume a.shape ≠ 1 ∧ _
    rw [hrun]
    by_cases hone : volume a.shape = 1
    · have hfills : [(0 : Int64)].length = volume a.shape := hone.symm
      rw [Dense.fill_eq_ok hfills]
      exact ⟨nofun, fun h => absurd hone h.1⟩
    · have hfills : [(0 : Int64)].length ≠ volume a.shape := Ne.symm hone
      rw [Dense.fill_eq_error hfills]
      exact ⟨fun h => ⟨hone, (Except.error.inj h).symm⟩, fun h => congrArg Except.error h.2.symm⟩

/-- A monad whose kernels are of the stock, kind by kind. -/
lemma monadic_kernels_keeps {choice : Kind → Unary} (h : ∀ k, choice k ≠ .zero) :
    MonadicRule.Keeps (monadic (Unary.kernels choice)) fun k => (choice k).result k :=
  fun n => mapStock_keeps (h n.kind) n

/-! ### Kernels of two operands -/

/-- All kernels of two operands but `left` and `right` are pointwise. -/
lemma Binary.exists_both {b : Binary} (hl : b ≠ .left) (hr : b ≠ .right) (j k : Kind) :
    ∃ f, b.run j k = Run.both f := by
  cases b with
  | left => exact absurd rfl hl
  | right => exact absurd rfl hr
  | add | subtract | multiply | hundreds | maximum | minimum | equal | less | and | or | xor =>
    exact ⟨_, rfl⟩

/-- The kind of their results depends on the common kind only. -/
lemma Binary.result_join {b : Binary} (hl : b ≠ .left) (hr : b ≠ .right) (j k : Kind) :
    b.result j k = b.result (Kind.join j k) (Kind.join j k) := by
  cases b with
  | left => exact absurd rfl hl
  | right => exact absurd rfl hr
  | add | subtract | multiply | hundreds | maximum | minimum => simp only [result, Kind.join_self]
  | equal | less | and | or | xor => rfl

/-- **They have a result wherever the shapes of their operands agree**, and only there. -/
theorem zipStock_agrees {b : Binary} (hl : b ≠ .left) (hr : b ≠ .right) :
    (Dyad.both (Noun.zipStock b)).Agrees fun k => b.result k k := by
  constructor
  · intro l r hapart
    rw [Noun.apart_iff] at hapart
    obtain ⟨f, hf⟩ := b.exists_both hl hr l.kind r.kind
    rw [Dyad.apply, Noun.zipStock, hf]
    exact Shaped.error_of_both f hapart
  · intro l r hagree
    rw [Noun.apart_iff, Classical.not_not] at hagree
    obtain ⟨f, hf⟩ := b.exists_both hl hr l.kind r.kind
    obtain ⟨n, hn, hatom, hshape, hkind⟩ := Shaped.exists_noun_of_both f hagree
    refine ⟨n, ?_, hatom, hshape, hkind.trans (b.result_join hl hr _ _)⟩
    rw [Dyad.apply, Noun.zipStock, hf]
    exact hn

/-- A dyad whose kernels are of the stock, kind by kind, is such a kernel applied to its operands at
their common kind. -/
lemma dyadic_kernels (choice : Kind → Binary) (l r : Noun) :
    dyadic (Binary.kernels choice) l r =
      Noun.zipStock (choice (Kind.join l.kind r.kind)) (l.widen _ (l.kind_le_join_left r))
        (r.widen _ (l.kind_le_join_right r)) := rfl

lemma dyadic_kernels_agrees {choice : Kind → Binary}
    (h : ∀ k, choice k ≠ .left ∧ choice k ≠ .right) :
    (Dyad.both (dyadic (Binary.kernels choice))).Agrees fun k => (choice k).result k k :=
  Dyad.agrees_of_views fun l r => ⟨_, _, _, _, zipStock_agrees (h _).1 (h _).2,
    dyadic_kernels choice l r, l.formedAs_widen _, r.formedAs_widen _,
    congrArg (fun k => (choice (Kind.join l.kind r.kind)).result k k) (Kind.join_self _)⟩

lemma zipWith_left {xs : List α} {ys : List β} (h : xs.length = ys.length) :
    List.zipWith (fun x _ => x) xs ys = xs :=
  List.ext_getElem (by simp [h]) (by simp)

/-- Rows that agree have as many elements, once they are repeated. -/
lemma Dense.agreementMap_left (a : Dense α) (b : Dense β) :
    agreementMap (fun xs _ => xs) a b = agreementMap (Run.both fun x _ => x) a b := by
  have hrow : ∀ (shape : List Nat) {xs : List α} {ys : List β}, xs.length = ys.length →
      fill shape xs = fill shape (Run.both (fun x _ => x) (.row xs) (.row ys)).toList :=
    fun shape _ _ h => congrArg (fill shape) (zipWith_left h).symm
  have hdvd : ∀ {δ δ' : Type} {c : Dense δ} {d : Dense δ'}, c.shape <:+ d.shape →
      c.data.length ∣ d.size := by
    intro δ δ' c d h
    rw [c.fills, d.size_eq]
    exact Shape.volume_dvd_of_suffix h
  by_cases h : agrees a.shape b.shape = true
  · rw [agreementMap, agreementMap, if_pos h, if_pos h]
    have hagree := agrees_iff.1 h
    rcases Nat.lt_trichotomy a.rank b.rank with hlt | heq | hgt
    · have hsuffix := hagree.resolve_right fun hs => absurd hs.length_le (Nat.not_le.2 hlt)
      rw [if_neg hlt.ne, if_neg hlt.ne, if_pos hlt, if_pos hlt]
      exact hrow b.shape (length_tile (hdvd hsuffix))
    · have hshape : a.shape = b.shape := Shape.eq_of_length_eq hagree heq
      have hlength : a.data.length = b.data.length := by rw [a.fills, b.fills, hshape]
      rw [if_pos heq, if_pos heq]
      exact hrow a.shape hlength
    · have hsuffix := hagree.resolve_left fun hs => absurd hs.length_le (Nat.not_le.2 hgt)
      rw [if_neg hgt.ne', if_neg hgt.ne', if_neg hgt.not_gt, if_neg hgt.not_gt]
      exact hrow a.shape (length_tile (hdvd hsuffix)).symm
  · rw [agreementMap, agreementMap, if_neg h, if_neg h]

/-- The element on the left alone: as a pointwise kernel does, but that an atom does not fill an
array of any other size than one. -/
theorem Shaped.zipRun_left (l : Shaped α) (r : Shaped β) :
    l.zipRun (fun a _ => a) r =
      if l.isAtom ∧ volume r.shape ≠ 1 then .error (.unfilled 1 r.shape)
      else l.zipRun (Run.both fun x _ => x) r := by
  cases l with
  | array a =>
    rw [if_neg fun h => nomatch h.1]
    cases r with
    | array b => rw [zipRun, zipRun, Dense.agreementMap_left]
    | atom y =>
      show (Dense.fill a.shape a.data).map array = (Dense.mapAtomRight _ a y).map array
      rw [Dense.mapAtomRight_both, Dense.fill_eq_ok a.fills]
      exact congrArg (Except.ok ∘ array) (Dense.ext rfl (List.map_id _).symm)
  | atom x =>
    cases r with
    | atom y => exact (if_neg fun h => h.2 rfl).symm
    | array b =>
      show (Dense.fill b.shape [x]).map array = _
      by_cases hone : volume b.shape = 1
      · have hfills : [x].length = volume b.shape := hone.symm
        obtain ⟨y, hy⟩ := List.length_eq_one_iff.1 (b.fills.trans hone)
        have hdata : [x] = b.data.map fun _ => x := by rw [hy, List.map_singleton]
        rw [if_neg fun h => h.2 hone, Dense.fill_eq_ok hfills, zipRun, Dense.mapAtomLeft_both]
        exact congrArg (Except.ok ∘ array) (Dense.ext rfl hdata)
      · have hfills : [x].length ≠ volume b.shape := Ne.symm hone
        rw [if_pos ⟨rfl, hone⟩, Dense.fill_eq_error hfills]
        rfl

/-- **The kernel that gives back what is on the left** fails on arrays that do not agree, and where
an atom would have to fill an array of any other size than one. -/
theorem zipStock_left_eq_error_iff {l r : Noun} {e : Error} :
    Noun.zipStock .left l r = .error e ↔
      l.isAtom ∧ volume r.shape ≠ 1 ∧ e = .shape (.unfilled 1 r.shape) ∨
        l.Apart r ∧ e = .shape (.disagreement l.shape r.shape) := by
  have hrun : Noun.zipStock .left l r =
      ((if l.isAtom ∧ volume r.shape ≠ 1 then .error (.unfilled 1 r.shape)
        else l.value.zipRun (Run.both fun x _ => x) r.value).map
          (Noun.mk l.kind)).mapError Error.shape := by
    have hleft := Shaped.zipRun_left l.value r.value
    rw [Noun.zipStock]
    exact congrArg (fun v => (v.map (Noun.mk l.kind)).mapError Error.shape) hleft
  rw [hrun]
  split
  · rename_i hlone
    have hnear : ¬ l.Apart r := fun h => Bool.false_ne_true (h.1.symm.trans hlone.1)
    constructor
    · rintro ⟨⟩
      exact .inl ⟨hlone.1, hlone.2, rfl⟩
    · rintro (⟨-, -, rfl⟩ | ⟨hapart, -⟩)
      · rfl
      · exact absurd hapart hnear
  · rename_i hlone
    by_cases hagree : l.shape <:+ r.shape ∨ r.shape <:+ l.shape
    · obtain ⟨n, hn, -⟩ := Shaped.exists_noun_of_both (fun x _ => x) hagree
      rw [hn]
      refine ⟨nofun, ?_⟩
      rintro (⟨hatom, hsize, -⟩ | ⟨hapart, -⟩)
      · exact absurd ⟨hatom, hsize⟩ hlone
      · exact absurd hagree hapart.2.2
    · rw [Shaped.error_of_both (fun x _ => x) hagree]
      constructor
      · rintro ⟨⟩
        exact .inr ⟨Noun.apart_iff.2 hagree, rfl⟩
      · rintro (⟨hatom, hsize, -⟩ | ⟨-, rfl⟩)
        · exact absurd ⟨hatom, hsize⟩ hlone
        · rfl

/-- To give back what is on the right is to give back what is on the left, of operands that have
changed sides. -/
lemma zipStock_right (l r : Noun) :
    Noun.zipStock .right l r = (Noun.zipStock .left r l).mapError Error.exchanged := by
  have hexchange := Shaped.zipRun_exchange (fun w _ => w) r.value l.value
  have hleft : Noun.zipStock .right l r =
      (((r.value.zipRun (fun w _ => w) l.value).mapError ShapeError.exchanged).map
        (Noun.mk r.kind)).mapError Error.shape :=
    congrArg (fun v => (v.map (Noun.mk r.kind)).mapError Error.shape) hexchange
  rw [hleft]
  show _ = (((r.value.zipRun (fun w _ => w) l.value).map (Noun.mk r.kind)).mapError
    Error.shape).mapError Error.exchanged
  cases r.value.zipRun (fun w _ => w) l.value <;> rfl

theorem zipStock_right_eq_error_iff {l r : Noun} {e : Error} :
    Noun.zipStock .right l r = .error e ↔
      r.isAtom ∧ volume l.shape ≠ 1 ∧ e = .shape (.unfilled 1 l.shape) ∨
        l.Apart r ∧ e = .shape (.disagreement l.shape r.shape) := by
  rw [zipStock_right]
  constructor
  · intro h
    obtain ⟨d, hd, rfl⟩ := exists_error_of_mapError_eq_error h
    rcases zipStock_left_eq_error_iff.1 hd with ⟨hatom, hsize, rfl⟩ | ⟨hapart, rfl⟩
    · exact .inl ⟨hatom, hsize, rfl⟩
    · exact .inr ⟨Noun.apart_comm.1 hapart, rfl⟩
  · rintro (⟨hatom, hsize, rfl⟩ | ⟨hapart, rfl⟩)
    · rw [zipStock_left_eq_error_iff.2 (.inl ⟨hatom, hsize, rfl⟩)]
      rfl
    · rw [zipStock_left_eq_error_iff.2 (.inr ⟨Noun.apart_comm.1 hapart, rfl⟩)]
      rfl

/-! ### In common with the catalog -/

/-- Primitive monads and the kernels of the stock that do the same. -/
def sharedMonads : List (String × Unary) := [("+", .identity), ("-", .negate)]

/-- Primitive dyads and the kernels of the stock that do the same. -/
def sharedDyads : List (String × Binary) :=
  [("-", .subtract), ("*", .multiply), ("=", .equal), ("*.", .and)]

lemma monad_of_shared (limit : Nat) : ∀ shared ∈ sharedMonads,
    (Registry.standard limit).monad shared.1 = .ok (Noun.mapStock shared.2) := by
  intro shared hshared
  simp only [sharedMonads, List.mem_cons, List.not_mem_nil, or_false] at hshared
  rcases hshared with rfl | rfl <;> rfl

/-- **What the stock and the catalog have in common is the same**, for all nouns and with all
failures. -/
theorem dyad_of_shared (limit : Nat) : ∀ shared ∈ sharedDyads,
    (Registry.standard limit).dyad shared.1 = .ok (.both (Noun.zipStock shared.2)) := by
  have hsame : ∀ {f g : DyadicRule}, (∀ l r, f l r = g l r) →
      (Except.ok (Dyad.both f) : Except Error Dyad) = .ok (.both g) :=
    fun h => congrArg (fun f => Except.ok (Dyad.both f)) (funext fun l => funext fun r => h l r)
  intro shared hshared
  simp only [sharedDyads, List.mem_cons, List.not_mem_nil, or_false] at hshared
  rcases hshared with rfl | rfl | rfl | rfl
  · exact hsame fun l r => dyadic_pointwise _ Primitive.subtract l r
  · exact hsame fun l r => dyadic_pointwise _ Primitive.multiply l r
  · exact hsame fun l r => dyadic_pointwise (fun _ => .boolean) Primitive.equal l r
  · refine hsame fun l r => ?_
    -- both operands are booleans by the time that they are matched
    have hread := Shaped.zipRun_map (Primitive.both .boolean) l.kind.truth r.kind.truth
      l.value r.value
    rw [dyadic_pointwise (fun _ => .boolean) Primitive.both]
    exact congrArg (fun v => (v.map (Noun.mk .boolean)).mapError Error.shape) hread

end ArrayCalc
