import ArrayCalc.Proofs.Error.Outcomes
import ArrayCalc.Proofs.Verb.Catalog
/-!
How large nouns can get.

* `Noun.Within`: a noun with no more elements than a bound, and no extent beyond it; it depends on
  the shape alone (`Noun.Within.of_shape`);
* `Primitive.within_iota`: counting up keeps to the limit, also where an extent is zero, and where
  the product of the extents is beyond all integers of the machine;
* `MonadicRule.Bounded`, `Dyad.Bounded`: rules whose results are shaped like an operand or are
  within a limit; **`Registry.bounded_of_monad`, `Registry.bounded_of_dyad`: the rules of all
  primitive verbs are such**.
-/

namespace ArrayCalc

open Primitive

/-! ### Nouns within a bound -/

/-- A noun with at most so many elements, none of whose extents is greater. -/
structure Noun.Within (bound : Nat) (n : Noun) : Prop where
  elements : n.value.data.length ≤ bound
  extents : ∀ e ∈ n.shape, e ≤ bound

namespace Noun

variable {bound bound' : Nat} {m n : Noun}

lemma within_iff : n.Within bound ↔ volume n.shape ≤ bound ∧ ∀ e ∈ n.shape, e ≤ bound := by
  have hlength : n.value.data.length = volume n.shape := Shaped.length_data n.value
  exact ⟨fun h => ⟨hlength ▸ h.elements, h.extents⟩, fun h => ⟨hlength ▸ h.1, h.2⟩⟩

lemma Within.of_shape (h : n.Within bound) (hshape : m.shape = n.shape) : m.Within bound := by
  rw [within_iff, hshape]
  exact within_iff.mp h

lemma Within.mono (h : n.Within bound) (hle : bound ≤ bound') : n.Within bound' :=
  ⟨Nat.le_trans h.elements hle, fun e he => Nat.le_trans (h.extents e he) hle⟩

end Noun

/-! ### Counting up -/

/-- What counts up has room for its result within the limit. -/
lemma Primitive.within_iota {limit : Nat} {n r : Noun} (h : iota limit n = .ok r) :
    r.Within limit := by
  cases hobstacle : obstacle? limit n with
  | some d =>
    rw [iota_of_obstacle hobstacle] at h
    cases h
  | none =>
    obtain ⟨a, ha, hshape, -⟩ := exists_iota_of_clear hobstacle
    rw [ha] at h
    cases h
    obtain ⟨-, -, -, hextents, -⟩ := obstacle?_eq_none_iff.mp hobstacle
    have hvolume : volume a.shape ≤ limit := hshape ▸ volume_le_of_clear hobstacle
    refine Noun.within_iff.mpr ⟨hvolume, fun k hk => ?_⟩
    have hmem : k ∈ a.shape := hk
    rw [hshape] at hmem
    obtain ⟨e, he, rfl⟩ := List.mem_map.mp hmem
    exact Int.toNat_le.mpr (hextents e he)

/-! ### Rules with bounded results -/

/-- A monad whose results are shaped like its operand, or are within a limit. -/
def MonadicRule.Bounded (limit : Nat) (f : MonadicRule) : Prop :=
  ∀ n r, f n = .ok r → r.shape = n.shape ∨ r.Within limit

/-- A dyad whose results are shaped like one of its operands. -/
def Dyad.Bounded (d : Dyad) : Prop :=
  ∀ l r n, d.apply l r = .ok n → n.shape = l.shape ∨ n.shape = r.shape

lemma MonadicRule.Keeps.bounded {f : MonadicRule} {result : Kind → Kind} (h : f.Keeps result)
    (limit : Nat) : f.Bounded limit := by
  intro n r hr
  obtain ⟨m, hm, -, hshape, -⟩ := h n
  rw [hm] at hr
  cases hr
  exact .inl hshape

lemma Dyad.Agrees.bounded {d : Dyad} {result : Kind → Kind} (h : d.Agrees result) :
    d.Bounded := by
  intro l r n hn
  by_cases hapart : l.Apart r
  · rw [h.failure l r hapart] at hn
    cases hn
  · obtain ⟨m, hm, -, hshape, -⟩ := h.value l r hapart
    rw [hm] at hn
    cases hn
    rw [hshape, Shape.longer]
    split
    · exact .inr rfl
    · exact .inl rfl

lemma Dyad.bounded_one (side : Side) : (Dyad.one side).Bounded := by
  intro l r n h
  cases side with
  | left =>
    cases h
    exact .inl rfl
  | right =>
    cases h
    exact .inr rfl

namespace Registry

variable {limit : Nat} {symbol : String}

lemma bounded_of_monad {f : MonadicRule} (h : (standard limit).monad symbol = .ok f) :
    f.Bounded limit := by
  rcases cases_of_monad h with ⟨result, hkeeps⟩ | ⟨-, rfl⟩
  · exact hkeeps.bounded limit
  · exact fun n r hr => .inr (within_iota hr)

lemma bounded_of_dyad {d : Dyad} (h : (standard limit).dyad symbol = .ok d) : d.Bounded := by
  rcases cases_of_dyad h with ⟨-, result, hagrees⟩ | ⟨side, rfl⟩
  · exact hagrees.bounded
  · exact Dyad.bounded_one side

end Registry

end ArrayCalc
