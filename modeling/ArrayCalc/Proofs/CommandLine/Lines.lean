import ArrayCalc.CommandLine.Transcript
import Mathlib.Data.List.Basic
/-!
Texts and their lines.

* `AreLines`: texts that are the lines of a text, each ended by its only line feed, which the last
  one may lack;
* `areLines_linesOf`, `linesOf_flatten`: **a text is cut into such lines, and lines put one after
  the other are cut apart again**;
* `AreLines.remove`: they remain lines when one of them is left out.
-/

namespace ArrayCalc.CommandLine

/-- Texts, each ended by its only line feed; the last one may have none if it is not empty. -/
inductive AreLines : List (List Char) → Prop
  | nil : AreLines []
  | last {s} : s ≠ [] → '\n' ∉ s → AreLines [s]
  | ended {s ls} : '\n' ∉ s → AreLines ls → AreLines ((s ++ ['\n']) :: ls)

variable {s r : List Char}

/-- A text up to its first line feed is its first line. -/
lemma linesOf_ended (h : '\n' ∉ s) : linesOf (s ++ '\n' :: r) = (s ++ ['\n']) :: linesOf r := by
  induction s with
  | nil => rfl
  | cons c s ih =>
    obtain ⟨hc, hs⟩ := not_or.mp (mt List.mem_cons.mpr h)
    rw [List.cons_append, linesOf, if_neg (Ne.symm hc), ih hs]
    rfl

/-- A text without a line feed is a line if it is not empty. -/
lemma linesOf_last (hne : s ≠ []) (h : '\n' ∉ s) : linesOf s = [s] := by
  induction s with
  | nil => exact absurd rfl hne
  | cons c s ih =>
    obtain ⟨hc, hs⟩ := not_or.mp (mt List.mem_cons.mpr h)
    rw [linesOf, if_neg (Ne.symm hc)]
    cases s with
    | nil => rfl
    | cons d s => rw [ih (List.cons_ne_nil d s) hs]

/-- A text is cut into lines. -/
lemma areLines_linesOf (s : List Char) : AreLines (linesOf s) := by
  induction s with
  | nil => exact .nil
  | cons c r ih =>
    rw [linesOf]
    split
    · rename_i hc
      subst hc
      exact .ended List.not_mem_nil ih
    · rename_i hc
      have hcons {t : List Char} (ht : '\n' ∉ t) : '\n' ∉ c :: t :=
        List.not_mem_cons_of_ne_of_not_mem (Ne.symm hc) ht
      generalize linesOf r = lines at ih
      cases ih with
      | nil => exact .last (List.cons_ne_nil c []) (hcons List.not_mem_nil)
      | last hne ht => exact .last (List.cons_ne_nil c _) (hcons ht)
      | ended ht hrest => exact .ended (hcons ht) hrest

/-- Lines are cut apart again. -/
lemma AreLines.linesOf_flatten {lines : List (List Char)} (h : AreLines lines) :
    linesOf lines.flatten = lines := by
  induction h with
  | nil => rfl
  | last hne hs => rw [List.flatten_singleton, linesOf_last hne hs]
  | ended hs hrest ih =>
    rw [List.flatten_cons, List.append_assoc, List.singleton_append, linesOf_ended hs, ih]

/-- Without one of them, lines remain lines. -/
lemma AreLines.remove {before after : List (List Char)} {line : List Char}
    (h : AreLines (before ++ line :: after)) : AreLines (before ++ after) := by
  induction before with
  | nil =>
    cases h with
    | last _ _ => exact .nil
    | ended _ hrest => exact hrest
  | cons l before ih =>
    rw [List.cons_append] at h
    generalize hlines : before ++ line :: after = lines at h
    cases h with
    | last _ _ => cases before <;> cases hlines
    | ended hs hrest => exact .ended hs (ih (hlines ▸ hrest))

end ArrayCalc.CommandLine
