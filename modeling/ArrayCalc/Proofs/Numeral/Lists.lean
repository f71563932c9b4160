import ArrayCalc.Numeral
import ArrayCalc.Proofs.Error.Outcomes
/-!
What lists of numerals stand for.

* `Element.raised`: an element at a higher kind; `Noun.elements`: the elements of a noun, each with
  its kind;
* `readLiteral_eq_ok`, `readLiteral_eq_error`: a literal is its numeral, or fails as that does;
* `numeralList`, `numeralNoun`: what numerals stand for, as an array or as the noun of a word;
  `readVector_eq`, `numberLiteral_eq`: **that is the result, if every numeral is read**;
* `elements_numeralNoun`: its elements are those of the numerals, raised to the highest kind;
  `shape_numeralNoun`, `kind_numeralNoun`, `isAtom_numeralNoun`, `commonNumeralKind_cases`: its
  shape, and its kind.
-/

namespace ArrayCalc

open Lexer

/-! ### Elements and their kinds -/

namespace Element

/-- An element at a kind, if that is no lower than its own. -/
def raised (k : Kind) (e : Element) : Element :=
  if h : e.kind ≤ k then ⟨k, Kind.widen h e.value⟩ else e

lemma raised_of_le {k : Kind} {e : Element} (h : e.kind ≤ k) :
    e.raised k = ⟨k, Kind.widen h e.value⟩ := dif_pos h

lemma raised_self (e : Element) : e.raised e.kind = e := by
  rw [raised_of_le (Kind.le_refl _), Kind.widen_self]

end Element

namespace Noun

/-- The elements in row-major order. -/
def elements (n : Noun) : List Element := n.value.data.map fun x => ⟨n.kind, x⟩

lemma kind_of_mem_elements {n : Noun} {e : Element} (h : e ∈ n.elements) : e.kind = n.kind := by
  obtain ⟨x, -, rfl⟩ := List.mem_map.1 h
  rfl

lemma elements_array (k : Kind) (a : Dense k.Elem) :
    (array k a).elements = a.data.map fun x => ⟨k, x⟩ := rfl

lemma elements_atom (k : Kind) (x : k.Elem) : (atom k x).elements = [⟨k, x⟩] := rfl

end Noun

/-! ### Literals -/

lemma readLiteral_eq_ok {text : String} {e : Element} (h : readLiteral text = .ok e) :
    readNumeral text = .ok e := eq_ok_of_mapError_eq_ok h

lemma readLiteral_eq_error {text : String} {f : Failure} (h : readLiteral text = .error f) :
    ∃ e, readNumeral text = .error e ∧ f = ⟨.literal text, [.numeral e]⟩ :=
  exists_error_of_mapError_eq_error h

/-! ### The noun of a numeral word -/

/-- A list as an array with one axis. -/
def Dense.ofList {α : Type} (xs : List α) : Dense α := ⟨[xs.length], xs, by simp⟩

lemma kind_le_of_attached {es : List Element} (e : { e // e ∈ es }) :
    e.1.kind ≤ commonNumeralKind es := kind_le_commonNumeralKind e.2

/-- What numerals stand for, as an array at the highest of their kinds. -/
def numeralList (es : List Element) : Noun :=
  .array (commonNumeralKind es)
    (.ofList (es.attach.map fun e => Kind.widen (kind_le_of_attached e) e.1.value))

/-- What numerals stand for: an atom if there is one, and otherwise a list. -/
def numeralNoun : List Element → Noun
  | [e] => .atom e.kind e.value
  | es => numeralList es

lemma readVector_eq (texts : List String) :
    readVector texts = (texts.mapM readLiteral).map numeralList := by
  rw [readVector]
  cases texts.mapM readLiteral <;> rfl

/-- The noun of a numeral word is that of what its numerals stand for, if they all are read. -/
lemma numberLiteral_eq {t : Token} (hk : t.kind = .number) :
    numberLiteral t = (t.parts.mapM readLiteral).map numeralNoun := by
  rw [numberLiteral, if_neg (not_not_intro hk)]
  match t.parts with
  | [] => rfl
  | [p] =>
    rw [List.mapM_cons]
    change readAtom p = _
    rw [readAtom]
    cases readLiteral p <;> rfl
  | p :: q :: ps =>
    change readVector (p :: q :: ps) = _
    rw [readVector_eq, List.mapM_cons, List.mapM_cons]
    cases readLiteral p with
    | error _ => rfl
    | ok a =>
      cases readLiteral q with
      | error _ => rfl
      | ok b => cases ps.mapM readLiteral <;> rfl

lemma elements_numeralList (es : List Element) :
    (numeralList es).elements = es.map (Element.raised (commonNumeralKind es)) := by
  rw [numeralList, Noun.elements_array, Dense.ofList, List.map_map]
  refine Eq.trans (List.map_congr_left fun e _ => ?_) List.attach_map_val
  exact (Element.raised_of_le (kind_le_commonNumeralKind e.2)).symm

section
variable {es : List Element} (hes : ∀ e ∈ es, Kind.integer ≤ e.kind)
include hes

/-- Booleans aside, an atom is of the kind that a list of it alone would have. -/
lemma kind_numeralNoun : (numeralNoun es).kind = commonNumeralKind es := by
  match es with
  | [] => rfl
  | [e] => exact (if_pos (hes e List.mem_cons_self)).symm
  | _ :: _ :: _ => rfl

lemma elements_numeralNoun :
    (numeralNoun es).elements = es.map (Element.raised (commonNumeralKind es)) := by
  match es with
  | [] => rfl
  | [e] =>
    have hkind : commonNumeralKind [e] = e.kind := if_pos (hes e List.mem_cons_self)
    rw [numeralNoun, Noun.elements_atom, hkind, List.map_singleton, Element.raised_self]
  | e :: d :: es => exact elements_numeralList (e :: d :: es)

end

lemma isAtom_numeralNoun (es : List Element) :
    (numeralNoun es).isAtom = decide (es.length = 1) := by
  match es with
  | [] | [e] | _ :: _ :: _ => rfl

lemma shape_numeralNoun (es : List Element) :
    (numeralNoun es).shape = if es.length = 1 then [] else [es.length] := by
  match es with
  | [] => rfl
  | [e] => rfl
  | e :: d :: es =>
    change [(List.map _ (List.attach (e :: d :: es))).length] = _
    rw [List.length_map, List.length_attach]
    rfl

/-- Integers alone have the kind of integers; with decimals among them, that of decimals. -/
lemma commonNumeralKind_cases {k : Kind} {es : List Element}
    (h : ∀ e ∈ es, e.kind = .integer ∨ e.kind = .decimal ∧ k = .decimal) :
    commonNumeralKind es = .integer ∨ commonNumeralKind es = .decimal ∧ k = .decimal := by
  induction es with
  | nil => exact .inl rfl
  | cons e es ih =>
    have hes := ih fun d hd => h d (List.mem_cons_of_mem e hd)
    change Kind.join e.kind (commonNumeralKind es) = _ ∨
      Kind.join e.kind (commonNumeralKind es) = _ ∧ _
    rcases h e List.mem_cons_self with he | ⟨he, hk⟩ <;> rcases hes with hes | ⟨hes, hk'⟩ <;>
      rw [he, hes]
    · exact .inl rfl
    · exact .inr ⟨rfl, hk'⟩
    · exact .inr ⟨rfl, hk⟩
    · exact .inr ⟨rfl, hk⟩

end ArrayCalc
