import ArrayCalc.Proofs.Array.Indexing
import ArrayCalc.Proofs.Numeral.Lists
/-!
A list of numerals is read numeral by numeral.

* `readAtom_eq_ok_iff`, `readAtom_eq_error_iff`: what a single numeral stands for, and how reading
  it fails; `kind_of_readNumeral`: its kind;
* `commonNumeralKind_of_integers`, `commonNumeralKind_of_decimal`: the kind of a list;
* `Dense.get_ofList`, `numeralList_eq`: its elements;
* `readVector_follows_readAtom`: **the list fails as the first numeral in it that fails, and else
  holds what each stands for, at one kind.**
-/

namespace ArrayCalc

/-! ### Single numerals -/

lemma readAtom_eq (text : String) :
    readAtom text = (readLiteral text).map fun e => .atom e.kind e.value := by
  rw [readAtom]
  cases readLiteral text <;> rfl

lemma readAtom_eq_ok_iff {text : String} {n : Noun} :
    readAtom text = .ok n ↔ ∃ e, readLiteral text = .ok e ∧ n = .atom e.kind e.value := by
  rw [readAtom_eq, map_eq_ok_iff]

lemma readAtom_eq_error_iff {text : String} {f : Failure} :
    readAtom text = .error f ↔ readLiteral text = .error f := by
  rw [readAtom_eq, map_eq_error_iff]

/-- Numerals are integers or decimals. -/
lemma kind_of_readNumeral {text : String} {e : Element} (h : readNumeral text = .ok e) :
    e.kind = .integer ∨ e.kind = .decimal := by
  rw [readNumeral] at h
  split_ifs at h
  · exact .inr (congrArg Element.kind (Except.ok.inj h)).symm
  · exact .inr (congrArg Element.kind (Except.ok.inj h)).symm
  · split at h
    · cases h
    · split_ifs at h
      · exact .inr (congrArg Element.kind (Except.ok.inj h)).symm
      · exact .inl (congrArg Element.kind (Except.ok.inj h)).symm

/-! ### Kinds -/

lemma commonNumeralKind_of_integers {es : List Element} (h : ∀ e ∈ es, e.kind = .integer) :
    commonNumeralKind es = .integer := by
  rcases commonNumeralKind_cases (k := .integer) fun e he => .inl (h e he) with hk | ⟨-, hk⟩
  · exact hk
  · cases hk

lemma commonNumeralKind_of_decimal {es : List Element} {e : Element} (he : e ∈ es)
    (hk : e.kind = .decimal) : commonNumeralKind es = .decimal := by
  have hle : Kind.decimal ≤ commonNumeralKind es := hk ▸ kind_le_commonNumeralKind he
  cases hc : commonNumeralKind es with
  | decimal => rfl
  | boolean | integer =>
    rw [hc] at hle
    exact absurd hle (by decide)

/-! ### Elements -/

/-- In an array with one axis the index is the place. -/
lemma Dense.get_ofList {α : Type} {xs : List α} {i : Nat} {x : α} (h : xs[i]? = some x) :
    (Dense.ofList xs).get [(i : Int)] = .ok x := by
  have hlt : i < xs.length := (List.getElem?_eq_some_iff.1 h).1
  have hrange : 0 ≤ (i : Int) ∧ (i : Int) < Int.ofNat xs.length :=
    ⟨Int.natCast_nonneg i, Int.ofNat_lt.2 hlt⟩
  have hplace : offset? (Shape.extents [xs.length]) [(i : Int)] 0 = some i := by
    refine (if_pos hrange).trans ?_
    rw [Nat.zero_mul, Nat.zero_add, Int.toNat_natCast]
    rfl
  exact get_of_offset hplace h

lemma numeralList_eq (es : List Element) :
    ∃ a : Dense (commonNumeralKind es).Elem,
      numeralList es = .array (commonNumeralKind es) a ∧ a.shape = [es.length] ∧
        ∀ (i : Nat) (hi : i < es.length),
          a.get [(i : Int)] =
            .ok (Kind.widen (kind_le_commonNumeralKind (List.getElem_mem hi)) es[i].value) := by
  refine ⟨_, rfl, ?_, fun i hi => Dense.get_ofList ?_⟩
  · exact congrArg (fun n => [n]) ((List.length_map _).trans List.length_attach)
  · have hi' : i < es.attach.length := List.length_attach.symm ▸ hi
    have hattached : es.attach[i] = ⟨es[i], List.getElem_mem hi⟩ :=
      Subtype.ext (congrArg Subtype.val (List.getElem_attach hi'))
    rw [List.getElem?_map, List.getElem?_eq_getElem hi', Option.map_some, hattached]

/-! ### Lists -/

/-- The first numeral that cannot be read is to blame. -/
lemma readVector_eq_error_iff {texts : List String} {f : Failure} :
    readVector texts = .error f ↔ ∃ before text after, texts = before ++ text :: after ∧
      (∀ other ∈ before, ∃ n, readAtom other = .ok n) ∧ readAtom text = .error f := by
  have hatom : ∀ text, (∃ n, readAtom text = .ok n) ↔ ∃ e, readLiteral text = .ok e := by
    intro text
    constructor
    · rintro ⟨n, hn⟩
      obtain ⟨e, he, -⟩ := readAtom_eq_ok_iff.1 hn
      exact ⟨e, he⟩
    · rintro ⟨e, he⟩
      exact ⟨_, readAtom_eq_ok_iff.2 ⟨e, he, rfl⟩⟩
  simp only [readVector_eq, map_eq_error_iff, mapM_eq_error_iff, hatom, readAtom_eq_error_iff]

/-- What is read of each numeral makes the list. -/
lemma readVector_eq_ok_iff {texts : List String} {v : Noun} :
    readVector texts = .ok v ↔
      ∃ es, List.Forall₂ (fun text e => readLiteral text = .ok e) texts es ∧
        v = numeralList es := by
  simp only [readVector_eq, map_eq_ok_iff, mapM_eq_ok_iff]

/-- **A list of numerals is read numeral by numeral.**  It cannot be read exactly if one of them
cannot, and then it fails as the first of these does, for what is wrong with that one.  Otherwise it
has one axis, with a place for each of them; it is of the kind of integers as long as all of them
are, and of that of decimals otherwise; and at each place stands what the numeral there stands for,
at this kind. -/
theorem readVector_follows_readAtom (texts : List String) :
    ((∃ f, readVector texts = .error f) ↔ ∃ text ∈ texts, ∃ f, readAtom text = .error f) ∧
    (∀ f, readVector texts = .error f →
      ∃ before text after e, texts = before ++ text :: after ∧
        (∀ other ∈ before, ∃ n, readAtom other = .ok n) ∧ readAtom text = .error f ∧
        readNumeral text = .error e ∧ f = ⟨.literal text, [.numeral e]⟩) ∧
    (∀ v, readVector texts = .ok v →
      ∃ a : Dense v.kind.Elem, v = .array v.kind a ∧ a.shape = [texts.length] ∧
        ((∀ text ∈ texts, ∃ n, readAtom text = .ok n ∧ n.kind = .integer) → v.kind = .integer) ∧
        ((∃ text ∈ texts, ∃ n, readAtom text = .ok n ∧ n.kind ≠ .integer) → v.kind = .decimal) ∧
        ∀ (i : Nat) (hi : i < texts.length), ∃ n x, readAtom texts[i] = .ok n ∧
          n.cast v.kind = .ok (.atom v.kind x) ∧ a.get [(i : Int)] = .ok x) := by
  refine ⟨⟨?fails, ?failing⟩, ?first, ?elements⟩
  case fails =>
    rintro ⟨f, hf⟩
    obtain ⟨before, text, after, rfl, -, htext⟩ := readVector_eq_error_iff.1 hf
    exact ⟨text, List.mem_append_right _ List.mem_cons_self, f, htext⟩
  case failing =>
    rintro ⟨text, htext, f, hf⟩
    cases hread : readVector texts with
    | error g => exact ⟨g, rfl⟩
    | ok v =>
      obtain ⟨es, hes, -⟩ := readVector_eq_ok_iff.1 hread
      obtain ⟨i, hi, rfl⟩ := List.getElem_of_mem htext
      cases (readAtom_eq_error_iff.1 hf).symm.trans (hes.get hi (hes.length_eq ▸ hi))
  case first =>
    intro f hf
    obtain ⟨before, text, after, htexts, hbefore, htext⟩ := readVector_eq_error_iff.1 hf
    obtain ⟨e, he, hcause⟩ := readLiteral_eq_error (readAtom_eq_error_iff.1 htext)
    exact ⟨before, text, after, e, htexts, hbefore, htext, he, hcause⟩
  case elements =>
    intro v hv
    obtain ⟨es, hes, rfl⟩ := readVector_eq_ok_iff.1 hv
    have hlength := hes.length_eq
    have hatom : ∀ (i : Nat) (hi : i < texts.length) (hi' : i < es.length),
        readAtom texts[i] = .ok (.atom es[i].kind es[i].value) := fun i hi hi' =>
      readAtom_eq_ok_iff.2 ⟨es[i], hes.get hi hi', rfl⟩
    obtain ⟨a, ha, hshape, hget⟩ := numeralList_eq es
    refine ⟨a, ha, hlength ▸ hshape, ?_, ?_, ?_⟩
    · intro hintegers
      refine commonNumeralKind_of_integers fun e he => ?_
      obtain ⟨i, hi, rfl⟩ := List.getElem_of_mem he
      have hi' : i < texts.length := hlength ▸ hi
      obtain ⟨n, hn, hk⟩ := hintegers _ (List.getElem_mem hi')
      obtain rfl := Except.ok.inj ((hatom i hi' hi).symm.trans hn)
      exact hk
    · rintro ⟨text, htext, n, hn, hk⟩
      obtain ⟨i, hi, rfl⟩ := List.getElem_of_mem htext
      have hi' : i < es.length := hlength ▸ hi
      obtain rfl := Except.ok.inj ((hatom i hi hi').symm.trans hn)
      have hkind := kind_of_readNumeral (readLiteral_eq_ok (hes.get hi hi'))
      exact commonNumeralKind_of_decimal (List.getElem_mem hi') (hkind.resolve_left hk)
    · intro i hi
      have hi' : i < es.length := hlength ▸ hi
      exact ⟨_, _, hatom i hi hi',
        Noun.cast_eq_ok (kind_le_commonNumeralKind (List.getElem_mem hi')), hget i hi'⟩

/-- Of two numerals that cannot be read the first is to blame; and an integer beside an infinity
becomes a decimal. -/
theorem malformed_and_mixed_lists :
    (∃ f, readVector ["1", "2x", "3y"] = .error f ∧
      ∃ before text after, ["1", "2x", "3y"] = before ++ text :: after ∧
        (∀ other ∈ before, ∃ n, readAtom other = .ok n) ∧ readAtom text = .error f) ∧
    (∃ v, readVector ["1", "_"] = .ok v ∧ v.kind = .decimal ∧
      ∃ n x, readAtom "1" = .ok n ∧ n.cast v.kind = .ok (.atom v.kind x)) := by
  refine ⟨⟨⟨.literal "2x", [.numeral (.malformed "2x")]⟩, rfl, ?_⟩, ?_⟩
  · obtain ⟨before, text, after, -, htexts, hbefore, htext, -⟩ :=
      (readVector_follows_readAtom ["1", "2x", "3y"]).2.1 _ rfl
    exact ⟨before, text, after, htexts, hbefore, htext⟩
  · have hread : readVector ["1", "_"] =
        .ok (numeralList [⟨.integer, 1⟩, ⟨.decimal, infinity⟩]) := rfl
    obtain ⟨a, -, -, -, hdecimal, hget⟩ := (readVector_follows_readAtom ["1", "_"]).2.2 _ hread
    obtain ⟨n, x, hn, hx, -⟩ := hget 0 Nat.two_pos
    refine ⟨_, hread, hdecimal ⟨"_", List.mem_cons_of_mem _ List.mem_cons_self, ?_⟩, n, x, hn, hx⟩
    exact ⟨.atom .decimal infinity, rfl, Kind.noConfusion⟩

end ArrayCalc
