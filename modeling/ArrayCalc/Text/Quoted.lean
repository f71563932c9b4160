import ArrayCalc.Text.Unassigned
/-!
Quoted text, as messages show names and numerals.

* `shows`: a character that is printed as it is;
* `quoted`: a text between quotes, with everything escaped that would not show: the quote itself,
  the backslash, line ends, controls, blanks other than the space, marks without a shape, codes
  without a character; so that **everything in a quoted text shows** (`shows_of_mem_quoted`), and it
  stays on its line (`newline_not_mem_quoted`);
* `occursIn`, `folded`: looking for a phrase in a text, letter case aside.
-/

namespace ArrayCalc.Text

/-! ### Which characters show -/

/-- Characters past ASCII that leave no visible mark: controls, blanks, format marks, separators and
private characters. -/
def hiddenMarks : List (Nat × Nat) :=
  [(0x7f, 0xa0), (0xad, 0xad), (0x600, 0x605), (0x61c, 0x61c), (0x6dd, 0x6dd), (0x70f, 0x70f),
    (0x890, 0x891), (0x8e2, 0x8e2), (0x1680, 0x1680), (0x180e, 0x180e), (0x2000, 0x200f),
    (0x2028, 0x202f), (0x205f, 0x2064), (0x2066, 0x206f), (0x3000, 0x3000), (0xe000, 0xf8ff),
    (0xfeff, 0xfeff), (0xfff9, 0xfffb), (0x110bd, 0x110bd), (0x110cd, 0x110cd), (0x13430, 0x13438),
    (0x1bca0, 0x1bca3), (0x1d173, 0x1d17a), (0xe0001, 0xe0001), (0xe0020, 0xe007f),
    (0xf0000, 0xffffd), (0x100000, 0x10fffd)]

/-- A character that is printed as it is: one of ASCII that is no control, or one past ASCII that
leaves a mark and is a character at all. -/
def shows (c : Char) : Bool :=
  0x20 ≤ c.toNat &&
    (c.toNat < 0x7f || !(inRanges hiddenMarks c.toNat || inRanges unassigned c.toNat))

/-! ### Quoting -/

/-- The last `width` hexadecimal digits of a number, in lower case. -/
def hexDigits (width n : Nat) : List Char :=
  match width with
  | 0 => []
  | w + 1 => hexDigits w (n / 16) ++ [Nat.digitChar (n % 16)]

/-- A character inside quotes: escaped by its own letter if it has one, by its code in the shortest
of three widths if it does not show. -/
def escaped (quote c : Char) : List Char :=
  if c = quote ∨ c = '\\' then ['\\', c]
  else if c = '\n' then ['\\', 'n']
  else if c = '\r' then ['\\', 'r']
  else if c = '\t' then ['\\', 't']
  else if shows c then [c]
  else if c.toNat < 0x100 then '\\' :: 'x' :: hexDigits 2 c.toNat
  else if c.toNat < 0x10000 then '\\' :: 'u' :: hexDigits 4 c.toNat
  else '\\' :: 'U' :: hexDigits 8 c.toNat

/-- Single quotes, unless the text holds a single quote and no double one. -/
def quoteFor (s : List Char) : Char :=
  if '\x27' ∈ s ∧ '\x22' ∉ s then '\x22' else '\x27'

/-- A text between quotes. -/
def quoted (s : String) : String :=
  let cs := s.toList
  String.ofList (quoteFor cs :: cs.flatMap (escaped (quoteFor cs)) ++ [quoteFor cs])

/-! ### Quoted text shows -/

theorem shows_digitChar {n : Nat} (h : n < 16) : shows (Nat.digitChar n) = true := by
  have hdigits : ∀ k : Fin 16, shows (Nat.digitChar k) = true := by decide
  exact hdigits ⟨n, h⟩

theorem shows_of_mem_hexDigits {width n : Nat} {c : Char} (h : c ∈ hexDigits width n) :
    shows c = true := by
  induction width generalizing n with
  | zero => cases h
  | succ width ih =>
    rcases List.mem_append.1 h with h | h
    · exact ih h
    · rw [List.mem_singleton.1 h]
      exact shows_digitChar (Nat.mod_lt n (by decide))

/-- What a character is escaped as shows, whether the character does or not. -/
theorem shows_of_mem_escaped {quote c d : Char} (hquote : shows quote = true)
    (h : d ∈ escaped quote c) : shows d = true := by
  have hcode : ∀ mark width, shows mark = true →
      d ∈ '\\' :: mark :: hexDigits width c.toNat → shows d = true := by
    intro mark width hmark h
    rcases List.mem_cons.1 h with rfl | h
    · decide
    · rcases List.mem_cons.1 h with rfl | h
      · exact hmark
      · exact shows_of_mem_hexDigits h
  have hletter : ∀ mark, shows mark = true → d ∈ ['\\', mark] → shows d = true :=
    fun mark => hcode mark 0
  unfold escaped at h
  split at h
  · rename_i hc
    rcases hc with rfl | rfl
    · exact hletter _ hquote h
    · exact hletter _ (by decide) h
  split at h
  · exact hletter _ (by decide) h
  split at h
  · exact hletter _ (by decide) h
  split at h
  · exact hletter _ (by decide) h
  split at h
  · rename_i hshows
    rw [List.mem_singleton.1 h]
    exact hshows
  split at h
  · exact hcode _ _ (by decide) h
  split at h
  · exact hcode _ _ (by decide) h
  · exact hcode _ _ (by decide) h

theorem shows_quoteFor (s : List Char) : shows (quoteFor s) = true := by
  unfold quoteFor
  split <;> decide

/-- **Whatever a text holds, between quotes all of it shows.** -/
theorem shows_of_mem_quoted {s : String} {c : Char} (h : c ∈ (quoted s).toList) :
    shows c = true := by
  have hquote := shows_quoteFor s.toList
  rw [quoted, String.toList_ofList, List.cons_append, List.mem_cons, List.mem_append,
    List.mem_singleton, List.mem_flatMap] at h
  rcases h with rfl | ⟨d, -, h⟩ | rfl
  · exact hquote
  · exact shows_of_mem_escaped hquote h
  · exact hquote

/-- A letter, one that no font has, and a code that is none. -/
example : quoted "é\u200b\u0378" = "'é\\u200b\\u0378'" := by decide +kernel

/-- No line end survives quoting. -/
theorem newline_not_mem_quoted (s : String) :
    '\n' ∉ (quoted s).toList ∧ '\r' ∉ (quoted s).toList :=
  ⟨fun h => absurd (shows_of_mem_quoted h) (by decide),
    fun h => absurd (shows_of_mem_quoted h) (by decide)⟩

/-! ### Looking for a phrase -/

/-- The phrase stands somewhere in the text. -/
def occursIn (phrase : List Char) : List Char → Bool
  | [] => phrase.isEmpty
  | c :: r => phrase.isPrefixOf (c :: r) || occursIn phrase r

/-- Capitals as small letters; the Kelvin sign is a capital K. -/
def folded (s : String) : List Char :=
  s.toList.map fun c => if c.toNat = 0x212a then 'k' else c.toLower

end ArrayCalc.Text
