/-!
# Blank characters and trimming

The character classes of this library are either a handful of ASCII characters
or long lists taken from the character database. The latter are stored as
closed ranges of code points, and blanks are the shortest of them.

Names, operators and list entries may be surrounded by blanks, which are
dropped before anything else looks at them. A blank is any white space of the
character database together with the four information separators U+001C to
U+001F. Two smaller classes serve formats that allow fewer blanks: white space
without the separators, and of that the part within ASCII.

## Main results

* `trimChars_eq_self`: trimming changes nothing when no end is blank.
* `trimChars_trimChars`: trimming twice is trimming once.
-/

namespace TableGate.Text

/-- Whether one of the closed ranges of code points holds the character. -/
def inRanges (ranges : List (Nat × Nat)) (c : Char) : Bool :=
  ranges.any fun range => range.1 ≤ c.toNat && c.toNat ≤ range.2

theorem inRanges_iff {ranges : List (Nat × Nat)} {c : Char} :
    inRanges ranges c = true ↔
      ∃ range ∈ ranges, range.1 ≤ c.toNat ∧ c.toNat ≤ range.2 := by
  simp [inRanges]

/-- Closed ranges of the blank code points. -/
def blankRanges : List (Nat × Nat) := [
  (0x9, 0xd), (0x1c, 0x20), (0x85, 0x85), (0xa0, 0xa0), (0x1680, 0x1680),
  (0x2000, 0x200a), (0x2028, 0x2029), (0x202f, 0x202f), (0x205f, 0x205f),
  (0x3000, 0x3000)]

/-- A blank: white space or an information separator. -/
def isBlank (c : Char) : Bool := inRanges blankRanges c

/-- White space in the narrow sense, without the information separators. -/
def isWhiteSpace (c : Char) : Bool :=
  isBlank c && !(0x1c ≤ c.toNat && c.toNat ≤ 0x1f)

/-- White space within ASCII. -/
def isAsciiSpace (c : Char) : Bool :=
  c == ' ' || (0x9 ≤ c.toNat && c.toNat ≤ 0xd)

/-- Drop the characters of a class from both ends. -/
def stripChars (p : Char → Bool) (cs : List Char) : List Char :=
  ((cs.dropWhile p).reverse.dropWhile p).reverse

/-- Drop the blanks from both ends. -/
def trimChars (cs : List Char) : List Char := stripChars isBlank cs

/-- Drop the blanks from both ends of a text. -/
def trim (s : String) : String := .ofList (trimChars s.toList)

/-- Whether a text holds nothing but blanks. -/
def isAllBlank (s : String) : Bool := s.toList.all isBlank

/-! ## Trimming -/

/-- A list whose ends lie outside the class keeps all of its characters. -/
theorem stripChars_eq_self {p : Char → Bool} {cs : List Char}
    (hHead : ∀ c ∈ cs.head?, p c = false)
    (hLast : ∀ c ∈ cs.getLast?, p c = false) : stripChars p cs = cs := by
  have hDrop : ∀ {l : List Char}, (∀ c ∈ l.head?, p c = false) →
      l.dropWhile p = l := by
    intro l h
    cases l with
    | nil => rfl
    | cons c rest => simp [h c (by simp)]
  have hReverse : ∀ c ∈ cs.reverse.head?, p c = false := by
    intro c hc
    exact hLast c (by simpa using hc)
  rw [stripChars, hDrop hHead, hDrop hReverse, List.reverse_reverse]

theorem trimChars_eq_self {cs : List Char}
    (hHead : ∀ c ∈ cs.head?, isBlank c = false)
    (hLast : ∀ c ∈ cs.getLast?, isBlank c = false) : trimChars cs = cs :=
  stripChars_eq_self hHead hLast

private theorem head?_dropWhile {p : Char → Bool} {cs : List Char} :
    ∀ c ∈ (cs.dropWhile p).head?, p c = false := by
  induction cs with
  | nil => simp
  | cons d rest ih =>
      by_cases hd : p d
      · simpa [hd] using ih
      · simp [hd]

/-- After stripping neither end lies in the class. -/
theorem getLast?_stripChars {p : Char → Bool} {cs : List Char} :
    ∀ c ∈ (stripChars p cs).getLast?, p c = false := by
  intro c hc
  rw [stripChars, List.getLast?_reverse] at hc
  exact head?_dropWhile c hc

theorem head?_stripChars {p : Char → Bool} {cs : List Char} :
    ∀ c ∈ (stripChars p cs).head?, p c = false := by
  intro c hc
  have hSuffix : (cs.dropWhile p).reverse.dropWhile p <:+
      (cs.dropWhile p).reverse := List.dropWhile_suffix p
  have hPrefix : stripChars p cs <+: cs.dropWhile p := by
    have h := List.reverse_prefix.2 hSuffix
    simpa [stripChars] using h
  obtain ⟨rest, hRest⟩ := hPrefix
  have hMem : c ∈ (cs.dropWhile p).head? := by
    rw [← hRest, List.head?_append]
    simp [Option.mem_def.1 hc]
  exact head?_dropWhile c hMem

theorem trimChars_trimChars (cs : List Char) :
    trimChars (trimChars cs) = trimChars cs :=
  trimChars_eq_self head?_stripChars getLast?_stripChars

end TableGate.Text
