import Mathlib.Tactic.Ring
import TableGate.Proofs.Text
import TableGate.Text.Integer

/-!
# Reading integers back

What is written as a decimal text is read as the same integer, by every
reader of this library that the text may be given to. The limit on the number
of digits is the one that writing obeys as well.

## Main results

* `digitsValue_natDigits`: the digits of a number stand for it.
* `digitsValue_append`: digits stand for more by what stands after them.
* `digitsValue_lt`: the number of digits bounds what they stand for.
* `readInteger_natText`: a number that is written is read back.
-/

namespace TableGate.Text

/-! ## Digits -/

theorem isDigit_of_mem_natDigits {n : Nat} {c : Char} (h : c ∈ natDigits n) :
    c.isDigit = true :=
  Nat.isDigit_of_mem_toDigits (by decide) (by decide) h

theorem natDigits_ne_nil (n : Nat) : natDigits n ≠ [] := Nat.toDigits_ne_nil

/-- The digits of a number begin with one. -/
theorem exists_natDigits_eq (n : Nat) :
    ∃ c rest, natDigits n = c :: rest ∧ c.isDigit = true := by
  obtain ⟨c, rest, hDigits⟩ := List.exists_cons_of_ne_nil (natDigits_ne_nil n)
  have hFirst : c ∈ natDigits n := by simp [hDigits]
  exact ⟨c, rest, hDigits, isDigit_of_mem_natDigits hFirst⟩

theorem digitsValue_natDigits (n : Nat) : digitsValue (natDigits n) = n := by
  rw [digitsValue, ofDigits, List.foldl_map, ← Nat.ofDigitChars_eq_foldl]
  exact Nat.ofDigitChars_ten_toDigits

/-- Digits stand for more by what stands after them. -/
theorem digitsValue_append (front back : List Char) :
    digitsValue (front ++ back) =
      digitsValue front * 10 ^ back.length + digitsValue back := by
  have hFold : ∀ (ds : List Nat) (n : Nat),
      ds.foldl (fun n d => 10 * n + d) n =
        n * 10 ^ ds.length + ds.foldl (fun n d => 10 * n + d) 0 := by
    intro ds
    induction ds with
    | nil => exact fun n => by simp
    | cons d ds ih =>
        intro n
        rw [List.foldl_cons, List.foldl_cons, ih, ih (10 * 0 + d),
          List.length_cons, Nat.pow_succ]
        ring
  rw [digitsValue, List.map_append, ofDigits, List.foldl_append, hFold,
    List.length_map]
  rfl

/-- A digit is a visible character of ASCII. -/
theorem toNat_of_isDigit {c : Char} (h : c.isDigit = true) :
    48 ≤ c.toNat ∧ c.toNat ≤ 57 := by
  simp only [Char.isDigit, Bool.and_eq_true, decide_eq_true_eq] at h
  exact ⟨UInt32.le_iff_toNat_le.1 h.1, UInt32.le_iff_toNat_le.1 h.2⟩

/-- Digits stand for less than a one with as many zeros. -/
theorem digitsValue_lt {cs : List Char} (h : ∀ c ∈ cs, c.isDigit = true) :
    digitsValue cs < 10 ^ cs.length := by
  induction cs with
  | nil => decide
  | cons c cs ih =>
      obtain ⟨hDigit, hOthers⟩ := List.forall_mem_cons.1 h
      have hBounds := toNat_of_isDigit hDigit
      have hOne : digitsValue [c] = c.toNat - 48 := by
        simp [digitsValue, ofDigits]
      have hRest := ih hOthers
      have hSplit : digitsValue (c :: cs) =
          (c.toNat - 48) * 10 ^ cs.length + digitsValue cs := by
        rw [← hOne, ← digitsValue_append, List.singleton_append]
      have hFirst : (c.toNat - 48) * 10 ^ cs.length ≤ 9 * 10 ^ cs.length :=
        Nat.mul_le_mul_right _ (by omega)
      rw [hSplit, List.length_cons, Nat.pow_succ]
      omega

theorem isBlank_of_isDigit {c : Char} (h : c.isDigit = true) :
    isBlank c = false := by
  have hBounds := toNat_of_isDigit h
  exact isBlank_of_visible (by omega) (by omega)

/-- A text of digits has no blank at its ends. -/
theorem trimChars_natDigits (n : Nat) : trimChars (natDigits n) = natDigits n :=
  trimChars_eq_self
    (fun _ hc => isBlank_of_isDigit
      (isDigit_of_mem_natDigits (List.mem_of_mem_head? hc)))
    (fun _ hc => isBlank_of_isDigit
      (isDigit_of_mem_natDigits (List.mem_of_mem_getLast? hc)))

theorem isAllBlank_natText (n : Nat) : isAllBlank (natText n) = false := by
  obtain ⟨c, rest, hDigits, hDigit⟩ := exists_natDigits_eq n
  simp [isAllBlank, natText, hDigits, isBlank_of_isDigit hDigit]

theorem isWritable_natCast {n : Nat} :
    isWritable (n : Int) = true ↔ n < 10 ^ maxIntegerDigits := by
  rw [isWritable, decide_eq_true_iff, Int.natAbs_natCast, Nat.pow_eq]

/-! ## Reading -/

/-- Digits have no underscores to drop. -/
theorem dropUnderscores?_of_isDigit {cs : List Char} (hSome : cs ≠ [])
    (h : ∀ c ∈ cs, c.isDigit = true) : dropUnderscores? cs = some cs := by
  have hNot : '_' ∉ cs := fun hMem => absurd (h _ hMem) (by decide)
  have hKeep : cs.filter (· != '_') = cs := by
    rw [List.filter_eq_self]
    intro c hc
    have hOther : c ≠ '_' := fun hEq => hNot (hEq ▸ hc)
    simpa using hOther
  have hPieces : (splitOn '_' cs).any List.isEmpty = false := by
    rw [splitOn_of_not_mem hNot]
    simpa using hSome
  rw [dropUnderscores?, hPieces, hKeep]
  rfl

/-- A text that starts with a digit has no sign. -/
theorem splitSign_of_isDigit {c : Char} {rest : List Char}
    (h : c.isDigit = true) : splitSign (c :: rest) = (false, c :: rest) := by
  unfold splitSign
  split
  · next hEq => exact absurd h (by rw [(List.cons.inj hEq).1]; decide)
  · next hEq => exact absurd h (by rw [(List.cons.inj hEq).1]; decide)
  · rfl

/-- The digits of a number are read as that number, unless they are too many. -/
theorem readAsciiInteger_natDigits (n : Nat) :
    readAsciiInteger (natDigits n) =
      if isWritable (n : Int) then .ok (n : Int)
      else .error (.tooManyDigits (natDigits n).length) := by
  obtain ⟨c, rest, hDigits, hFirst⟩ := exists_natDigits_eq n
  have hAll : ∀ d ∈ natDigits n, d.isDigit = true :=
    fun _ => isDigit_of_mem_natDigits
  have hInside : ∀ d ∈ natDigits n, (d.isDigit || d == '_') = true :=
    fun d hd => by rw [hAll d hd, Bool.true_or]
  have hSpace : isAsciiSpace c = false := by
    have hBounds := toNat_of_isDigit hFirst
    have hNotSpace : c ≠ ' ' := by
      rintro rfl
      exact absurd hBounds (by decide)
    simp [isAsciiSpace, hNotSpace]
    omega
  have hStart : (natDigits n).dropWhile isAsciiSpace = natDigits n := by
    rw [hDigits, List.dropWhile_cons, hSpace]
    rfl
  have hSign : splitSign (natDigits n) = (false, natDigits n) := by
    rw [hDigits, splitSign_of_isDigit hFirst]
  have hLength : maxIntegerDigits < (natDigits n).length ↔
      ¬isWritable (n : Int) = true := by
    rw [isWritable_iff, Int.natAbs_natCast, Nat.not_le]
  simp only [readAsciiInteger, hStart, hSign,
    List.takeWhile_eq_self_iff.2 hInside,
    List.dropWhile_eq_nil_iff.2 hInside,
    dropUnderscores?_of_isDigit (natDigits_ne_nil n) hAll, hLength, ite_not,
    List.all_nil, if_true, digitsValue_natDigits, signed]
  rfl

/-- The text of a number is read as that number, unless it is too long. -/
theorem readInteger_natText (n : Nat) :
    readInteger (natText n) =
      if isWritable (n : Int) then .ok (n : Int)
      else .error (.tooManyDigits (natDigits n).length) := by
  have hAscii : ∀ c ∈ natDigits n, asciiForm c = c := by
    intro c hc
    have hBounds := toNat_of_isDigit (isDigit_of_mem_natDigits hc)
    exact if_pos (by omega)
  have hForm : (natText n).toList.map asciiForm = natDigits n := by
    rw [natText, String.toList_ofList]
    exact (List.map_congr_left hAscii).trans (List.map_id _)
  rw [readInteger, hForm, readAsciiInteger_natDigits]

end TableGate.Text
