import Mathlib.Algebra.Group.Nat.Defs
import TableGate.Json.Writer
import TableGate.Proofs.Integer

/-!
# Texts and numbers of a document, read back

A text is written with escapes, a character beyond the sixteen-bit range even
with two of them, and a number as its digits. Each is read back whatever
follows it in the document, as long as what follows does not go on with the
number.

## Main results

* `readText_textChars`: a text is read back from between its quotes.
* `readNumber_intText`: an integer is read back from its digits.
-/

namespace TableGate

/-! ## Hexadecimal digits -/

namespace Text

theorem hexValue?_hexDigit {n : Nat} (h : n < 16) :
    hexValue? (hexDigit n) = some n := by
  have hAll : ∀ m : Fin 16, hexValue? (hexDigit m) = some m := by
    decide +kernel
  exact hAll ⟨n, h⟩

theorem hexNumber?_hexDigits (width n : Nat) :
    hexNumber? (hexDigits width n) = some (n % 16 ^ width) := by
  induction width generalizing n with
  | zero => rw [Nat.pow_zero, Nat.mod_one]; rfl
  | succ width ih =>
      have hLast := hexValue?_hexDigit (Nat.mod_lt n (by decide : 16 > 0))
      unfold hexNumber? at ih ⊢
      rw [hexDigits, List.foldlM_append, ih, Nat.pow_succ', Nat.mod_mul]
      simp only [Option.bind_eq_bind, Option.bind_some, List.foldlM_cons,
        List.foldlM_nil, hLast, Option.map_some, Option.pure_def]
      rw [Nat.mul_comm, Nat.add_comm]

/-- A positive number does not start with a zero. -/
theorem head?_natDigits {n : Nat} (h : 0 < n) :
    (natDigits n).head? ≠ some '0' := by
  induction n using Nat.strongRecOn with
  | ind n ih =>
      rcases Nat.lt_or_ge n 10 with hOne | hMore
      · have hAll : ∀ m : Fin 10, 0 < m.val →
            (Nat.toDigits 10 m.val).head? ≠ some '0' := by decide +kernel
        exact hAll ⟨n, hOne⟩ h
      · have hShort : 0 < n / 10 := Nat.div_pos hMore (by decide)
        have hHead := ih (n / 10) (Nat.div_lt_self h (by decide)) hShort
        have hSome := natDigits_ne_nil (n / 10)
        rw [natDigits] at hHead hSome ⊢
        rw [Nat.toDigits_of_base_le (by decide) hMore]
        obtain ⟨c, rest, hDigits⟩ := List.exists_cons_of_ne_nil hSome
        rwa [hDigits] at hHead ⊢

end Text

namespace Json

open Text (digitsValue hexDigits intText natDigits spanDigits)

/-! ## Texts -/

/-- The code units that a character is written as. -/
def unitsOf (escapeBeyondAscii : Bool) (c : Char) : List Nat :=
  if escapeBeyondAscii && 0x10000 ≤ c.toNat then
    let n := c.toNat - 0x10000
    [0xd800 + n / 0x400, 0xdc00 + n % 0x400]
  else [c.toNat]

theorem toNat_lt (c : Char) : c.toNat < 0xd800 ∨
    0xdfff < c.toNat ∧ c.toNat < 0x110000 := c.valid

theorem isHighSurrogate_toNat (c : Char) :
    Encoding.isHighSurrogate c.toNat = false := by
  have hValid := toNat_lt c
  rw [Encoding.isHighSurrogate, Bool.and_eq_false_iff, decide_eq_false_iff_not,
    decide_eq_false_iff_not]
  omega

theorem isLowSurrogate_toNat (c : Char) :
    Encoding.isLowSurrogate c.toNat = false := by
  have hValid := toNat_lt c
  rw [Encoding.isLowSurrogate, Bool.and_eq_false_iff, decide_eq_false_iff_not,
    decide_eq_false_iff_not]
  omega

theorem pointChar_toNat (c : Char) : Encoding.pointChar c.toNat = c := by
  rw [Encoding.pointChar, isHighSurrogate_toNat, isLowSurrogate_toNat]
  exact Char.ofNat_toNat c

/-- The code units of a text are joined to its characters. -/
theorem joinSurrogates_unitsOf (escapeBeyondAscii : Bool) (cs : List Char) :
    Encoding.joinSurrogates (cs.flatMap (unitsOf escapeBeyondAscii)) = cs := by
  induction cs with
  | nil => rfl
  | cons c rest ih =>
      rw [List.flatMap_cons]
      cases hPair : escapeBeyondAscii && decide (0x10000 ≤ c.toNat) with
      | false =>
          rw [unitsOf, if_neg (by simp [hPair])]
          cases hRest : rest.flatMap (unitsOf escapeBeyondAscii) with
          | nil =>
              rw [hRest] at ih
              rw [← ih]
              exact congrArg (fun d => [d]) (pointChar_toNat c)
          | cons next others =>
              rw [hRest] at ih
              rw [List.singleton_append, Encoding.joinSurrogates,
                isHighSurrogate_toNat, ih, pointChar_toNat]
              rfl
      | true =>
          obtain ⟨-, hBeyond⟩ := Bool.and_eq_true_iff.1 hPair
          have hBounds := toNat_lt c
          have hBeyond := of_decide_eq_true hBeyond
          have hHigh : Encoding.isHighSurrogate
              (0xd800 + (c.toNat - 0x10000) / 0x400) = true := by
            simp only [Encoding.isHighSurrogate, Bool.and_eq_true,
              decide_eq_true_eq]
            omega
          have hLow : Encoding.isLowSurrogate
              (0xdc00 + (c.toNat - 0x10000) % 0x400) = true := by
            simp only [Encoding.isLowSurrogate, Bool.and_eq_true,
              decide_eq_true_eq]
            omega
          have hJoin : Encoding.pairChar
              (0xd800 + (c.toNat - 0x10000) / 0x400)
              (0xdc00 + (c.toNat - 0x10000) % 0x400) = c := by
            rw [Encoding.pairChar]
            rw [show 0x10000 + (0xd800 + (c.toNat - 0x10000) / 0x400 - 0xd800)
              * 0x400 + (0xdc00 + (c.toNat - 0x10000) % 0x400 - 0xdc00) =
                c.toNat by omega]
            exact Char.ofNat_toNat c
          rw [unitsOf, if_pos hPair]
          simp only [List.cons_append, List.nil_append]
          rw [Encoding.joinSurrogates, hHigh, hLow, hJoin, ih]
          rfl

section

variable {start : Nat} {points : List Nat} {rest remaining : List Char}
  (h : readPoints start rest = .ok (points, remaining))
include h

theorem readPoints_unit {a b d e : Char} {n : Nat}
    (hNumber : Text.hexNumber? [a, b, d, e] = some n) (hSome : rest ≠ []) :
    readPoints start (backslash :: 'u' :: a :: b :: d :: e :: rest) =
      .ok (n :: points, remaining) := by
  rw [readPoints, if_neg (by decide), if_pos rfl, hNumber]
  simp only [h, List.isEmpty_eq_false_iff.2 hSome, Bool.false_eq_true,
    if_false]

theorem readPoints_unitEscape {n : Nat} (hUnit : n < 0x10000)
    (hSome : rest ≠ []) :
    readPoints start (unitEscape n ++ rest) =
      .ok (n :: points, remaining) := by
  have hNumber : Text.hexNumber? (hexDigits 4 n) = some n := by
    rw [Text.hexNumber?_hexDigits, Nat.mod_eq_of_lt (by omega)]
  exact readPoints_unit h hNumber hSome

theorem readPoints_shortEscape {letter c : Char}
    (hEscape : shortEscape? letter = some c) :
    readPoints start (backslash :: letter :: rest) =
      .ok (c.toNat :: points, remaining) := by
  have hLetter : letter ≠ 'u' := by
    rintro rfl
    cases hEscape
  rw [readPoints, if_neg (by decide), if_pos rfl]
  · simp only [if_neg hLetter, hEscape, h]
  · exact fun _ _ _ _ _ hLong _ => hLetter hLong

theorem readPoints_plain {c : Char} (hQuote : c ≠ quote)
    (hBackslash : c ≠ backslash) (hVisible : ¬ c.toNat < 0x20) :
    readPoints start (c :: rest) = .ok (c.toNat :: points, remaining) := by
  rw [readPoints.eq_def]
  simp only [if_neg hQuote, if_neg hBackslash, if_neg hVisible, h]

/-- A character is read back as its code units. -/
theorem readPoints_textChar (escapeBeyondAscii : Bool) (c : Char)
    (hSome : rest ≠ []) :
    readPoints start (textChar escapeBeyondAscii c ++ rest) =
      .ok (unitsOf escapeBeyondAscii c ++ points, remaining) := by
  have hOne : c.toNat < 0x10000 → unitsOf escapeBeyondAscii c = [c.toNat] := by
    intro hUnit
    rw [unitsOf, if_neg]
    simp only [Bool.and_eq_true, decide_eq_true_eq]
    omega
  unfold textChar
  split
  · next hMark =>
      have hEscape : shortEscape? c = some c :=
        if_pos (hMark.imp_right Or.inl)
      have hUnit : c.toNat < 0x10000 := by
        rcases hMark with rfl | rfl
        all_goals decide
      rw [hOne hUnit]
      exact readPoints_shortEscape h hEscape
  · next hMark =>
      have hQuote : c ≠ quote := fun hEq => hMark (Or.inl hEq)
      have hBackslash : c ≠ backslash := fun hEq => hMark (Or.inr hEq)
      split_ifs with hLine hReturn hTab hBack hFeed hControl hBeyond hUnit
      · subst hLine
        rw [hOne (by decide)]
        exact readPoints_shortEscape h (by decide)
      · subst hReturn
        rw [hOne (by decide)]
        exact readPoints_shortEscape h (by decide)
      · subst hTab
        rw [hOne (by decide)]
        exact readPoints_shortEscape h (by decide)
      · subst hBack
        rw [hOne (by decide)]
        exact readPoints_shortEscape h (by decide)
      · subst hFeed
        rw [hOne (by decide)]
        exact readPoints_shortEscape h (by decide)
      · have hUnit : c.toNat < 0x10000 := by omega
        rw [hOne hUnit]
        exact readPoints_unitEscape h hUnit hSome
      · rw [hOne hUnit]
        exact readPoints_unitEscape h hUnit hSome
      · have hBounds := toNat_lt c
        have hPair : unitsOf escapeBeyondAscii c =
            [0xd800 + (c.toNat - 0x10000) / 0x400,
              0xdc00 + (c.toNat - 0x10000) % 0x400] := by
          rw [unitsOf, if_pos]
          rw [Bool.and_eq_true] at hBeyond ⊢
          exact ⟨hBeyond.1, by rw [decide_eq_true_eq]; omega⟩
        have hLow := readPoints_unitEscape h
          (n := 0xdc00 + (c.toNat - 0x10000) % 0x400) (by omega) hSome
        rw [hPair, List.append_assoc]
        exact readPoints_unitEscape hLow (by omega)
          (List.append_ne_nil_of_right_ne_nil _ hSome)
      · have hOnly : unitsOf escapeBeyondAscii c = [c.toNat] := by
          rw [unitsOf, if_neg]
          simp only [Bool.and_eq_true, decide_eq_true_eq] at hBeyond ⊢
          exact fun hPair => hBeyond ⟨hPair.1, by omega⟩
        rw [hOnly]
        exact readPoints_plain h hQuote hBackslash hControl

end

theorem readPoints_textChars (escapeBeyondAscii : Bool) (start : Nat)
    (cs rest : List Char) :
    readPoints start (cs.flatMap (textChar escapeBeyondAscii) ++
        quote :: rest) =
      .ok (cs.flatMap (unitsOf escapeBeyondAscii), rest) := by
  induction cs with
  | nil =>
      rw [List.flatMap_nil, List.nil_append, readPoints.eq_def]
      rfl
  | cons c others ih =>
      rw [List.flatMap_cons, List.flatMap_cons, List.append_assoc]
      exact readPoints_textChar ih escapeBeyondAscii c
        (List.append_ne_nil_of_right_ne_nil _ (List.cons_ne_nil _ _))

/-- A text is read back from between its quotes. -/
theorem readText_textChars (escapeBeyondAscii : Bool) (s : String)
    (rest : List Char) :
    readText (s.toList.flatMap (textChar escapeBeyondAscii) ++
      quote :: rest) = .ok (s, rest) := by
  rw [readText, readPoints_textChars]
  show Except.ok (String.ofList (Encoding.joinSurrogates _), rest) = _
  rw [joinSurrogates_unitsOf, String.ofList_toList]

/-! ## Numbers -/

/-- What follows does not go on with a number. -/
def EndsNumber (rest : List Char) : Prop :=
  ∀ c ∈ rest.head?, c.isDigit = false ∧ c ≠ '.' ∧ c ≠ 'e' ∧ c ≠ 'E'

/-- What follows does not start with a digit. -/
def EndsDigits (rest : List Char) : Prop :=
  ∀ c ∈ rest.head?, c.isDigit = false

theorem EndsNumber.endsDigits {rest : List Char} (h : EndsNumber rest) :
    EndsDigits rest := fun c hc => (h c hc).1

theorem readPlaces_of_endsNumber {rest : List Char} (h : EndsNumber rest) :
    readPlaces rest = ([], rest) := by
  unfold readPlaces
  split
  · exact absurd rfl (h '.' rfl).2.1
  · rfl

theorem readPower?_of_endsNumber {rest : List Char} (h : EndsNumber rest) :
    readPower? rest = none := by
  cases rest with
  | nil => rfl
  | cons c others =>
      have hEnd := h c rfl
      rw [readPower?.eq_def]
      refine if_neg ?_
      exact fun hMark => hMark.elim hEnd.2.2.1 hEnd.2.2.2

theorem spanDigits_append {digits rest : List Char}
    (hDigits : ∀ c ∈ digits, c.isDigit = true) (h : EndsDigits rest) :
    spanDigits (digits ++ rest) = (digits, rest) := by
  have hRest : rest.takeWhile Char.isDigit = [] ∧
      rest.dropWhile Char.isDigit = rest := by
    cases rest with
    | nil => exact ⟨rfl, rfl⟩
    | cons c others => simp [h c rfl]
  rw [spanDigits, List.takeWhile_append_of_pos hDigits,
    List.dropWhile_append_of_pos hDigits, hRest.1, hRest.2, List.append_nil]

/-- Digits that do not start with a zero are a whole part. -/
theorem readWhole_append {digits rest : List Char} (hSome : digits ≠ [])
    (hHead : digits.head? ≠ some '0')
    (hDigits : ∀ c ∈ digits, c.isDigit = true) (h : EndsDigits rest) :
    readWhole (digits ++ rest) = (digits, rest) := by
  have hSpan := spanDigits_append hDigits h
  obtain ⟨c, others, rfl⟩ := List.exists_cons_of_ne_nil hSome
  rw [List.cons_append] at hSpan ⊢
  rw [readWhole]
  · exact hSpan
  · exact fun _ hZero => hHead (congrArg some (List.cons.inj hZero).1)

/-- The whole part of a number is its digits. -/
theorem readWhole_natDigits {n : Nat} {rest : List Char}
    (h : EndsNumber rest) :
    readWhole (natDigits n ++ rest) = (natDigits n, rest) := by
  rcases Nat.eq_zero_or_pos n with rfl | hPos
  · rfl
  · exact readWhole_append (Text.natDigits_ne_nil n) (Text.head?_natDigits hPos)
      (fun c => Text.isDigit_of_mem_natDigits) h.endsDigits

/-- Digits alone are an integer, whatever the sign before them. -/
theorem readNumber_of_splitMinus {n : Nat} {cs rest : List Char}
    {negative : Bool} (hWritable : Text.isWritable (n : Int) = true)
    (hSign : splitMinus cs = (negative, natDigits n ++ rest))
    (h : EndsNumber rest) :
    readNumber cs = .ok (.int (if negative then -n else n), rest) := by
  have hLength : ¬ Text.maxIntegerDigits < (natDigits n).length :=
    Nat.not_lt.2 (Text.isWritable_iff.1 hWritable)
  have hSome : (natDigits n).isEmpty = false :=
    List.isEmpty_eq_false_iff.2 (Text.natDigits_ne_nil n)
  simp only [readNumber, hSign, readWhole_natDigits h, hSome,
    Bool.false_eq_true, if_false, readPlaces_of_endsNumber h,
    readPower?_of_endsNumber h, if_neg hLength, Text.digitsValue_natDigits]

theorem splitMinus_natDigits (n : Nat) (rest : List Char) :
    splitMinus (natDigits n ++ rest) = (false, natDigits n ++ rest) := by
  obtain ⟨c, others, hDigits, hDigit⟩ := Text.exists_natDigits_eq n
  rw [hDigits, List.cons_append, splitMinus]
  rintro _ hMinus
  rw [(List.cons.inj hMinus).1] at hDigit
  exact absurd hDigit (by decide)

/-- An integer is read back from its digits. -/
theorem readNumber_intText {i : Int} {rest : List Char}
    (hWritable : Text.isWritable i = true) (h : EndsNumber rest) :
    readNumber ((intText i).toList ++ rest) = .ok (.int i, rest) := by
  cases i with
  | ofNat n =>
      rw [intText, Text.natText, String.toList_ofList]
      exact readNumber_of_splitMinus hWritable (splitMinus_natDigits n rest) h
  | negSucc n =>
      rw [intText, String.toList_ofList]
      have hSign : splitMinus ('-' :: natDigits (n + 1) ++ rest) =
          (true, natDigits (n + 1) ++ rest) := rfl
      exact readNumber_of_splitMinus hWritable hSign h

end Json
end TableGate
