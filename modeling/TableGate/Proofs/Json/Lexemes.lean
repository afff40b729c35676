import TableGate.Proofs.Json.Grammar
import TableGate.Proofs.Result

/-!
# Lexemes

Blanks, texts and numbers are read both ways: what the grammar writes is read
as what it stands for, and what is read is written by the grammar. A number is
read up to where it ends, so what follows must not go on with it.

## Main results

* `Quoted.readText_glyphs`, `exists_quoted`: texts.
* `Numeral.readNumber_integer`, `Numeral.readNumber_decimal`,
  `exists_numeral`: numbers.
-/

namespace TableGate.Json

open Result (bind_eq_ok pure_eq_ok)
open Text (digitsValue spanDigits)

variable {allowed : Bool} {cs rest : List Char} {v : Value}

/-! ## Blanks -/

/-- The blanks at the front are a gap. -/
theorem exists_gap (cs : List Char) :
    ∃ gap : Gap, cs = gap.chars ++ skipBlanks cs :=
  ⟨⟨cs.takeWhile isBlank, fun _ => List.mem_takeWhile_imp⟩,
    List.takeWhile_append_dropWhile.symm⟩

theorem endsNumber_of_isBlank {c : Char} (h : isBlank c = true) :
    c.isDigit = false ∧ c ≠ '.' ∧ c ≠ 'e' ∧ c ≠ 'E' := by
  simp only [isBlank, Bool.or_eq_true, beq_iff_eq] at h
  rcases h with ((rfl | rfl) | rfl) | rfl
  all_goals decide

namespace Gap

variable (gap : Gap)

theorem skipBlanks_append {c : Char} (h : isBlank c = false) :
    skipBlanks (gap.chars ++ c :: rest) = c :: rest := by
  rw [skipBlanks, List.dropWhile_append_of_pos gap.blank,
    List.dropWhile_cons_of_neg (by simp [h])]

theorem skipBlanks_chars : skipBlanks gap.chars = [] :=
  List.dropWhile_eq_nil_iff.2 gap.blank

theorem endsNumber (h : EndsNumber rest) : EndsNumber (gap.chars ++ rest) := by
  cases hChars : gap.chars with
  | nil => exact h
  | cons c others =>
      have hBlank := gap.blank c (by rw [hChars]; exact List.mem_cons_self)
      exact endsNumber_cons (endsNumber_of_isBlank hBlank)

end Gap

/-! ## Texts -/

/-- A glyph is read as its code point. -/
theorem Glyph.readPoints_text (g : Glyph) {start : Nat} {points : List Nat}
    {remaining : List Char}
    (h : readPoints start rest = .ok (points, remaining))
    (hSome : rest ≠ []) :
    readPoints start (g.text ++ rest) = .ok (g.point :: points, remaining) := by
  cases g with
  | plain c hQuote hBackslash hVisible =>
      exact readPoints_plain h hQuote hBackslash hVisible
  | short letter c hEscape => exact readPoints_shortEscape h hEscape
  | unit a b d e n hNumber => exact readPoints_unit h hNumber hSome

theorem readPoints_glyphs (start : Nat) (glyphs : List Glyph)
    (rest : List Char) :
    readPoints start (glyphs.flatMap Glyph.text ++ quote :: rest) =
      .ok (glyphs.map Glyph.point, rest) := by
  induction glyphs with
  | nil =>
      rw [List.flatMap_nil, List.nil_append, readPoints.eq_def]
      rfl
  | cons g others ih =>
      rw [List.flatMap_cons, List.append_assoc]
      exact g.readPoints_text ih
        (List.append_ne_nil_of_right_ne_nil _ (List.cons_ne_nil _ _))

/-- A text is read up to its closing quote. -/
theorem Quoted.readText_glyphs (q : Quoted) (rest : List Char) :
    readText (q.glyphs.flatMap Glyph.text ++ quote :: rest) =
      .ok (q.value, rest) := by
  rw [readText, readPoints_glyphs]
  rfl

/-- What is read up to a quote are glyphs. -/
theorem exists_glyphs {start : Nat} {points : List Nat}
    (h : readPoints start cs = .ok (points, rest)) :
    ∃ glyphs : List Glyph, cs = glyphs.flatMap Glyph.text ++ quote :: rest ∧
      glyphs.map Glyph.point = points := by
  fun_induction readPoints start cs generalizing points rest
  case case2 =>
    obtain ⟨rfl, rfl⟩ := Prod.mk.inj (Except.ok.inj h)
    exact ⟨[], rfl, rfl⟩
  case case5 hNumber _ _ _ hMore _ ih =>
    obtain ⟨rfl, rfl⟩ := Prod.mk.inj (Except.ok.inj h)
    obtain ⟨glyphs, rfl, rfl⟩ := ih hMore
    exact ⟨.unit _ _ _ _ _ hNumber :: glyphs, rfl, rfl⟩
  case case9 hEscape _ _ hMore _ ih =>
    obtain ⟨rfl, rfl⟩ := Prod.mk.inj (Except.ok.inj h)
    obtain ⟨glyphs, rfl, rfl⟩ := ih hMore
    exact ⟨.short _ _ hEscape :: glyphs, rfl, rfl⟩
  case case13 hQuote hBackslash hVisible _ _ hMore ih =>
    obtain ⟨rfl, rfl⟩ := Prod.mk.inj (Except.ok.inj h)
    obtain ⟨glyphs, rfl, rfl⟩ := ih hMore
    exact ⟨.plain _ hQuote hBackslash hVisible :: glyphs, rfl, rfl⟩
  all_goals cases h

/-- What is read as a text is one. -/
theorem exists_quoted {s : String} (h : readText cs = .ok (s, rest)) :
    ∃ q : Quoted, quote :: cs = q.text ++ rest ∧ q.value = s := by
  obtain ⟨⟨points, remaining⟩, hPoints, hText⟩ := bind_eq_ok.1 h
  obtain ⟨rfl, rfl⟩ := Prod.mk.inj (pure_eq_ok.1 hText)
  obtain ⟨glyphs, rfl, rfl⟩ := exists_glyphs hPoints
  refine ⟨⟨glyphs⟩, ?_, rfl⟩
  rw [Quoted.text, List.cons_append, List.append_assoc]
  rfl

/-! ## Numbers -/

theorem Digits.spanDigits_append (ds : Digits) (h : EndsDigits rest) :
    spanDigits (ds.chars ++ rest) = (ds.chars, rest) :=
  Json.spanDigits_append ds.digits h

/-- The digits at the front, if there is one. -/
theorem exists_digits {found remaining : List Char} (hSome : found ≠ [])
    (h : spanDigits cs = (found, remaining)) :
    ∃ ds : Digits, ds.chars = found ∧ cs = ds.chars ++ remaining := by
  obtain ⟨rfl, rfl⟩ := Prod.mk.inj h
  exact ⟨⟨_, hSome, fun _ => List.mem_takeWhile_imp⟩, rfl,
    List.takeWhile_append_dropWhile.symm⟩

namespace Whole

variable (whole : Whole)

theorem exists_chars : ∃ c others, whole.chars = c :: others ∧
    c.isDigit = true := by
  obtain ⟨c, others, hChars⟩ := List.exists_cons_of_ne_nil whole.some
  exact ⟨c, others, hChars, whole.digits c (by simp [hChars])⟩

theorem readWhole_chars (h : EndsDigits rest) :
    readWhole (whole.chars ++ rest) = (whole.chars, rest) := by
  rcases whole.start with hZero | hHead
  · rw [hZero]
    rfl
  · exact readWhole_append whole.some hHead whole.digits h

theorem splitMinus_chars (negative : Bool) :
    splitMinus (signText negative ++ (whole.chars ++ rest)) =
      (negative, whole.chars ++ rest) := by
  cases negative with
  | true => rfl
  | false =>
      obtain ⟨c, others, hChars, hDigit⟩ := whole.exists_chars
      rw [hChars, signText, if_neg Bool.false_ne_true, List.nil_append,
        List.cons_append, splitMinus]
      rintro _ hMinus
      rw [(List.cons.inj hMinus).1] at hDigit
      exact absurd hDigit (by decide)

end Whole

theorem endsDigits_powerText {power : Option Power} (h : EndsNumber rest) :
    EndsDigits (powerText power ++ rest) ∧
      (powerText power ++ rest).head? ≠ some '.' := by
  cases power with
  | none => exact ⟨h.endsDigits, fun hPoint => (h '.' hPoint).2.1 rfl⟩
  | some power =>
      constructor
      · intro c hc
        obtain rfl := Option.some.inj hc
        rcases power.isMark with hMark | hMark <;> rw [hMark] <;> decide
      · intro hPoint
        have hMark := power.isMark
        rw [Option.some.inj hPoint] at hMark
        exact absurd hMark (by decide)

theorem endsDigits_placesText {places : Option Digits}
    (h : EndsDigits rest) : EndsDigits (placesText places ++ rest) := by
  cases places with
  | none => exact h
  | some places =>
      intro c hc
      obtain rfl := Option.some.inj hc
      rfl

theorem readPlaces_placesText (places : Option Digits)
    (h : EndsDigits rest ∧ rest.head? ≠ some '.') :
    readPlaces (placesText places ++ rest) = (placeDigits places, rest) := by
  cases places with
  | none =>
      rw [placesText, List.nil_append, placeDigits]
      unfold readPlaces
      split
      · exact absurd rfl h.2
      · rfl
  | some places =>
      obtain ⟨c, others, hChars⟩ := List.exists_cons_of_ne_nil places.some
      have hSpan := places.spanDigits_append h.1
      rw [placesText, placeDigits, List.cons_append, readPlaces, hSpan]
      rw [hChars]

/-- The places at the front, if there are any. -/
theorem exists_places {places remaining : List Char}
    (h : readPlaces cs = (places, remaining)) :
    ∃ found : Option Digits, placeDigits found = places ∧
      cs = placesText found ++ remaining := by
  unfold readPlaces at h
  split at h
  · split at h
    · obtain ⟨rfl, rfl⟩ := Prod.mk.inj h
      exact ⟨none, rfl, rfl⟩
    · next hSome =>
        have hFound : places ≠ [] := by
          rintro rfl
          exact hSome _ h
        obtain ⟨ds, rfl, rfl⟩ := exists_digits hFound h
        exact ⟨some ds, rfl, rfl⟩
  · obtain ⟨rfl, rfl⟩ := Prod.mk.inj h
    exact ⟨none, rfl, rfl⟩

/-- What follows a sign; without a sign it does not start with one. -/
def Sign.Before (sign : Sign) (body : List Char) : Prop :=
  sign = .none → body.head? ≠ some '-' ∧ body.head? ≠ some '+'

theorem exists_sign (cs : List Char) :
    ∃ (sign : Sign) (body : List Char), cs = sign.text ++ body ∧
      sign.Before body := by
  by_cases hMinus : cs.head? = some '-'
  · obtain ⟨body, rfl⟩ := List.head?_eq_some_iff.1 hMinus
    exact ⟨.minus, body, rfl, nofun⟩
  · by_cases hPlus : cs.head? = some '+'
    · obtain ⟨body, rfl⟩ := List.head?_eq_some_iff.1 hPlus
      exact ⟨.plus, body, rfl, nofun⟩
    · exact ⟨.none, cs, rfl, fun _ => ⟨hMinus, hPlus⟩⟩

/-- After its mark and sign a power is read as digits. -/
theorem readPower?_mark {mark : Char} (hMark : mark = 'e' ∨ mark = 'E')
    {sign : Sign} {body : List Char} (hBody : sign.Before body) :
    readPower? (mark :: (sign.text ++ body)) =
      match spanDigits body with
      | ([], _) => none
      | (ds, remaining) =>
          let n : Int := digitsValue ds
          some (if sign = .minus then -n else n, remaining) := by
  cases sign with
  | none =>
      obtain ⟨hMinus, hPlus⟩ := hBody rfl
      cases body with
      | nil => exact if_pos hMark
      | cons c others =>
          have hMinus : c ≠ '-' := fun hEq => hMinus (congrArg some hEq)
          have hPlus : c ≠ '+' := fun hEq => hPlus (congrArg some hEq)
          exact readPower?_unsigned hMark hMinus hPlus others
  | plus => exact if_pos hMark
  | minus => exact if_pos hMark

theorem Power.readPower?_text (power : Power) (h : EndsDigits rest) :
    readPower? (power.text ++ rest) = some (power.value, rest) := by
  obtain ⟨mark, sign, digits, hMark⟩ := power
  have hSpan := digits.spanDigits_append h
  obtain ⟨c, others, hChars⟩ := List.exists_cons_of_ne_nil digits.some
  have hDigit := digits.digits c (by simp [hChars])
  have hBody : sign.Before (digits.chars ++ rest) := by
    intro _
    rw [hChars]
    constructor
    · intro hMinus
      rw [Option.some.inj hMinus] at hDigit
      exact absurd hDigit (by decide)
    · intro hPlus
      rw [Option.some.inj hPlus] at hDigit
      exact absurd hDigit (by decide)
  rw [Power.text, List.cons_append, List.append_assoc,
    readPower?_mark hMark hBody, hSpan, Power.value]
  rw [hChars]

theorem readPower?_powerText_append (power : Option Power)
    (h : EndsNumber rest) :
    readPower? (Json.powerText power ++ rest) =
      power.map fun p => (p.value, rest) := by
  cases power with
  | none => exact readPower?_of_endsNumber h
  | some power => exact power.readPower?_text h.endsDigits

/-- The power at the front, if there is one. -/
theorem exists_power {n : Int} (h : readPower? cs = some (n, rest)) :
    ∃ power : Power, power.value = n ∧ cs = power.text ++ rest := by
  cases cs with
  | nil => cases h
  | cons mark tail =>
      have hMark : mark = 'e' ∨ mark = 'E' := by
        rw [readPower?.eq_def] at h
        dsimp only at h
        split at h
        · assumption
        · cases h
      obtain ⟨sign, body, rfl, hBody⟩ := exists_sign tail
      rw [readPower?_mark hMark hBody] at h
      split at h
      · cases h
      · next hSome hSpan =>
          obtain ⟨hValue, rfl⟩ := Prod.mk.inj (Option.some.inj h)
          obtain ⟨ds, rfl, rfl⟩ := exists_digits hSome hSpan
          refine ⟨⟨mark, sign, ds, hMark⟩, hValue, ?_⟩
          rw [Power.text, List.cons_append, List.append_assoc]

/-- The whole part at the front, if there is a digit. -/
theorem exists_whole {digits : List Char} (hSome : digits ≠ [])
    (h : readWhole cs = (digits, rest)) :
    ∃ whole : Whole, whole.chars = digits ∧ cs = whole.chars ++ rest := by
  unfold readWhole at h
  split at h
  · obtain ⟨rfl, rfl⟩ := Prod.mk.inj h
    exact ⟨⟨⟨['0'], hSome, List.forall_mem_singleton.2 rfl⟩, Or.inl rfl⟩,
      rfl, rfl⟩
  · next hZero =>
      obtain ⟨ds, rfl, rfl⟩ := exists_digits hSome h
      refine ⟨⟨ds, Or.inr fun hHead => ?_⟩, rfl, rfl⟩
      obtain ⟨others, hOthers⟩ := List.head?_eq_some_iff.1 hHead
      exact hZero (others ++ rest) (by rw [hOthers]; rfl)

theorem signText_splitMinus {negative : Bool}
    (h : splitMinus cs = (negative, rest)) :
    cs = signText negative ++ rest := by
  unfold splitMinus at h
  split at h
  · obtain ⟨rfl, rfl⟩ := Prod.mk.inj h
    rfl
  · obtain ⟨rfl, rfl⟩ := Prod.mk.inj h
    rfl

/-- What is read unless a number is refused. -/
def outcome {α : Type} (stop : Option Stop) (result : α) : Except Stop α :=
  match stop with
  | some stop => .error stop
  | none => .ok result

namespace Numeral

theorem readNumber_integer (negative : Bool) (whole : Whole)
    (h : EndsNumber rest) :
    readNumber ((integer negative whole).text ++ rest) =
      outcome ((integer negative whole).stop? allowed)
        ((integer negative whole).value, rest) := by
  have hSome : whole.chars.isEmpty = false :=
    List.isEmpty_eq_false_iff.2 whole.some
  rw [text, List.append_assoc]
  simp only [readNumber, whole.splitMinus_chars,
    whole.readWhole_chars h.endsDigits, hSome, Bool.false_eq_true, if_false,
    readPlaces_of_endsNumber h, readPower?_of_endsNumber h, stop?, value]
  split
  · rfl
  · rfl

theorem readNumber_decimal (negative : Bool) (whole : Whole)
    (places : Option Digits) (power : Option Power)
    (fractional : places.isSome ∨ power.isSome) (h : EndsNumber rest) :
    readNumber ((decimal negative whole places power fractional).text ++
        rest) =
      .ok ((decimal negative whole places power fractional).value, rest) := by
  have hSome : whole.chars.isEmpty = false :=
    List.isEmpty_eq_false_iff.2 whole.some
  have hEnd : EndsDigits (powerText power ++ rest) ∧
      (powerText power ++ rest).head? ≠ some '.' := endsDigits_powerText h
  rw [text, List.append_assoc, List.append_assoc, List.append_assoc]
  simp only [readNumber, whole.splitMinus_chars,
    whole.readWhole_chars (endsDigits_placesText hEnd.1), hSome,
    Bool.false_eq_true, if_false, readPlaces_placesText places hEnd,
    readPower?_powerText_append power h, value]
  cases power with
  | none =>
      cases places with
      | none => exact absurd fractional (by decide)
      | some places =>
          obtain ⟨c, others, hChars⟩ := List.exists_cons_of_ne_nil places.some
          rw [placeDigits, hChars]
          rfl
  | some power => cases placeDigits places <;> rfl

end Numeral

/-- What is read as a number is one. -/
theorem exists_numeral (h : readNumber cs = .ok (v, rest)) :
    ∃ n : Numeral, cs = n.text ++ rest ∧ n.value = v ∧
      n.stop? allowed = none := by
  unfold readNumber at h
  obtain ⟨negative, body, hSign⟩ : ∃ negative body,
      splitMinus cs = (negative, body) := ⟨_, _, rfl⟩
  obtain ⟨digits, afterWhole, hWhole⟩ : ∃ digits afterWhole,
      readWhole body = (digits, afterWhole) := ⟨_, _, rfl⟩
  obtain ⟨placeChars, afterPlaces, hPlaces⟩ : ∃ placeChars afterPlaces,
      readPlaces afterWhole = (placeChars, afterPlaces) := ⟨_, _, rfl⟩
  obtain rfl := signText_splitMinus hSign
  obtain ⟨places, rfl, rfl⟩ := exists_places hPlaces
  simp only [hSign, hWhole, hPlaces] at h
  split at h
  · cases h
  next hSome =>
    obtain ⟨whole, rfl, rfl⟩ := exists_whole (mt List.isEmpty_iff.2 hSome)
      hWhole
    cases hPower : readPower? afterPlaces with
    | some found =>
        obtain ⟨n, remaining⟩ := found
        obtain ⟨power, rfl, rfl⟩ := exists_power hPower
        rw [hPower] at h
        split at h
        · next hNone => cases hNone
        · obtain ⟨rfl, rfl⟩ := Prod.mk.inj (Except.ok.inj h)
          refine ⟨.decimal negative whole places (some power) (Or.inr rfl),
            ?_, rfl, rfl⟩
          simp only [Numeral.text, powerText, List.append_assoc,
            Option.getD_some]
    | none =>
        rw [hPower] at h
        cases places with
        | none =>
            rw [placeDigits] at h
            dsimp only at h
            split at h
            · cases h
            · next hShort =>
                obtain ⟨rfl, rfl⟩ := Prod.mk.inj (Except.ok.inj h)
                refine ⟨.integer negative whole, ?_, rfl, if_neg hShort⟩
                rw [Numeral.text, List.append_assoc, placesText,
                  List.nil_append]
        | some places =>
            obtain ⟨c, others, hChars⟩ :=
              List.exists_cons_of_ne_nil places.some
            rw [placeDigits, hChars] at h
            obtain ⟨rfl, rfl⟩ := Prod.mk.inj (Except.ok.inj h)
            refine ⟨.decimal negative whole (some places) none (Or.inl rfl),
              ?_, ?_, rfl⟩
            · simp only [Numeral.text, powerText, List.append_assoc,
                List.nil_append, Option.getD_none]
            · rw [Numeral.value, placeDigits, hChars]
              rfl

end TableGate.Json
