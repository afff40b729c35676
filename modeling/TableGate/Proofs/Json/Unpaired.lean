import TableGate.Proofs.Encoding.PlainText
import TableGate.Proofs.Json.Grammar

/-!
# Halves of surrogate pairs

Text is a sequence of characters, and half of a surrogate pair is none. A
document may hold one all the same: as bytes, in each of its encodings, or as
an escape. Where the other half does not stand beside it, it is read as the
replacement character, and the text is no longer what the document holds. Of a
document without such halves nothing is replaced.

## Main results

* `Encoding.Spells.joinSurrogates_eq`: what spells characters is read as them.
* `Json.Quoted.codePoints_text`: the escapes of a text are read as its glyphs
  are.
* `Json.not_holdsUnpaired`: plain text without escapes holds no such half.
-/

namespace TableGate

namespace Encoding

/-- Numbers spell characters: each is a code point, or the first half of a
surrogate pair whose second half comes next. -/
inductive Spells : List Nat → List Char → Prop
  | nil : Spells [] []
  | point (c : Char) {points : List Nat} {cs : List Char}
      (rest : Spells points cs) : Spells (c.toNat :: points) (c :: cs)
  | pair {high low : Nat} {points : List Nat} {cs : List Char}
      (isHigh : isHighSurrogate high = true)
      (isLow : isLowSurrogate low = true) (rest : Spells points cs) :
      Spells (high :: low :: points) (pairChar high low :: cs)

/-- What spells characters is read as them. -/
theorem Spells.joinSurrogates_eq {points : List Nat} {cs : List Char}
    (h : Spells points cs) : joinSurrogates points = cs := by
  induction h with
  | nil => rfl
  | @point c points cs _ ih =>
      cases points with
      | nil =>
          rw [← ih]
          exact congrArg (· :: []) (Json.pointChar_toNat c)
      | cons next points =>
          rw [joinSurrogates, Json.isHighSurrogate_toNat, ih,
            Json.pointChar_toNat]
          rfl
  | pair isHigh isLow _ ih =>
      rw [joinSurrogates, isHigh, isLow, ih]
      rfl

/-- The code points of characters spell them. -/
theorem spells_map_toNat (cs : List Char) : Spells (cs.map Char.toNat) cs := by
  induction cs with
  | nil => exact .nil
  | cons c cs ih => exact .point c ih

/-- The numbers that groups of four bytes form. -/
def quadValues (bigEndian : Bool) : Bytes → List Nat
  | a :: b :: c :: d :: rest =>
      quadValue bigEndian a b c d :: quadValues bigEndian rest
  | _ => []

/-- Bytes that hold characters, and no half of a surrogate pair alone. -/
def Charset.Holds : Charset → Bytes → List Char → Prop
  | .utf8, bytes, cs => Utf8.decode bytes = .ok cs
  | .utf16 bigEndian, bytes, cs => Spells (pairValues bigEndian bytes) cs
  | .utf32 bigEndian, bytes, cs =>
      quadValues bigEndian bytes = cs.map Char.toNat

end Encoding

namespace Json

/-- The code points of a document, with the escapes in its texts read. -/
def codePoints : List Char → List Nat
  | [] => []
  | c :: rest =>
      if c = backslash then
        match rest with
        | 'u' :: a :: b :: d :: e :: more =>
            (Text.hexNumber? [a, b, d, e]).toList ++ codePoints more
        | letter :: more =>
            ((shortEscape? letter).getD letter).toNat :: codePoints more
        | [] => []
      else c.toNat :: codePoints rest

/-- The escapes of a text are read as its glyphs are. -/
theorem Quoted.codePoints_text (q : Quoted) :
    codePoints q.text =
      quote.toNat :: (q.glyphs.map Glyph.point ++ [quote.toNat]) := by
  have hGlyphs : ∀ glyphs : List Glyph,
      codePoints (glyphs.flatMap Glyph.text ++ [quote]) =
        glyphs.map Glyph.point ++ [quote.toNat] := by
    intro glyphs
    induction glyphs with
    | nil => rfl
    | cons glyph glyphs ih =>
        rw [List.flatMap_cons, List.append_assoc, List.map_cons,
          List.cons_append, ← ih]
        cases glyph with
        | plain c _ escape_free =>
            show codePoints (c :: _) = c.toNat :: _
            rw [codePoints.eq_def]
            exact if_neg escape_free
        | short letter c escape =>
            -- An escape of one letter is not the start of a code unit.
            have hLetter : letter ≠ 'u' := by
              rintro rfl
              cases escape
            show codePoints (backslash :: letter :: _) = c.toNat :: _
            rw [codePoints, if_pos rfl, escape]
            · rfl
            · exact fun _ _ _ _ _ hUnit _ => hLetter hUnit
        | unit a b d e n number =>
            show codePoints (backslash :: 'u' :: a :: b :: d :: e :: _) = n :: _
            rw [codePoints, if_pos rfl, number]
            rfl
  rw [← hGlyphs]
  show codePoints (quote :: _) = _
  rw [codePoints.eq_def]
  exact if_neg (by decide)

/-- Text without escapes is the characters it holds. -/
theorem codePoints_eq_map {cs : List Char} (h : backslash ∉ cs) :
    codePoints cs = cs.map Char.toNat := by
  induction cs with
  | nil => rfl
  | cons c cs ih =>
      rw [codePoints.eq_def, List.map_cons,
        ← ih (List.not_mem_of_not_mem_cons h)]
      exact if_neg (List.ne_of_not_mem_cons h).symm

/-- Bytes that are a document in which half of a surrogate pair stands alone,
in the bytes themselves or in an escape. -/
def HoldsUnpaired (bytes : Bytes) : Prop :=
  ∃ d : Document, Encoding.decodeDocument bytes = .ok d.text ∧
    ¬((Encoding.detect bytes).1.Holds (bytes.drop (Encoding.detect bytes).2)
      d.text ∧ ∃ cs, Encoding.Spells (codePoints d.text) cs)

/-- Plain text without escapes holds no half of a surrogate pair. -/
theorem not_holdsUnpaired {bytes : Bytes} {cs : List Char}
    (hText : Encoding.IsPlainText bytes cs) (hEscapes : backslash ∉ cs) :
    ¬HoldsUnpaired bytes := by
  rintro ⟨d, hDecode, hNot⟩
  have hSame : d.text = cs := Except.ok.inj
    (hDecode.symm.trans (Encoding.decodeDocument_of_isPlainText hText))
  refine hNot ⟨?_, ?_⟩
  · rw [hText.detect_eq, hSame]
    exact hText.decodes
  · rw [hSame, codePoints_eq_map hEscapes]
    exact ⟨cs, Encoding.spells_map_toNat cs⟩

end Json
end TableGate
