import TableGate.Proofs.Encoding.PlainText
import TableGate.Proofs.Json.Rewriting
import TableGate.Proofs.Number.Overflow
import TableGate.Row

/-!
# What byte buffers hold

A buffer is read as the JSON document it holds, or else as text, and nothing
in between: a document of JSON proper is its value, however it is spelled, as
long as its integers can be read; a document that would be one but for the
words for numbers that are not finite stays the text it is, and so does
whatever is no document.

The words are refused, yet a number may still be too large for a double and is
then infinite. A buffer without such a number holds finite doubles only.

## Main results

* `document_or_text`: what a buffer of plain text is read as.
* `isFinite_of_holds`: the doubles of a buffer are finite unless one of its
  numbers is too large.
-/

namespace TableGate

open Encoding (IsPlainText)
open Json (IsJson Layout Numeral)
open Number (Binary64)
open Number.Binary64 (firstInfinite ofDecimal)

/-! ## Documents and texts -/

/-- A document of JSON proper is one whose numbers are not refused, integers
with too many digits apart. -/
theorem Json.Document.isStrict_of_stop? {d : Json.Document}
    (h : d.stop? false = none) : d.IsStrict := by
  intro n hMem
  have hOne := List.findSome?_eq_none_iff.1 h n hMem
  cases n with
  | integer => rfl
  | decimal => rfl
  | nan => cases hOne
  | infinity => cases hOne

section PlainText

variable {bytes : Bytes} {cs : List Char} (hText : IsPlainText bytes cs)

include hText

theorem readBytes_of_isPlainText (allowed : Bool) :
    Json.readBytes allowed bytes = Json.read allowed cs := by
  rw [Json.readBytes, Encoding.decodeDocument_of_isPlainText hText]

/-- What is not read stays text. -/
theorem decodeBytes_text (h : ∀ v, Json.read false cs ≠ .ok v) :
    decodeBytes bytes = .text (.ofList cs) := by
  rw [decodeBytes, readBytes_of_isPlainText hText,
    Encoding.Utf8.decodeLossy_of_decode hText.decodes]
  split
  · next v hRead => exact absurd hRead (h v)
  · rfl

/-- A document whose numbers are not refused is read as its value. -/
theorem decodeBytes_document {d : Json.Document} (hChars : d.text = cs)
    (hStop : d.stop? false = none) : decodeBytes bytes = d.value := by
  have hRead : Json.read false cs = .ok d.value :=
    Json.read_eq_ok_iff.2 ⟨d, hChars, rfl, hStop⟩
  rw [decodeBytes, readBytes_of_isPlainText hText, hRead]

end PlainText

/-- JSON or text, nothing in between. What JSON has a form for is read back
from its document in every kind of buffer. Of plain text, a document of JSON
proper is its value, if its integers have few enough digits; one with a word
for a number that is not finite, at whatever depth, is the text; and so is all
else. -/
theorem document_or_text (kind : BufferKind) :
    (∀ v, IsJson v → ∃ document, Json.encode .spaced v = .ok document ∧
      decodeValue (.scalar (.buffer kind
        (Encoding.Utf8.encode document.toList))) = v) ∧
    ∀ bytes cs, IsPlainText bytes cs →
      (∀ d : Json.Document, d.text = cs →
        (d.stop? false = none →
          decodeValue (.scalar (.buffer kind bytes)) = d.value) ∧
        (¬d.IsStrict → decodeValue (.scalar (.buffer kind bytes)) =
          .text (.ofList cs))) ∧
      ((∀ d : Json.Document, d.text = cs → ¬d.IsStrict) →
        decodeValue (.scalar (.buffer kind bytes)) = .text (.ofList cs)) := by
  refine ⟨fun v hJson => ?_, fun bytes cs hText => ⟨fun d hChars =>
    ⟨fun hStop => ?_, fun hWord => ?_⟩, fun hNone => ?_⟩⟩
  · refine ⟨_, Json.encode_of_isJson hJson, ?_⟩
    rw [decodeValue, decodeBytes, Json.readBytes_encode
      Json.Layout.spaced_isReadable rfl hJson]
  · rw [decodeValue, decodeBytes_document hText hChars hStop]
  · rw [decodeValue, decodeBytes_text hText]
    rw [← hChars]
    exact fun v => Json.Document.read_text_ne_ok
      (mt Json.Document.isStrict_of_stop? hWord)
  · rw [decodeValue, decodeBytes_text hText]
    intro v hRead
    obtain ⟨d, hChars, -, hStop⟩ := Json.read_eq_ok_iff.1 hRead
    exact hNone d hChars (Json.Document.isStrict_of_stop? hStop)

/-- An object with a list in it. -/
def nestedFields : Value :=
  .object [("a", .list [.null, .bool true, .int (-7)]), ("b", .text "x")]

/-- The document `[ 7]`. -/
def sevenListed : Json.Document where
  element := .list ⟨[' '], List.forall_mem_singleton.2 rfl⟩
    (.last (.number (.integer false ⟨⟨['7'], List.cons_ne_nil _ _,
      List.forall_mem_singleton.2 rfl⟩, Or.inr (by decide)⟩)) .none)

/-- The document `[NaN]`, which is not of JSON proper. -/
def nanListed : Json.Document where
  element := .list .none (.last (.number .nan) .none)

theorem document_or_text_samples :
    (IsJson nestedFields ∧ ∃ document,
      Json.encode .spaced nestedFields = .ok document ∧
        decodeValue (.scalar (.buffer .view
          (Encoding.Utf8.encode document.toList))) = nestedFields) ∧
    (IsPlainText [0x5b, 0x20, 0x37, 0x5d] sevenListed.text ∧
      sevenListed.stop? false = none ∧
      decodeValue (.scalar (.buffer .view [0x5b, 0x20, 0x37, 0x5d])) =
        .list [.int 7]) ∧
    (IsPlainText [0x5b, 0x4e, 0x61, 0x4e, 0x5d] nanListed.text ∧
      ¬nanListed.IsStrict ∧
      decodeValue (.scalar (.buffer .view [0x5b, 0x4e, 0x61, 0x4e, 0x5d])) =
        .text "[NaN]") ∧
    (IsPlainText [0x68, 0x69] ['h', 'i'] ∧
      (∀ d : Json.Document, d.text = ['h', 'i'] → ¬d.IsStrict) ∧
      decodeValue (.scalar (.buffer .view [0x68, 0x69])) = .text "hi") := by
  obtain ⟨hDocuments, hTexts⟩ := document_or_text .view
  have hNested : IsJson nestedFields := by
    refine .object (fun field hField => ?_) (by decide)
    rcases List.mem_cons.1 hField with rfl | hField
    · refine .list fun item hItem => ?_
      rcases List.mem_cons.1 hItem with rfl | hItem
      · exact .null
      rcases List.mem_cons.1 hItem with rfl | hItem
      · exact .bool true
      · rw [List.mem_singleton.1 hItem]
        exact .int (by decide +kernel)
    · rw [List.mem_singleton.1 hField]
      exact .text "x"
  have hSeven : IsPlainText [0x5b, 0x20, 0x37, 0x5d] sevenListed.text :=
    ⟨rfl, by decide, by decide⟩
  have hNan : IsPlainText [0x5b, 0x4e, 0x61, 0x4e, 0x5d] nanListed.text :=
    ⟨rfl, by decide, by decide⟩
  have hHi : IsPlainText [0x68, 0x69] ['h', 'i'] :=
    ⟨rfl, by decide, by decide⟩
  have hWord : ¬nanListed.IsStrict := fun h =>
    absurd (h .nan List.mem_cons_self) (by decide)
  have hFault : Json.readAll false ['h', 'i'] =
      .error (.fault .expectedValue 2) := rfl
  have hNone : ∀ d : Json.Document, d.text = ['h', 'i'] → ¬d.IsStrict :=
    fun d hChars => absurd hChars (Json.Document.text_ne_of_fault hFault d)
  exact ⟨⟨hNested, hDocuments _ hNested⟩,
    ⟨hSeven, rfl, ((hTexts _ _ hSeven).1 _ rfl).1 rfl⟩,
    ⟨hNan, hWord, ((hTexts _ _ hNan).1 _ rfl).2 hWord⟩,
    ⟨hHi, hNone, (hTexts _ _ hHi).2 hNone⟩⟩

/-! ## Numbers too large for a double -/

namespace Json

/-- A number that is rounded to an infinity. -/
def Numeral.IsTooLarge : Numeral → Prop
  | .decimal _ whole places power _ => firstInfinite ≤
      (Text.digitsValue (whole.chars ++ placeDigits places) : ℚ) *
        10 ^ (powerValue power - (placeDigits places).length)
  | _ => False

variable {n : Numeral} {x : Binary64}

theorem Numeral.ne_nan (hWord : n.isWord = false)
    (hValue : n.value = .float x) : x ≠ .nan := by
  cases n with
  | integer => cases hValue
  | decimal negative whole places power _ =>
      obtain rfl := Scalar.float.inj (Value.scalar.inj hValue)
      exact Number.Binary64.ofDecimal_ne_nan _ _ _
  | nan => cases hWord
  | infinity => cases hWord

theorem Numeral.isFinite_of_value (hWord : n.isWord = false)
    (hSize : ¬n.IsTooLarge) (hValue : n.value = .float x) :
    x.isFinite = true := by
  cases n with
  | integer => cases hValue
  | decimal negative whole places power _ =>
      obtain rfl := Scalar.float.inj (Value.scalar.inj hValue)
      exact Number.Binary64.isFinite_ofDecimal (not_le.1 hSize)
  | nan => cases hWord
  | infinity => cases hWord

/-- A number with few digits and no power is not too large. -/
theorem Numeral.not_isTooLarge (hShort : n.text.length ≤ 308)
    (hMark : ∀ c ∈ n.text, c ≠ 'e' ∧ c ≠ 'E') : ¬n.IsTooLarge := by
  cases n with
  | integer => exact id
  | nan => exact id
  | infinity => exact id
  | decimal negative whole places power _ =>
      rw [text] at hShort hMark
      cases power with
      | some power =>
          have hNone := hMark power.mark (by simp [Json.powerText, Power.text])
          exact absurd power.isMark (not_or.2 hNone)
      | none =>
          have hDigits : ∀ c ∈ whole.chars ++ placeDigits places,
              c.isDigit = true := by
            intro c hc
            rcases List.mem_append.1 hc with hWhole | hPlace
            · exact whole.digits c hWhole
            · cases places with
              | none => exact absurd hPlace List.not_mem_nil
              | some places => exact places.digits c hPlace
          have hCount : (whole.chars ++ placeDigits places).length ≤ 308 := by
            cases places with
            | none =>
                simp only [placesText, placeDigits, List.length_append,
                  List.length_nil] at hShort ⊢
                omega
            | some places =>
                simp only [placesText, placeDigits, List.length_append,
                  List.length_cons] at hShort ⊢
                omega
          have hPower : (10 : ℚ) ^ (powerValue none -
              (placeDigits places).length) ≤ 1 :=
            zpow_le_one_of_nonpos₀ (by norm_num) (by simp [powerValue])
          have hValue := Text.digitsValue_lt hDigits
          rw [IsTooLarge, not_le]
          generalize whole.chars ++ placeDigits places = digits at *
          calc (Text.digitsValue digits : ℚ) * 10 ^ (powerValue none -
                (placeDigits places).length)
              ≤ Text.digitsValue digits :=
                mul_le_of_le_one_right (Nat.cast_nonneg _) hPower
            _ < 10 ^ (digits.length : Int) := by exact_mod_cast hValue
            _ ≤ 10 ^ (308 : Int) :=
                zpow_le_zpow_right₀ (by norm_num) (by omega)
            _ < firstInfinite := Number.Binary64.firstInfinite_bounds.1

end Json

/-- A buffer is read as a document, and a number of that is too large for a
double. -/
def HoldsTooLarge (bytes : Bytes) : Prop :=
  ∃ d : Json.Document, Encoding.decodeDocument bytes = .ok d.text ∧
    d.stop? false = none ∧ ∃ n ∈ d.numerals, n.IsTooLarge

variable {bytes : Bytes} {x : Binary64}

/-- A short document without a power holds no such number. -/
theorem not_holdsTooLarge {cs : List Char}
    (hDecode : Encoding.decodeDocument bytes = .ok cs)
    (hShort : cs.length ≤ 308) (hMark : ∀ c ∈ cs, c ≠ 'e' ∧ c ≠ 'E') :
    ¬HoldsTooLarge bytes := by
  rintro ⟨d, hText, -, n, hMem, hLarge⟩
  obtain rfl := Except.ok.inj (hDecode.symm.trans hText)
  have hInfix := Json.Document.infix_text hMem
  exact Numeral.not_isTooLarge (hInfix.length_le.trans hShort)
    (fun c hc => hMark c (hInfix.subset hc)) hLarge

/-- A double in a buffer is a number of its document. -/
theorem exists_numeral_of_holds (h : (decodeBytes bytes).Holds (.float x)) :
    ∃ d : Json.Document, Encoding.decodeDocument bytes = .ok d.text ∧
      d.stop? false = none ∧
        ∃ n ∈ d.numerals, n.isWord = false ∧ n.value = .float x := by
  unfold decodeBytes at h
  split at h
  · next v hRead =>
      obtain ⟨d, hText, rfl, hStop⟩ := Json.exists_document_of_readBytes hRead
      cases d.element.holds_value h with
      | number hMem hValue =>
          exact ⟨d, hText, hStop, _, hMem, d.isStrict_of_stop? hStop _ hMem,
            hValue⟩
  · exact absurd (Value.holds_scalar.1 h) nofun

/-- The words for numbers that are not finite never make a double. -/
theorem not_holds_nan : ¬(decodeBytes bytes).Holds (.float .nan) := by
  intro h
  obtain ⟨d, -, -, n, -, hWord, hValue⟩ := exists_numeral_of_holds h
  exact Numeral.ne_nan hWord hValue rfl

/-- The doubles of a buffer are finite unless one of its numbers is too
large. -/
theorem isFinite_of_holds (hSize : ¬HoldsTooLarge bytes)
    (h : (decodeBytes bytes).Holds (.float x)) : x.isFinite = true := by
  obtain ⟨d, hText, hStop, n, hMem, hWord, hValue⟩ :=
    exists_numeral_of_holds h
  exact n.isFinite_of_value hWord
    (fun hLarge => hSize ⟨d, hText, hStop, n, hMem, hLarge⟩) hValue

end TableGate
