import TableGate.Proofs.Buffers
import TableGate.Proofs.Http.Cells
import TableGate.Proofs.Json.Unpaired

/-!
# Rows of byte buffers

A row whose cells arrive as bytes is answered with a body unless one of the
buffers holds a number too large for a double. The words for numbers that are
not finite stay text and do no harm; the number becomes an infinity, for which
there is no document.

Half of a surrogate pair that stands alone in a buffer is not a character, and
a text that holds it has no body either. Texts are characters here, so buffers
with such halves are left out where bodies are promised.

## Main results

* `Http.exists_ofValue_of_isSendable`: a value with finite doubles has a body.
* `buffers_finite`: what a row of byte buffers holds, and its body.
-/

namespace TableGate

open Json (Layout)
open Result (bind_eq_ok)

/-! ## Values that leave as they are -/

/-- A scalar that a response may hold. -/
def Scalar.isSendable : Scalar → Bool
  | .null | .bool _ | .text _ => true
  | .int i => Text.isWritable i
  | .float x => x.isFinite
  | _ => false

/-- A value that holds nothing else. -/
def Value.IsSendable (v : Value) : Prop := ∀ s, v.Holds s → s.isSendable = true

namespace Value

variable {items : List Value} {fields : Fields} {v : Value}

theorem isSendable_list :
    IsSendable (.list items) ↔ ∀ item ∈ items, item.IsSendable :=
  ⟨fun h _ hMem s hItem => h s (.item hMem hItem), fun h s hList => by
    obtain ⟨item, hMem, hItem⟩ := holds_list.1 hList
    exact h item hMem s hItem⟩

theorem isSendable_tuple :
    IsSendable (.tuple items) ↔ ∀ item ∈ items, item.IsSendable :=
  ⟨fun h _ hMem s hItem => h s (.part hMem hItem), fun h s hList => by
    obtain ⟨item, hMem, hItem⟩ := holds_tuple.1 hList
    exact h item hMem s hItem⟩

theorem isSendable_object :
    IsSendable (.object fields) ↔ ∀ field ∈ fields, field.2.IsSendable :=
  ⟨fun h _ hMem s hField => h s (.field hMem hField), fun h s hObject => by
    obtain ⟨field, hMem, hField⟩ := holds_object.1 hObject
    exact h field hMem s hField⟩

theorem IsSendable.writeFault? (h : v.IsSendable) :
    v.writeFault? .compact = none := by
  refine writeFault?_eq_none_iff.2 fun s hHolds => ?_
  have hScalar := h s hHolds
  cases s with
  | null => rfl
  | bool => rfl
  | text => rfl
  | int i =>
      have hWritable : Text.isWritable i = true := hScalar
      rw [Scalar.writeFault?, if_pos hWritable]
  | float x =>
      have hFinite : x.isFinite = true := hScalar
      rw [Scalar.writeFault?, hFinite, Bool.or_true, if_pos rfl]
  | _ => cases hScalar

end Value

namespace Http

/-- Such a value leaves as one. -/
theorem exists_plain_of_isSendable {v : Value} (h : v.IsSendable) :
    ∃ shown, plain v = .ok shown ∧ shown.IsSendable := by
  induction v using Value.inductionOn with
  | scalar s =>
      refine ⟨.scalar s, ?_, h⟩
      have hScalar := h s .scalar
      rw [plain]
      cases s <;> first | rfl | cases hScalar
  | list items ih =>
      obtain ⟨shown, hShown, hAll⟩ := exists_plainItems fun item hMem =>
        ih item hMem (Value.isSendable_list.1 h item hMem)
      refine ⟨.list shown, ?_, Value.isSendable_list.2 hAll⟩
      rw [plain]
      exact bind_eq_ok.2 ⟨shown, hShown, rfl⟩
  | tuple items ih =>
      obtain ⟨shown, hShown, hAll⟩ := exists_plainItems fun item hMem =>
        ih item hMem (Value.isSendable_tuple.1 h item hMem)
      refine ⟨.list shown, ?_, Value.isSendable_list.2 hAll⟩
      rw [plain]
      exact bind_eq_ok.2 ⟨shown, hShown, rfl⟩
  | object fields ih =>
      obtain ⟨shown, hShown, -, hAll⟩ := exists_plainFields fun field hMem =>
        ih field hMem (Value.isSendable_object.1 h field hMem)
      refine ⟨.object shown, ?_, Value.isSendable_object.2 hAll⟩
      rw [plain]
      exact bind_eq_ok.2 ⟨shown, hShown, rfl⟩

/-- A value with finite doubles is answered with a body. -/
theorem exists_ofValue_of_isSendable {v : Value} (h : v.IsSendable)
    (status : Nat) (headers : Headers) :
    ∃ response, Response.ofValue status headers v = .ok response := by
  obtain ⟨shown, hShown, hSendable⟩ := exists_plain_of_isSendable h
  refine ⟨_, bind_eq_ok.2 ⟨shown, hShown, bind_eq_ok.2
    ⟨Json.write .compact shown, ?_, rfl⟩⟩⟩
  rw [encodeDocument, Json.encode_eq_ok_iff.2 ⟨hSendable.writeFault?, rfl⟩]

end Http

/-! ## Buffers -/

/-- What a buffer without a number that is too large holds may be sent. -/
theorem isSendable_decodeBytes {bytes : Bytes} (h : ¬HoldsTooLarge bytes) :
    (decodeBytes bytes).IsSendable := by
  intro s hHolds
  have hFloat : ∀ x, s = .float x → x.isFinite = true := by
    rintro x rfl
    exact isFinite_of_holds h hHolds
  unfold decodeBytes at hHolds
  split at hHolds
  · next v hRead =>
      obtain ⟨d, -, rfl, hStop⟩ := Json.exists_document_of_readBytes hRead
      cases d.element.holds_value hHolds with
      | null => rfl
      | bool => rfl
      | text => rfl
      | @number n _ hMem hValue =>
          rcases n.value_cases with ⟨i, hInt⟩ | ⟨x, hDouble⟩
          · obtain rfl := Value.scalar.inj (hValue.symm.trans hInt)
            have hOne := List.findSome?_eq_none_iff.1 hStop n hMem
            exact n.isWritable_of_value hOne hInt
          · obtain rfl := Value.scalar.inj (hValue.symm.trans hDouble)
            exact hFloat x rfl
  · rw [Value.holds_scalar.1 hHolds]
    rfl

/-- A cell that arrives as bytes. -/
def bufferCell (buffer : BufferKind × Bytes) : Value :=
  .scalar (.buffer buffer.1 buffer.2)

theorem decodeValue_bufferCell (buffer : BufferKind × Bytes) :
    decodeValue (bufferCell buffer) = decodeBytes buffer.2 := by
  rw [bufferCell, decodeValue]

/-- No cell that arrives as bytes holds NaN. Unless one of them holds a number
too large for a double, none holds an infinity; and if none holds half of a
surrogate pair alone either, the row is answered with a body. -/
theorem buffers_finite (buffers : List (BufferKind × Bytes)) :
    (∀ buffer ∈ buffers,
      ¬(decodeValue (bufferCell buffer)).Holds (.float .nan)) ∧
    ((∀ buffer ∈ buffers, ¬HoldsTooLarge buffer.2) →
      (∀ buffer ∈ buffers, ∀ negative,
        ¬(decodeValue (bufferCell buffer)).Holds
          (.float (.infinity negative))) ∧
      ((∀ buffer ∈ buffers, ¬Json.HoldsUnpaired buffer.2) →
        ∀ keys status headers, ∃ response,
          Http.Response.ofValue status headers
            (.object (decodeRow keys (buffers.map bufferCell))) =
              .ok response)) := by
  refine ⟨fun buffer _ => ?_, fun hSize => ⟨fun buffer hMem negative h => ?_,
    fun _ keys status headers => Http.exists_ofValue_of_isSendable ?_ _ _⟩⟩
  · rw [decodeValue_bufferCell]
    exact not_holds_nan
  · rw [decodeValue_bufferCell] at h
    exact absurd (isFinite_of_holds (hSize buffer hMem) h)
      Bool.false_ne_true
  · refine Value.isSendable_object.2 fun field hField => ?_
    have hPair := (List.of_mem_zip (Fields.mem_of_mem_ofPairs hField)).2
    obtain ⟨cell, hCell, hValue⟩ := List.mem_map.1 hPair
    obtain ⟨buffer, hMem, rfl⟩ := List.mem_map.1 hCell
    rw [← hValue, decodeValue_bufferCell]
    exact isSendable_decodeBytes (hSize buffer hMem)

/-- The bytes of `1.5`. -/
def decimalBytes : Bytes := [0x31, 0x2e, 0x35]

theorem decimalBytes_isPlainText :
    Encoding.IsPlainText decimalBytes ['1', '.', '5'] :=
  ⟨rfl, by decide, by decide⟩

theorem buffers_finite_decimal :
    ¬HoldsTooLarge decimalBytes ∧ ¬Json.HoldsUnpaired decimalBytes ∧
    (∀ negative, ¬(decodeValue (bufferCell (.fixed, decimalBytes))).Holds
      (.float (.infinity negative))) ∧
    ∃ response, Http.Response.ofValue 200 []
      (.object (decodeRow ["x"] [bufferCell (.fixed, decimalBytes)])) =
        .ok response := by
  have hSize : ¬HoldsTooLarge decimalBytes :=
    not_holdsTooLarge
      (Encoding.decodeDocument_of_isPlainText decimalBytes_isPlainText)
      (by decide) (by simp)
  have hPaired : ¬Json.HoldsUnpaired decimalBytes :=
    Json.not_holdsUnpaired decimalBytes_isPlainText (by decide)
  obtain ⟨-, hRow⟩ := buffers_finite [(.fixed, decimalBytes)]
  obtain ⟨hFinite, hBody⟩ := hRow (List.forall_mem_singleton.2 hSize)
  exact ⟨hSize, hPaired, hFinite _ List.mem_cons_self,
    hBody (List.forall_mem_singleton.2 hPaired) _ _ _⟩

/-- A number beyond the largest double becomes an infinity, and the row that
holds it has no body. -/
theorem buffers_infinite :
    decodeValue (bufferCell (.fixed, [0x31, 0x65, 0x34, 0x30, 0x30])) =
      .float (.infinity false) ∧
    Http.Response.ofValue 200 [] (.object (decodeRow ["x"]
        [bufferCell (.fixed, [0x31, 0x65, 0x34, 0x30, 0x30])])) =
      .error (.unexpected (.notWritable .nonFinite)) := by
  have hValue : decodeValue (bufferCell
      (.fixed, [0x31, 0x65, 0x34, 0x30, 0x30])) =
        .float (.infinity false) := rfl
  exact ⟨hValue, rfl⟩

end TableGate
