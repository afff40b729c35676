import TableGate.Proofs.Json.Leaves
import TableGate.Proofs.Json.Reading

/-!
# What was read can be written

A document that was read holds integers with no more digits than are written,
and nothing that JSON does not know. Its doubles need not be finite: the words
for such numbers may have been allowed, and a literal may be too large. So the
value can be written wherever numbers that are not finite are accepted, as in
the documents that are bound to a statement.

## Main results

* `writeFault?_readBytes`: a value that was read is without fault.
-/

namespace TableGate.Json

variable {allowed : Bool} {layout : Layout} {v : Value}

/-- Few enough digits stand for an integer that is written. -/
theorem isWritable_digitsValue {ds : List Char}
    (h : ∀ c ∈ ds, c.isDigit = true)
    (hShort : ¬Text.maxIntegerDigits < ds.length) (negative : Bool) :
    Text.isWritable (if negative then -(Text.digitsValue ds : Int)
      else Text.digitsValue ds) = true := by
  have hBound : ∀ most, ds.length ≤ most →
      Text.digitsValue ds < Nat.pow 10 most := fun most hMost =>
    (Text.digitsValue_lt h).trans_le (Nat.pow_le_pow_right (by decide) hMost)
  have hSize : (if negative then -(Text.digitsValue ds : Int)
      else Text.digitsValue ds).natAbs = Text.digitsValue ds := by
    cases negative <;> simp
  exact decide_eq_true (hSize.trans_lt (hBound _ (Nat.not_lt.1 hShort)))

/-- An integer that is not refused is written. -/
theorem Numeral.isWritable_of_value {n : Numeral} {i : Int}
    (hStop : n.stop? allowed = none) (hValue : n.value = .int i) :
    Text.isWritable i = true := by
  cases n with
  | integer negative whole =>
      have hShort : ¬Text.maxIntegerDigits < whole.chars.length := by
        intro hLong
        rw [stop?, if_pos hLong] at hStop
        cases hStop
      rw [← Scalar.int.inj (Value.scalar.inj hValue)]
      exact isWritable_digitsValue whole.digits hShort negative
  | decimal => cases hValue
  | nan => cases hValue
  | infinity => cases hValue

/-- A document that is not refused is without fault, if its doubles are. -/
theorem Document.writeFault?_value {d : Document}
    (hStop : d.stop? allowed = none)
    (hFloat : ∀ x, d.value.Holds (.float x) →
      (Scalar.float x).writeFault? layout = none) :
    d.value.writeFault? layout = none := by
  rw [Value.writeFault?_eq_none_iff]
  intro s hHolds
  cases d.element.holds_value hHolds with
  | null => rfl
  | bool b => rfl
  | text s => rfl
  | @number n _ hMem hValue =>
      rcases n.value_cases with ⟨i, hInt⟩ | ⟨x, hDouble⟩
      · obtain rfl := Value.scalar.inj (hValue.symm.trans hInt)
        have hOne := List.findSome?_eq_none_iff.1 hStop n hMem
        rw [Scalar.writeFault?, if_pos (n.isWritable_of_value hOne hInt)]
      · obtain rfl := Value.scalar.inj (hValue.symm.trans hDouble)
        exact hFloat x hHolds

/-- A document that was read as bytes. -/
theorem exists_document_of_readBytes {bytes : Bytes}
    (h : readBytes allowed bytes = .ok v) :
    ∃ d : Document, Encoding.decodeDocument bytes = .ok d.text ∧
      d.value = v ∧ d.stop? allowed = none := by
  unfold readBytes at h
  split at h
  · next cs hDecode =>
      obtain ⟨d, rfl, hValue, hStop⟩ := read_eq_ok_iff.1 h
      exact ⟨d, hDecode, hValue, hStop⟩
  · cases h

/-- A value that was read is without fault. -/
theorem writeFault?_readBytes (hLayout : layout.acceptNonFinite = true)
    {bytes : Bytes} (h : readBytes allowed bytes = .ok v) :
    v.writeFault? layout = none := by
  obtain ⟨d, -, rfl, hStop⟩ := exists_document_of_readBytes h
  refine d.writeFault?_value hStop fun x _ => ?_
  rw [Scalar.writeFault?, hLayout, Bool.true_or, if_pos rfl]

end TableGate.Json
