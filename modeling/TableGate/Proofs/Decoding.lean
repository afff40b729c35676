import TableGate.Proofs.Json.Leaves
import TableGate.Proofs.Json.Rewriting
import TableGate.Row

/-!
# What decoding settles

A cell is *raw* while it is a byte buffer, an identifier, or a tuple of sixteen
integers from 0 to 255. Decoding replaces raw cells wherever lists lead to
them, and looks neither into tuples nor into objects. What it puts in the place
of a buffer may be a list or an object itself, but one that was read as a
document, and documents hold nothing raw.

So one pass is enough: the values that decoding leaves alone are exactly those
in which lists lead to nothing raw, and every value it gives is one of them.

## Main results

* `isDecoded_decodeValue`: decoding leaves nothing raw.
* `decodeValue_eq_self_iff`: what decoding leaves alone.
* `decoding_settles`: both together, and what becomes of the items of a list.
-/

namespace TableGate

/-! ## Raw cells -/

namespace Value

/-- A cell that decoding replaces: a byte buffer, an identifier, or a tuple of
sixteen integers from 0 to 255. -/
inductive IsRaw : Value → Prop
  | buffer (kind : BufferKind) (bytes : Bytes) :
      IsRaw (.scalar (.buffer kind bytes))
  | uuid (u : Uuid) : IsRaw (.scalar (.uuid u))
  | octets {items : List Value} (length : items.length = 16)
      (octets : ∀ item ∈ items, ∃ i : Int, 0 ≤ i ∧ i ≤ 255 ∧ item = .int i) :
      IsRaw (.tuple items)

/-- A value that lists lead to, starting from another: the value itself, or
one that lists lead to from an item of a list. -/
inductive InLists (v : Value) : Value → Prop
  | self : InLists v v
  | item {items : List Value} {item : Value} (mem : item ∈ items)
      (inside : InLists v item) : InLists v (.list items)

/-- No list leads to a raw cell, at whatever depth. -/
def IsDecoded (v : Value) : Prop :=
  ∀ cell : Value, cell.InLists v → ¬cell.IsRaw

variable {v : Value} {items : List Value}

theorem IsDecoded.not_isRaw (h : v.IsDecoded) : ¬v.IsRaw := h v .self

/-- A list is decoded exactly if its items are: a list is not raw itself. -/
theorem isDecoded_list :
    IsDecoded (.list items) ↔ ∀ item ∈ items, item.IsDecoded := by
  constructor
  · intro h item hMem cell hInside
    exact h cell (.item hMem hInside)
  · intro h cell hInside
    cases hInside with
    | self => exact nofun
    | item hMem hInside => exact h _ hMem cell hInside

/-- Where no list leads anywhere, it is enough that the value is not raw. -/
theorem isDecoded_of_not_isRaw (hRaw : ¬v.IsRaw)
    (hList : ∀ items, v ≠ .list items) : v.IsDecoded := by
  intro cell hInside
  cases hInside with
  | self => exact hRaw
  | item => exact absurd rfl (hList _)

theorem isDecoded_text (s : String) : IsDecoded (.text s) :=
  isDecoded_of_not_isRaw nofun nofun

theorem isDecoded_object (fields : Fields) : IsDecoded (.object fields) :=
  isDecoded_of_not_isRaw nofun nofun

end Value

/-! ## Tuples that spell an identifier -/

theorem isSome_byteValue? {v : Value} :
    (byteValue? v).isSome = true ↔
      ∃ i : Int, 0 ≤ i ∧ i ≤ 255 ∧ v = .int i := by
  constructor
  · intro h
    unfold byteValue? at h
    split at h
    · next i =>
        split at h
        · next hRange => exact ⟨i, hRange.1, hRange.2, rfl⟩
        · cases h
    · cases h
  · rintro ⟨i, hLow, hHigh, rfl⟩
    rw [byteValue?, if_pos ⟨hLow, hHigh⟩]
    rfl

/-- A tuple spells an identifier exactly if it is raw. -/
theorem isSome_tupleUuid? {items : List Value} :
    (tupleUuid? items).isSome = true ↔ Value.IsRaw (.tuple items) := by
  unfold tupleUuid?
  by_cases hLength : items.length = 16
  · rw [if_pos hLength, Option.isSome_map, Result.isSome_mapM]
    constructor
    · intro h
      exact .octets hLength fun item hMem => isSome_byteValue?.1 (h item hMem)
    · intro h item hMem
      cases h with
      | octets _ hOctets => exact isSome_byteValue?.2 (hOctets item hMem)
  · rw [if_neg hLength]
    constructor
    · intro h
      cases h
    · intro h
      cases h with
      | octets hSixteen _ => exact absurd hSixteen hLength

/-! ## Documents -/

namespace Json

/-- A number is decoded. -/
theorem Numeral.isDecoded_value (n : Numeral) : n.value.IsDecoded := by
  rcases n.value_cases with ⟨i, hValue⟩ | ⟨x, hValue⟩
  · rw [hValue]
    exact Value.isDecoded_of_not_isRaw nofun nofun
  · rw [hValue]
    exact Value.isDecoded_of_not_isRaw nofun nofun

mutual

/-- Lists of a document lead to nothing raw. -/
theorem Element.isDecoded_value : ∀ e : Element, e.value.IsDecoded
  | .null => Value.isDecoded_of_not_isRaw nofun nofun
  | .bool _ => Value.isDecoded_of_not_isRaw nofun nofun
  | .number n => n.isDecoded_value
  | .text q => Value.isDecoded_text q.value
  | .emptyList _ => Value.isDecoded_list.2 (List.forall_mem_nil _)
  | .list _ es => Value.isDecoded_list.2 es.isDecoded_values
  | .emptyObject _ => Value.isDecoded_object []
  | .object _ ps => Value.isDecoded_object (Fields.ofPairs ps.values)

/-- The items of an array are decoded. -/
theorem Elements.isDecoded_values :
    ∀ es : Elements, ∀ item ∈ es.values, item.IsDecoded
  | .last e _ => List.forall_mem_singleton.2 e.isDecoded_value
  | .cons e _ _ es =>
      List.forall_mem_cons.2 ⟨e.isDecoded_value, es.isDecoded_values⟩

end

end Json

/-- Whatever a buffer holds is decoded. -/
theorem isDecoded_decodeBytes (bytes : Bytes) :
    (decodeBytes bytes).IsDecoded := by
  unfold decodeBytes
  split
  · next v hRead =>
      obtain ⟨d, -, rfl, -⟩ := Json.exists_document_of_readBytes hRead
      exact d.element.isDecoded_value
  · exact Value.isDecoded_text _

/-! ## Decoding -/

theorem decodeItems_eq_map (items : List Value) :
    decodeItems items = items.map decodeValue := by
  induction items with
  | nil => rfl
  | cons item items ih => rw [decodeItems, ih, List.map_cons]

/-- A list is decoded item by item, in order. -/
theorem decodeValue_list (items : List Value) :
    decodeValue (.list items) = .list (items.map decodeValue) := by
  rw [decodeValue, decodeItems_eq_map]

/-- Decoding leaves nothing raw. -/
theorem isDecoded_decodeValue (v : Value) : (decodeValue v).IsDecoded := by
  induction v using Value.inductionOn with
  | scalar s =>
      cases s with
      | buffer kind bytes => exact isDecoded_decodeBytes bytes
      | uuid u => exact Value.isDecoded_text u.text
      | _ => exact Value.isDecoded_of_not_isRaw nofun nofun
  | list items ih =>
      rw [decodeValue_list, Value.isDecoded_list]
      intro decoded hMem
      obtain ⟨item, hItem, rfl⟩ := List.mem_map.1 hMem
      exact ih item hItem
  | tuple items _ =>
      rw [decodeValue]
      split
      · exact Value.isDecoded_text _
      · next hNone =>
          refine Value.isDecoded_of_not_isRaw (fun hRaw => ?_) nofun
          rw [← isSome_tupleUuid?, hNone] at hRaw
          cases hRaw
  | object fields _ => exact Value.isDecoded_object fields

/-- Decoding leaves alone what has nothing raw. -/
theorem decodeValue_of_isDecoded {v : Value} (h : v.IsDecoded) :
    decodeValue v = v := by
  induction v using Value.inductionOn with
  | scalar s =>
      cases s with
      | buffer kind bytes => exact absurd (.buffer kind bytes) h.not_isRaw
      | uuid u => exact absurd (.uuid u) h.not_isRaw
      | _ => rfl
  | list items ih =>
      rw [decodeValue_list]
      congr 1
      conv_rhs => rw [← List.map_id items]
      exact List.map_congr_left fun item hMem =>
        ih item hMem (Value.isDecoded_list.1 h item hMem)
  | tuple items _ =>
      rw [decodeValue]
      split
      · next u hSome =>
          exact absurd (isSome_tupleUuid?.1 (by rw [hSome]; rfl)) h.not_isRaw
      · rfl
  | object fields _ => rfl

/-- Decoding leaves alone exactly the values in which lists lead to nothing
raw. -/
theorem decodeValue_eq_self_iff {v : Value} :
    decodeValue v = v ↔ v.IsDecoded := by
  constructor
  · intro h
    rw [← h]
    exact isDecoded_decodeValue v
  · exact decodeValue_of_isDecoded

/-- One pass settles a value: it leaves no byte buffer, no identifier and no
tuple of sixteen integers from 0 to 255 wherever lists lead, a second pass
changes nothing, and nothing is changed that was settled before. A list keeps
its length and its order. -/
theorem decoding_settles (v : Value) (items : List Value) :
    (decodeValue v).IsDecoded ∧
      decodeValue (decodeValue v) = decodeValue v ∧
      (decodeValue v = v ↔ v.IsDecoded) ∧
      decodeValue (.list items) = .list (items.map decodeValue) := by
  have hDecoded := isDecoded_decodeValue v
  refine ⟨hDecoded, ?_, decodeValue_eq_self_iff, decodeValue_list items⟩
  exact decodeValue_eq_self_iff.2 hDecoded

end TableGate
