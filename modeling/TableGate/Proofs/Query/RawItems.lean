import TableGate.Proofs.Query.Escapes
import TableGate.Proofs.Query.Items
import TableGate.Proofs.Refusal

/-!
# Query strings, item by item

A raw text is cut at its ampersands and each item at its first equals sign
before anything is decoded, so an escaped separator separates nothing. What is
refused is a percent sign without two hexadecimal digits, wherever it stands,
and a part whose bytes are no text; all else is read, character by character.

## Main results

* `ofQueryString_eq_ok_iff`: the items that are read are those that the raw
  text spells.
* `ofQueryString_eq_refuse_iff`: the raw texts that are refused.
* `ofQueryString_escaped`: what is escaped is read back.
* `items_survive`: all of it, and that nothing is replaced.
-/

namespace TableGate.Items

open Result (bind_eq_ok mapM_eq_ok pure_eq_ok)

/-! ## Items -/

/-- What stands before and after the first equals sign of an item. -/
inductive IsItem : List Char → List Char → List Char → Prop
  | pair {key : List Char} (h : '=' ∉ key) (value : List Char) :
      IsItem (key ++ '=' :: value) key value
  | bare {key : List Char} (h : '=' ∉ key) : IsItem key key []

theorem exists_isItem (text : List Char) :
    ∃ key value, IsItem text key value := by
  cases hCut : Text.cut? '=' text with
  | none =>
      refine ⟨text, [], .bare fun hMem => ?_⟩
      obtain ⟨before, after, rfl, hBefore⟩ := List.eq_append_cons_of_mem hMem
      rw [Text.cut?_eq_some_iff.2 ⟨rfl, hBefore⟩] at hCut
      cases hCut
  | some cut =>
      obtain ⟨rfl, hKey⟩ := Text.cut?_eq_some_iff.1 hCut
      exact ⟨_, _, .pair hKey _⟩

/-- The items of a raw text, as they stand between its ampersands. -/
def itemTexts (raw : String) : List (List Char) :=
  (Text.splitOn '&' raw.toList).filter fun item => !item.isEmpty

theorem IsItem.hasBrokenEscape_iff {text key value : List Char}
    (h : IsItem text key value) :
    HasBrokenEscape text ↔ HasBrokenEscape key ∨ HasBrokenEscape value := by
  cases h with
  | pair =>
      exact hasBrokenEscape_append (by decide) (not_isHexDigit (by decide)) _ _
  | bare => simp [HasBrokenEscape]

theorem hasBrokenEscape_joinWith (pieces : List (List Char)) :
    HasBrokenEscape (Text.joinWith ['&'] pieces) ↔
      ∃ piece ∈ pieces, HasBrokenEscape piece := by
  induction pieces with
  | nil => simp [Text.joinWith, HasBrokenEscape]
  | cons piece pieces ih =>
      cases pieces with
      | nil => simp [Text.joinWith]
      | cons next others =>
          rw [Text.joinWith, List.append_assoc, List.singleton_append,
            hasBrokenEscape_append (by decide) (not_isHexDigit (by decide)), ih]
          · simp
          · exact List.cons_ne_nil _ _

/-- A raw text has a broken escape exactly if one of its items has. -/
theorem hasBrokenEscape_raw_iff (raw : String) : HasBrokenEscape raw.toList ↔
    ∃ text ∈ itemTexts raw, HasBrokenEscape text := by
  have hJoin := hasBrokenEscape_joinWith (Text.splitOn '&' raw.toList)
  rw [Text.joinWith_splitOn] at hJoin
  rw [hJoin, itemTexts]
  constructor
  · rintro ⟨text, hText, hBroken⟩
    refine ⟨text, List.mem_filter.2 ⟨hText, ?_⟩, hBroken⟩
    obtain ⟨before, after, rfl, -⟩ := hBroken
    simp
  · rintro ⟨text, hText, hBroken⟩
    exact ⟨text, (List.mem_filter.1 hText).1, hBroken⟩

theorem decodeItem_of_isItem {text key value : List Char}
    (h : IsItem text key value) :
    decodeItem text = do return (← decodeText key, ← decodeText value) := by
  cases h with
  | pair hKey => rw [decodeItem, Text.cut?_eq_some_iff.2 ⟨rfl, hKey⟩]; rfl
  | bare hKey => rw [decodeItem, Text.cut?_eq_none hKey]; rfl

theorem decodeItem_eq_ok_iff {text key value : List Char}
    (h : IsItem text key value) {item : String × String} :
    decodeItem text = .ok item ↔
      unescape key = utf8 item.1 ∧ unescape value = utf8 item.2 := by
  rw [decodeItem_of_isItem h, ← decodeText_eq_ok_iff, ← decodeText_eq_ok_iff]
  simp only [bind_eq_ok, pure_eq_ok]
  constructor
  · rintro ⟨first, hFirst, second, hSecond, rfl⟩
    exact ⟨hFirst, hSecond⟩
  · rintro ⟨hFirst, hSecond⟩
    exact ⟨_, hFirst, _, hSecond, rfl⟩

/-! ## Reading -/

/-- The text of an item spells it. -/
def IsSpelled (text : List Char) (item : String × String) : Prop :=
  ∃ key value, IsItem text key value ∧ Spells key item.1.toList ∧
    Spells value item.2.toList

theorem isSpelled_iff {text : List Char} {item : String × String} :
    IsSpelled text item ↔
      ¬HasBrokenEscape text ∧ decodeItem text = .ok item := by
  simp only [IsSpelled, spells_toList_iff]
  constructor
  · rintro ⟨key, value, h, hKey, hValue⟩
    rw [h.hasBrokenEscape_iff, not_or, decodeItem_eq_ok_iff h]
    exact ⟨⟨hKey.1, hValue.1⟩, hKey.2, hValue.2⟩
  · rintro ⟨hWhole, hRead⟩
    obtain ⟨key, value, h⟩ := exists_isItem text
    rw [h.hasBrokenEscape_iff, not_or] at hWhole
    rw [decodeItem_eq_ok_iff h] at hRead
    exact ⟨key, value, h, ⟨hWhole.1, hRead.1⟩, hWhole.2, hRead.2⟩

/-- The items that are read are those that are spelled, one by one. -/
theorem ofQueryString_eq_ok_iff {raw : String} {items : Items} :
    ofQueryString raw = .ok items ↔
      List.Forall₂ IsSpelled (itemTexts raw) items := by
  have hEach : List.Forall₂ IsSpelled (itemTexts raw) items ↔
      (∀ text ∈ itemTexts raw, ¬HasBrokenEscape text) ∧
        (itemTexts raw).mapM decodeItem = .ok items := by
    rw [mapM_eq_ok, ← List.forall₂_and_left]
    exact iff_of_eq (congrArg (List.Forall₂ · _ _)
      (funext₂ fun text item => propext isSpelled_iff))
  have hWhole : (∀ text ∈ itemTexts raw, ¬HasBrokenEscape text) ↔
      escapesComplete raw.toList = true := by
    rw [escapesComplete_eq_true_iff, hasBrokenEscape_raw_iff]
    simp only [not_exists, not_and]
  rw [hEach, hWhole, ofQueryString]
  split
  · next hComplete => exact (and_iff_right hComplete).symm
  · next hBroken =>
      exact ⟨fun h => absurd h Result.refuse_ne_ok, fun h => absurd h.1 hBroken⟩

/-- A key or a value of a raw text, as it stands there. -/
def IsPart (raw : String) (part : List Char) : Prop :=
  ∃ text ∈ itemTexts raw, ∃ key value, IsItem text key value ∧
    (part = key ∨ part = value)

/-- A raw text has a broken escape, or a part that stands for bytes of no
text. -/
def IsMalformed (raw : String) : Prop :=
  HasBrokenEscape raw.toList ∨
    ∃ part bytes, IsPart raw part ∧ Unescapes part bytes ∧ ∀ s, utf8 s ≠ bytes

theorem exists_ofQueryString_iff {raw : String} :
    (∃ items, ofQueryString raw = .ok items) ↔ ¬IsMalformed raw := by
  constructor
  · rintro ⟨items, h⟩
    have hSpelled : ∀ text ∈ itemTexts raw, ∃ item, ¬HasBrokenEscape text ∧
        decodeItem text = .ok item := by
      intro text hText
      obtain ⟨item, -, hItem⟩ :=
        Result.exists_of_mem_forall₂ (ofQueryString_eq_ok_iff.1 h).flip hText
      exact ⟨item, isSpelled_iff.1 hItem⟩
    rintro (hBroken | ⟨part, bytes, ⟨text, hText, key, value, hParts, hPart⟩,
      hBytes, hNone⟩)
    · obtain ⟨text, hText, hBroken⟩ := (hasBrokenEscape_raw_iff raw).1 hBroken
      obtain ⟨item, hWhole, -⟩ := hSpelled text hText
      exact hWhole hBroken
    · obtain ⟨item, -, hItem⟩ := hSpelled text hText
      obtain ⟨hKey, hValue⟩ := (decodeItem_eq_ok_iff hParts).1 hItem
      have hRead := unescape_of_unescapes hBytes
      rcases hPart with rfl | rfl
      · exact hNone item.1 (hKey.symm.trans hRead)
      · exact hNone item.2 (hValue.symm.trans hRead)
  · intro h
    obtain ⟨hWhole, hText⟩ := not_or.1 h
    have hPart : ∀ part, IsPart raw part → ¬HasBrokenEscape part →
        ∃ s, unescape part = utf8 s := by
      intro part hPart hUnbroken
      by_contra hNone
      refine hText ⟨part, unescape part, hPart,
        unescapes_iff.2 ⟨hUnbroken, rfl⟩, fun s hs => hNone ⟨s, hs.symm⟩⟩
    have hItem : ∀ text ∈ itemTexts raw, ∃ item,
        decodeItem text = .ok item := by
      intro text hMem
      obtain ⟨key, value, hParts⟩ := exists_isItem text
      have hUnbroken : ¬HasBrokenEscape text := fun hBroken =>
        hWhole ((hasBrokenEscape_raw_iff raw).2 ⟨text, hMem, hBroken⟩)
      rw [hParts.hasBrokenEscape_iff, not_or] at hUnbroken
      obtain ⟨first, hKey⟩ :=
        hPart key ⟨text, hMem, key, value, hParts, .inl rfl⟩ hUnbroken.1
      obtain ⟨second, hValue⟩ :=
        hPart value ⟨text, hMem, key, value, hParts, .inr rfl⟩ hUnbroken.2
      exact ⟨(first, second), (decodeItem_eq_ok_iff hParts).2 ⟨hKey, hValue⟩⟩
    rw [ofQueryString, if_pos (escapesComplete_eq_true_iff.2 hWhole)]
    exact Result.exists_mapM_eq_ok hItem

/-- The only failure is that the query string is refused. -/
theorem ofQueryString_failsOnly (raw : String) :
    (ofQueryString raw).FailsOnly (· = .invalid .queryString) := by
  have hText : ∀ part,
      (decodeText part).FailsOnly (· = .invalid .queryString) := by
    intro part
    unfold decodeText
    split
    · exact .ok _
    · exact .error rfl
  have hItem : ∀ text,
      (decodeItem text).FailsOnly (· = .invalid .queryString) := by
    intro text
    obtain ⟨key, value, h⟩ := exists_isItem text
    rw [decodeItem_of_isItem h]
    exact (hText key).bind fun _ => (hText value).bind fun _ => .ok _
  unfold ofQueryString
  split
  · exact .mapM hItem _
  · exact .error rfl

/-- A raw text is refused exactly if it is malformed. -/
theorem ofQueryString_eq_refuse_iff {raw : String} :
    ofQueryString raw = refuse .queryString ↔ IsMalformed raw := by
  constructor
  · intro h
    by_contra hWell
    obtain ⟨items, hItems⟩ := exists_ofQueryString_iff.2 hWell
    rw [h] at hItems
    exact Result.refuse_ne_ok hItems
  · intro h
    cases hRead : ofQueryString raw with
    | ok items => exact absurd h (exists_ofQueryString_iff.1 ⟨items, hRead⟩)
    | error e => rw [ofQueryString_failsOnly raw e hRead]; rfl

/-! ## Escaped items -/

/-- A key and a value with every byte of them escaped. -/
structure EscapedItem where
  key : String
  value : String
  keyText : List Char
  valueText : List Char
  key_escaped : Escapes (utf8 key) keyText
  value_escaped : Escapes (utf8 value) valueText

namespace EscapedItem

/-- The text of an item. -/
def text (item : EscapedItem) : List Char :=
  item.keyText ++ '=' :: item.valueText

/-- The key and the value that are meant. -/
def meant (item : EscapedItem) : String × String := (item.key, item.value)

/-- Every key and value can be written so. -/
theorem exists_meant (item : String × String) :
    ∃ written : EscapedItem, written.meant = item := by
  obtain ⟨keyText, hKey⟩ := exists_escapes (utf8 item.1)
  obtain ⟨valueText, hValue⟩ := exists_escapes (utf8 item.2)
  exact ⟨⟨item.1, item.2, keyText, valueText, hKey, hValue⟩, rfl⟩

theorem exists_map_meant (items : Items) :
    ∃ written : List EscapedItem, written.map meant = items := by
  induction items with
  | nil => exact ⟨[], rfl⟩
  | cons item items ih =>
      obtain ⟨first, rfl⟩ := exists_meant item
      obtain ⟨others, rfl⟩ := ih
      exact ⟨first :: others, rfl⟩

theorem isSpelled (item : EscapedItem) : IsSpelled item.text item.meant :=
  ⟨item.keyText, item.valueText,
    .pair (item.key_escaped.notMem (by decide) (by decide)) _,
    item.key_escaped.spells, item.value_escaped.spells⟩

theorem notMem_text (item : EscapedItem) : '&' ∉ item.text := by
  have hKey := item.key_escaped.notMem (c := '&') (by decide) (by decide)
  have hValue := item.value_escaped.notMem (c := '&') (by decide) (by decide)
  simp [text, hKey, hValue]

end EscapedItem

/-- The items of a text are the texts that are put together. -/
theorem itemTexts_joinWith (items : List EscapedItem) :
    itemTexts (.ofList (Text.joinWith ['&'] (items.map EscapedItem.text))) =
      items.map EscapedItem.text := by
  rw [itemTexts, String.toList_ofList]
  cases items with
  | nil => rfl
  | cons item items =>
      rw [Text.splitOn_joinWith (by simp), List.filter_eq_self]
      · intro text hText
        obtain ⟨item, -, rfl⟩ := List.mem_map.1 hText
        simp [EscapedItem.text]
      · intro text hText
        obtain ⟨item, -, rfl⟩ := List.mem_map.1 hText
        exact item.notMem_text

/-- Escaped items are read as they were meant. -/
theorem ofQueryString_escaped (items : List EscapedItem) :
    ofQueryString (.ofList
      (Text.joinWith ['&'] (items.map EscapedItem.text))) =
        .ok (items.map EscapedItem.meant) := by
  rw [ofQueryString_eq_ok_iff, itemTexts_joinWith, List.forall₂_map_left_iff,
    List.forall₂_map_right_iff, List.forall₂_same]
  exact fun item _ => item.isSpelled

/-! ## What reading keeps -/

/-- What is read of an item: its text spells it, and the replacement characters
of its key and its value were sent in theirs. -/
structure IsRead (text : List Char) (item : String × String) : Prop where
  spelled : IsSpelled text item
  kept : ∃ key value, IsItem text key value ∧
    (Encoding.replacement ∈ item.1.toList → Sends key Encoding.replacement) ∧
      (Encoding.replacement ∈ item.2.toList →
        Sends value Encoding.replacement)

/-- Whatever is spelled is read without replacing anything. -/
theorem isRead_iff {text : List Char} {item : String × String} :
    IsRead text item ↔ IsSpelled text item := by
  refine ⟨IsRead.spelled, fun h => ⟨h, ?_⟩⟩
  obtain ⟨key, value, hParts, hKey, hValue⟩ := h
  exact ⟨key, value, hParts, hKey.sends (by decide), hValue.sends (by decide)⟩

/-- All items can be escaped, and they are read back from the escapes of their
bytes. A raw text is refused exactly if it is malformed, and what is read of
any other is what its items spell: no replacement character is read that was
not sent. -/
theorem items_survive (items : Items) (written : List EscapedItem)
    (raw : String) :
    (∃ escaped : List EscapedItem, escaped.map EscapedItem.meant = items) ∧
    ofQueryString (.ofList
        (Text.joinWith ['&'] (written.map EscapedItem.text))) =
      .ok (written.map EscapedItem.meant) ∧
    (ofQueryString raw = refuse .queryString ↔ IsMalformed raw) ∧
    ((∃ read, ofQueryString raw = .ok read) ↔ ¬IsMalformed raw) ∧
    (ofQueryString raw = .ok items ↔
      List.Forall₂ IsRead (itemTexts raw) items) := by
  refine ⟨EscapedItem.exists_map_meant items, ofQueryString_escaped written,
    ofQueryString_eq_refuse_iff, exists_ofQueryString_iff, ?_⟩
  have hRead : IsRead = IsSpelled :=
    funext₂ fun text item => propext isRead_iff
  rw [hRead, ofQueryString_eq_ok_iff]

end TableGate.Items
