import TableGate.Proofs.Encoding
import TableGate.Proofs.Json.Scalars

/-!
# Documents, read back

A document that was written is read back as the value it was written of,
whatever its layout puts between items and after names, so long as the
separators are the marks of JSON with blanks after them. The values are those
that JSON has a form of its own for and that reading does not round: doubles
are left out, and so are tuples, which come back as lists.

## Main results

* `survives_of_isJson`: a value is read back wherever it stands.
* `read_write`: a value is read back from its document.
* `readBytes_encode`: an ASCII document survives as bytes.
-/

namespace TableGate.Json

/-- The values that are read back as they are. -/
inductive IsJson : Value → Prop
  | null : IsJson .null
  | bool (b : Bool) : IsJson (.bool b)
  | int {i : Int} (h : Text.isWritable i = true) : IsJson (.int i)
  | text (s : String) : IsJson (.text s)
  | list {items : List Value} (h : ∀ item ∈ items, IsJson item) :
      IsJson (.list items)
  | object {fields : Fields} (h : ∀ field ∈ fields, IsJson field.2)
      (hNames : fields.names.Nodup) : IsJson (.object fields)

/-- A mark of JSON with blanks after it. -/
def IsSeparator (mark : Char) (separator : String) : Prop :=
  ∃ blanks, separator.toList = mark :: blanks ∧
    ∀ c ∈ blanks, isBlank c = true

/-- A layout whose documents are JSON. -/
structure Layout.IsReadable (layout : Layout) : Prop where
  item : IsSeparator ',' layout.itemSeparator
  name : IsSeparator ':' layout.nameSeparator

theorem Layout.compactAscii_isReadable : Layout.compactAscii.IsReadable :=
  ⟨⟨[], rfl, List.forall_mem_nil _⟩, ⟨[], rfl, List.forall_mem_nil _⟩⟩

theorem Layout.spaced_isReadable : Layout.spaced.IsReadable :=
  ⟨⟨[' '], rfl, List.forall_mem_singleton.2 rfl⟩,
    ⟨[' '], rfl, List.forall_mem_singleton.2 rfl⟩⟩

/-! ## Blanks -/

/-- A character that a value may start with. -/
def StartsValue (cs : List Char) : Prop :=
  ∃ c rest, cs = c :: rest ∧ isBlank c = false ∧ c ≠ ']'

theorem skipBlanks_cons {c : Char} (h : isBlank c = false)
    (rest : List Char) : skipBlanks (c :: rest) = c :: rest := by
  rw [skipBlanks, List.dropWhile_cons_of_neg (by simp [h])]

theorem skipBlanks_append {blanks cs : List Char}
    (hBlanks : ∀ c ∈ blanks, isBlank c = true) (h : StartsValue cs) :
    skipBlanks (blanks ++ cs) = cs := by
  obtain ⟨c, rest, rfl, hStart, -⟩ := h
  rw [skipBlanks, List.dropWhile_append_of_pos hBlanks,
    List.dropWhile_cons_of_neg (by simp [hStart])]

theorem StartsValue.append {cs : List Char} (h : StartsValue cs)
    (rest : List Char) : StartsValue (cs ++ rest) := by
  obtain ⟨c, others, rfl, hStart⟩ := h
  exact ⟨c, others ++ rest, rfl, hStart⟩

theorem endsNumber_cons {c : Char} {rest : List Char}
    (h : c.isDigit = false ∧ c ≠ '.' ∧ c ≠ 'e' ∧ c ≠ 'E') :
    EndsNumber (c :: rest) := by
  intro d hd
  obtain rfl := Option.some.inj hd
  exact h

/-! ## Values without parts -/

variable {allowed : Bool} {layout : Layout}

theorem startsValue_of_isDigit {c : Char} (h : c.isDigit = true)
    (rest : List Char) : StartsValue (c :: rest) := by
  refine ⟨c, rest, rfl, ?_, ?_⟩
  · rw [Bool.eq_false_iff]
    intro hBlank
    simp only [isBlank, Bool.or_eq_true, beq_iff_eq] at hBlank
    rcases hBlank with ((rfl | rfl) | rfl) | rfl
    all_goals exact absurd h (by decide)
  · rintro rfl
    exact absurd h (by decide)

/-- A digit at the front makes a number. -/
theorem readValue_of_isDigit {c : Char} (h : c.isDigit = true) (fuel : Nat)
    (rest : List Char) :
    readValue allowed (fuel + 1) (c :: rest) = readNumber (c :: rest) ∧
      readValue allowed (fuel + 1) ('-' :: c :: rest) =
        readNumber ('-' :: c :: rest) := by
  constructor
  · rw [readValue.eq_def]
    dsimp only
    split
    case h_10 => rfl
    all_goals
      next hText =>
        rw [(List.cons.inj hText).1] at h
        exact absurd h (by decide)
  · rw [readValue.eq_def]
    dsimp only
    split
    case h_9 =>
      next hText =>
        rw [(List.cons.inj (List.cons.inj hText).2).1] at h
        exact absurd h (by decide)
    case h_10 => rfl
    all_goals
      next hText => exact absurd (List.cons.inj hText).1 (by decide)

theorem readValue_intText {i : Int} {rest : List Char}
    (hWritable : Text.isWritable i = true) (h : EndsNumber rest) (fuel : Nat) :
    readValue allowed (fuel + 1) ((Text.intText i).toList ++ rest) =
      .ok (.int i, rest) := by
  rw [← readNumber_intText hWritable h]
  cases i with
  | ofNat n =>
      obtain ⟨c, others, hDigits, hDigit⟩ := Text.exists_natDigits_eq n
      rw [Text.intText, Text.natText, String.toList_ofList, hDigits]
      exact (readValue_of_isDigit hDigit fuel _).1
  | negSucc n =>
      obtain ⟨c, others, hDigits, hDigit⟩ := Text.exists_natDigits_eq (n + 1)
      rw [Text.intText, String.toList_ofList, hDigits]
      exact (readValue_of_isDigit hDigit fuel _).2

theorem toList_writeText (s : String) :
    (writeText layout s).toList = quote ::
      (s.toList.flatMap (textChar layout.escapeBeyondAscii) ++ [quote]) := by
  rw [writeText, String.toList_ofList, textChars, List.cons_append]

theorem readValue_writeText (s : String) (fuel : Nat) (rest : List Char) :
    readValue allowed (fuel + 1) ((writeText layout s).toList ++ rest) =
      .ok (.text s, rest) := by
  have hText := readText_textChars layout.escapeBeyondAscii s rest
  rw [toList_writeText, List.cons_append, List.append_assoc,
    List.singleton_append, readValue, hText]

theorem toList_write_null :
    (write layout .null).toList = ['n', 'u', 'l', 'l'] := by
  rw [write, writeScalar]
  rfl

theorem toList_write_true :
    (write layout (.bool true)).toList = ['t', 'r', 'u', 'e'] := by
  rw [write, writeScalar]
  rfl

theorem toList_write_false :
    (write layout (.bool false)).toList = ['f', 'a', 'l', 's', 'e'] := by
  rw [write, writeScalar]
  rfl

/-- The items of a list with separators between them. -/
def itemsText (layout : Layout) (items : List Value) : List Char :=
  (layout.itemSeparator.intercalate (writeItems layout items)).toList

/-- The fields of an object with separators between them. -/
def fieldsText (layout : Layout) (fields : Fields) : List Char :=
  (layout.itemSeparator.intercalate (writeFields layout fields)).toList

theorem toList_write_list (items : List Value) :
    (write layout (.list items)).toList =
      '[' :: (itemsText layout items ++ [']']) := by
  rw [write, String.toList_append, String.toList_append]
  rfl

theorem toList_write_object (fields : Fields) :
    (write layout (.object fields)).toList =
      '\x7b' :: (fieldsText layout fields ++ ['\x7d']) := by
  rw [write, String.toList_append, String.toList_append]
  rfl

/-- What a document starts with. -/
theorem startsValue_write {v : Value} (h : IsJson v) :
    StartsValue (write layout v).toList := by
  cases h with
  | null => exact ⟨'n', _, toList_write_null, rfl, by decide⟩
  | bool b =>
      cases b with
      | true => exact ⟨'t', _, toList_write_true, rfl, by decide⟩
      | false => exact ⟨'f', _, toList_write_false, rfl, by decide⟩
  | @int i hWritable =>
      cases i with
      | ofNat n =>
          obtain ⟨c, rest, hDigits, hDigit⟩ := Text.exists_natDigits_eq n
          rw [write, writeScalar, Text.intText, Text.natText,
            String.toList_ofList, hDigits]
          exact startsValue_of_isDigit hDigit rest
      | negSucc n =>
          refine ⟨'-', Text.natDigits (n + 1), ?_, rfl, by decide⟩
          exact String.toList_ofList
  | text s => exact ⟨quote, _, toList_writeText s, rfl, by decide⟩
  | list => exact ⟨'[', _, toList_write_list _, rfl, by decide⟩
  | object => exact ⟨'\x7b', _, toList_write_object _, rfl, by decide⟩

/-! ## Values with parts -/

/-- A value is read back at the front of a text, given enough fuel. -/
def ReadsBack (allowed : Bool) (layout : Layout) (v : Value) : Prop :=
  ∀ fuel rest, (write layout v).toList.length ≤ fuel → EndsNumber rest →
    readValue allowed fuel ((write layout v).toList ++ rest) = .ok (v, rest)

/-- A value is read back wherever it stands in a document. -/
structure Survives (allowed : Bool) (layout : Layout) (v : Value) : Prop where
  starts : StartsValue (write layout v).toList
  reads : ReadsBack allowed layout v

theorem itemsText_cons (item next : Value) (items : List Value) :
    itemsText layout (item :: next :: items) =
      (write layout item).toList ++ layout.itemSeparator.toList ++
        itemsText layout (next :: items) := by
  rw [itemsText, writeItems, writeItems, String.intercalate_cons_cons,
    String.toList_append, String.toList_append]
  rfl

theorem fieldsText_cons (field next : String × Value) (fields : Fields) :
    fieldsText layout (field :: next :: fields) =
      (writeField layout field).toList ++ layout.itemSeparator.toList ++
        fieldsText layout (next :: fields) := by
  rw [fieldsText, writeFields, writeFields, String.intercalate_cons_cons,
    String.toList_append, String.toList_append]
  rfl

theorem startsValue_itemsText {items : List Value} (hSome : items ≠ [])
    (h : ∀ item ∈ items, StartsValue (write layout item).toList) :
    StartsValue (itemsText layout items) := by
  obtain ⟨item, others, rfl⟩ := List.exists_cons_of_ne_nil hSome
  have hItem := h item List.mem_cons_self
  cases others with
  | nil =>
      rwa [itemsText, writeItems, writeItems, String.intercalate_singleton]
  | cons next others =>
      rw [itemsText_cons, List.append_assoc]
      exact hItem.append _

theorem readItems_itemsText (hLayout : layout.IsReadable) {items : List Value}
    (hSome : items ≠ []) (h : ∀ item ∈ items, Survives allowed layout item)
    {fuel : Nat} (hFuel : (itemsText layout items).length < fuel)
    (rest : List Char) :
    readItems allowed fuel (itemsText layout items ++ ']' :: rest) =
      .ok (items, rest) := by
  induction items generalizing fuel with
  | nil => exact absurd rfl hSome
  | cons item others ih =>
      obtain ⟨fuel, rfl⟩ := Nat.exists_eq_add_one_of_ne_zero
        (Nat.ne_of_gt (Nat.lt_of_le_of_lt (Nat.zero_le _) hFuel))
      have hItem := (h item List.mem_cons_self).reads
      cases others with
      | nil =>
          have hText : itemsText layout [item] =
              (write layout item).toList := by
            rw [itemsText, writeItems, writeItems,
              String.intercalate_singleton]
          rw [hText] at hFuel ⊢
          rw [readItems, hItem fuel _ (by omega)
            (endsNumber_cons (by decide))]
          simp only
          rw [skipBlanks_cons (by decide)]
          rfl
      | cons next others =>
          obtain ⟨blanks, hMark, hBlanks⟩ := hLayout.item
          have hLater : ∀ other ∈ next :: others,
              Survives allowed layout other :=
            fun other hMem => h other (List.mem_cons_of_mem _ hMem)
          have hNext : StartsValue (itemsText layout (next :: others)) :=
            startsValue_itemsText (List.cons_ne_nil _ _)
              fun other hMem => (hLater other hMem).starts
          have hOthers := @ih (List.cons_ne_nil _ _) hLater fuel
          rw [itemsText_cons, hMark] at hFuel ⊢
          simp only [List.length_append, List.length_cons] at hFuel
          rw [List.append_assoc, List.append_assoc, List.cons_append,
            readItems, hItem fuel _ (by omega)
              (endsNumber_cons (by decide))]
          simp only
          rw [skipBlanks_cons (by decide)]
          simp only
          rw [skipBlanks_append hBlanks (hNext.append _), hOthers (by omega)]

/-- A field is its name between quotes, the separator and its value. -/
theorem toList_writeField (name : String) (value : Value) :
    (writeField layout (name, value)).toList =
      quote :: (name.toList.flatMap (textChar layout.escapeBeyondAscii) ++
        quote :: (layout.nameSeparator.toList ++
          (write layout value).toList)) := by
  rw [writeField, String.toList_append, String.toList_append,
    toList_writeText]
  simp only [List.cons_append, List.append_assoc, List.nil_append]

theorem exists_fieldsText {fields : Fields} (hSome : fields ≠ []) :
    ∃ rest, fieldsText layout fields = quote :: rest := by
  obtain ⟨⟨name, value⟩, others, rfl⟩ := List.exists_cons_of_ne_nil hSome
  cases others with
  | nil =>
      rw [fieldsText, writeFields, writeFields, String.intercalate_singleton,
        toList_writeField]
      exact ⟨_, rfl⟩
  | cons next others =>
      rw [fieldsText_cons, toList_writeField]
      exact ⟨_, rfl⟩

theorem startsValue_fieldsText {fields : Fields} (hSome : fields ≠ []) :
    StartsValue (fieldsText layout fields) := by
  obtain ⟨rest, hText⟩ : ∃ rest, fieldsText layout fields = quote :: rest :=
    exists_fieldsText hSome
  exact ⟨quote, rest, hText, rfl, by decide⟩

theorem readFields_fieldsText (hLayout : layout.IsReadable) {fields : Fields}
    (hSome : fields ≠ [])
    (h : ∀ field ∈ fields, Survives allowed layout field.2)
    {fuel : Nat} (hFuel : (fieldsText layout fields).length < fuel)
    (rest : List Char) :
    readFields allowed fuel (fieldsText layout fields ++ '\x7d' :: rest) =
      .ok (fields, rest) := by
  induction fields generalizing fuel with
  | nil => exact absurd rfl hSome
  | cons field others ih =>
      obtain ⟨fuel, rfl⟩ := Nat.exists_eq_add_one_of_ne_zero
        (Nat.ne_of_gt (Nat.lt_of_le_of_lt (Nat.zero_le _) hFuel))
      obtain ⟨name, value⟩ := field
      obtain ⟨hStart, hValue⟩ : Survives allowed layout value :=
        h (name, value) List.mem_cons_self
      obtain ⟨blanks, hColon, hBlanks⟩ := hLayout.name
      cases others with
      | nil =>
          have hText : fieldsText layout [(name, value)] =
              (writeField layout (name, value)).toList := by
            rw [fieldsText, writeFields, writeFields,
              String.intercalate_singleton]
          rw [hText, toList_writeField, hColon] at hFuel ⊢
          simp only [List.length_append, List.length_cons] at hFuel
          simp only [List.cons_append, List.append_assoc]
          rw [readFields, readText_textChars]
          simp only
          rw [skipBlanks_cons (by decide)]
          simp only
          rw [skipBlanks_append hBlanks (hStart.append _),
            hValue fuel _ (by omega) (endsNumber_cons (by decide))]
          simp only
          rw [skipBlanks_cons (by decide)]
          rfl
      | cons next others =>
          obtain ⟨gap, hComma, hGap⟩ := hLayout.item
          have hNext : StartsValue (fieldsText layout (next :: others)) :=
            startsValue_fieldsText (List.cons_ne_nil _ _)
          have hOthers := @ih (List.cons_ne_nil _ _)
            (fun other hMem => h other (List.mem_cons_of_mem _ hMem)) fuel
          rw [fieldsText_cons, toList_writeField, hColon, hComma] at hFuel ⊢
          simp only [List.length_append, List.length_cons] at hFuel
          simp only [List.cons_append, List.append_assoc]
          rw [readFields, readText_textChars]
          simp only
          rw [skipBlanks_cons (by decide)]
          simp only
          rw [skipBlanks_append hBlanks (hStart.append _),
            hValue fuel _ (by omega) (endsNumber_cons (by decide))]
          simp only
          rw [skipBlanks_cons (by decide)]
          simp only
          rw [skipBlanks_append hGap (hNext.append _), hOthers (by omega)]

namespace Survives

variable {v : Value}

/-- A value without parts is read back if it is so with some fuel. -/
theorem of_readValue (hStart : StartsValue (write layout v).toList)
    (h : ∀ fuel rest, EndsNumber rest → readValue allowed (fuel + 1)
      ((write layout v).toList ++ rest) = .ok (v, rest)) :
    Survives allowed layout v := by
  refine ⟨hStart, fun fuel rest hFuel hEnd => ?_⟩
  obtain ⟨c, others, hText, -⟩ := hStart
  rw [hText, List.length_cons] at hFuel
  obtain ⟨fuel, rfl⟩ := Nat.exists_eq_add_one_of_ne_zero
    (Nat.ne_of_gt (Nat.lt_of_lt_of_le (Nat.succ_pos _) hFuel))
  exact h fuel rest hEnd

theorem list (hLayout : layout.IsReadable) {items : List Value}
    (h : ∀ item ∈ items, Survives allowed layout item) :
    Survives allowed layout (.list items) := by
  have hStart : StartsValue (write layout (.list items)).toList :=
    ⟨'[', _, toList_write_list _, rfl, by decide⟩
  refine ⟨hStart, fun fuel rest hFuel _ => ?_⟩
  rw [toList_write_list] at hFuel ⊢
  simp only [List.length_append, List.length_cons] at hFuel
  obtain ⟨fuel, rfl⟩ := Nat.exists_eq_add_one_of_ne_zero
    (Nat.ne_of_gt (Nat.lt_of_lt_of_le (Nat.succ_pos _) hFuel))
  simp only [List.cons_append, List.append_assoc, List.nil_append]
  cases items with
  | nil => rfl
  | cons item others =>
      have hInside : StartsValue (itemsText layout (item :: others)) :=
        startsValue_itemsText (List.cons_ne_nil _ _)
          fun other hMem => (h other hMem).starts
      have hInner := readItems_itemsText hLayout
        (List.cons_ne_nil item others) h (by omega : _ < fuel) rest
      obtain ⟨c, tail, hHead, hVisible, hOther⟩ := hInside
      rw [hHead] at hInner ⊢
      rw [List.cons_append] at hInner ⊢
      rw [readValue, skipBlanks_cons hVisible]
      split
      · next hClose => exact absurd (List.cons.inj hClose).1 hOther
      · rw [hInner]

theorem object (hLayout : layout.IsReadable) {fields : Fields}
    (h : ∀ field ∈ fields, Survives allowed layout field.2)
    (hNames : fields.names.Nodup) :
    Survives allowed layout (.object fields) := by
  have hStart : StartsValue (write layout (.object fields)).toList :=
    ⟨'\x7b', _, toList_write_object _, rfl, by decide⟩
  refine ⟨hStart, fun fuel rest hFuel _ => ?_⟩
  rw [toList_write_object] at hFuel ⊢
  simp only [List.length_append, List.length_cons] at hFuel
  obtain ⟨fuel, rfl⟩ := Nat.exists_eq_add_one_of_ne_zero
    (Nat.ne_of_gt (Nat.lt_of_lt_of_le (Nat.succ_pos _) hFuel))
  simp only [List.cons_append, List.append_assoc, List.nil_append]
  cases fields with
  | nil => rfl
  | cons field others =>
      have hInner := readFields_fieldsText hLayout
        (List.cons_ne_nil field others) h (by omega : _ < fuel) rest
      obtain ⟨tail, hHead⟩ : ∃ tail,
          fieldsText layout (field :: others) = quote :: tail :=
        exists_fieldsText (List.cons_ne_nil field others)
      rw [hHead] at hInner ⊢
      rw [List.cons_append] at hInner ⊢
      rw [readValue, skipBlanks_cons (by decide)]
      split
      · next hClose => exact absurd (List.cons.inj hClose).1 (by decide)
      · simp only [hInner, Fields.ofPairs_of_nodup hNames]

/-- A value that is read back wherever it stands is read back from its
document. -/
theorem read (h : Survives allowed layout v) :
    Json.read allowed (write layout v).toList = .ok v := by
  have hStart : skipBlanks (write layout v).toList =
      (write layout v).toList := by
    obtain ⟨c, rest, hText, hVisible, -⟩ := h.starts
    rw [hText, skipBlanks_cons hVisible]
  have hValue := h.reads (2 * (write layout v).toList.length + 1) []
    (by omega) fun c hc => by cases hc
  rw [List.append_nil] at hValue
  rw [Json.read, readAll, hStart, hValue]
  rfl

end Survives

/-- A value is read back wherever it stands. -/
theorem survives_of_isJson (hLayout : layout.IsReadable) {v : Value}
    (h : IsJson v) : Survives allowed layout v := by
  induction h with
  | null =>
      refine .of_readValue (startsValue_write .null) fun fuel rest _ => ?_
      rw [toList_write_null]
      rfl
  | bool b =>
      refine .of_readValue (startsValue_write (.bool b)) fun fuel rest _ => ?_
      cases b with
      | true => rw [toList_write_true]; rfl
      | false => rw [toList_write_false]; rfl
  | int hWritable =>
      exact .of_readValue (startsValue_write (.int hWritable))
        fun fuel rest hEnd => readValue_intText hWritable hEnd fuel
  | text s =>
      exact .of_readValue (startsValue_write (.text s))
        fun fuel rest _ => readValue_writeText s fuel rest
  | list _ ih => exact .list hLayout ih
  | object _ hNames ih => exact .object hLayout ih hNames

/-- A value is read back from its document. -/
theorem read_write (hLayout : layout.IsReadable) {v : Value} (h : IsJson v) :
    read allowed (write layout v).toList = .ok v :=
  (survives_of_isJson hLayout h).read

/-! ## Documents of ASCII -/

open Encoding (IsAscii)

theorem isAscii_hexDigits (width n : Nat) :
    IsAscii (Text.hexDigits width n) := by
  induction width generalizing n with
  | zero => exact fun c hc => absurd hc List.not_mem_nil
  | succ width ih =>
      refine (ih (n / 16)).append (.cons ?_ fun c hc => absurd hc
        List.not_mem_nil)
      have hAll : ∀ m : Fin 16, 0 < (Text.hexDigit m).toNat ∧
          (Text.hexDigit m).toNat < 0x80 := by decide +kernel
      exact hAll ⟨n % 16, Nat.mod_lt n (by decide)⟩

theorem isAscii_textChar (c : Char) : IsAscii (textChar true c) := by
  have hUnit : ∀ n, IsAscii (unitEscape n) := fun n =>
    .cons (by decide) (.cons (by decide) (isAscii_hexDigits 4 n))
  have hNil : IsAscii [] := fun c hc => absurd hc List.not_mem_nil
  unfold textChar
  split_ifs with hMark hLine hReturn hTab hBack hFeed hControl hBeyond hShort
  · refine .cons (by decide) (.cons ?_ hNil)
    rcases hMark with rfl | rfl
    all_goals decide
  · exact .cons (by decide) (.cons (by decide) hNil)
  · exact .cons (by decide) (.cons (by decide) hNil)
  · exact .cons (by decide) (.cons (by decide) hNil)
  · exact .cons (by decide) (.cons (by decide) hNil)
  · exact .cons (by decide) (.cons (by decide) hNil)
  · exact hUnit _
  · exact hUnit _
  · exact (hUnit _).append (hUnit _)
  · refine .cons ?_ hNil
    simp only [Bool.true_and, decide_eq_true_eq] at hBeyond
    omega

theorem isAscii_writeText (hEscape : layout.escapeBeyondAscii = true)
    (s : String) : IsAscii (writeText layout s).toList := by
  rw [toList_writeText, hEscape]
  refine .cons (by decide) (.append (fun c hc => ?_)
    (.cons (by decide) fun c hc => absurd hc List.not_mem_nil))
  obtain ⟨d, -, hd⟩ := List.mem_flatMap.1 hc
  exact isAscii_textChar d c hd

theorem isAscii_of_isDigit {cs : List Char}
    (h : ∀ c ∈ cs, c.isDigit = true) : IsAscii cs := by
  intro c hc
  have hBounds := Text.toNat_of_isDigit (h c hc)
  omega

theorem isAscii_natDigits (n : Nat) : IsAscii (Text.natDigits n) :=
  isAscii_of_isDigit fun _ => Text.isDigit_of_mem_natDigits

theorem IsSeparator.isAscii {mark : Char} {separator : String}
    (h : IsSeparator mark separator)
    (hMark : 0 < mark.toNat ∧ mark.toNat < 0x80) :
    IsAscii separator.toList := by
  obtain ⟨blanks, hText, hBlanks⟩ := h
  rw [hText]
  refine .cons hMark fun c hc => ?_
  have hBlank := hBlanks c hc
  simp only [isBlank, Bool.or_eq_true, beq_iff_eq] at hBlank
  rcases hBlank with ((rfl | rfl) | rfl) | rfl
  all_goals decide

theorem isAscii_itemsText (hLayout : layout.IsReadable) {items : List Value}
    (h : ∀ item ∈ items, IsAscii (write layout item).toList) :
    IsAscii (itemsText layout items) := by
  induction items with
  | nil => exact fun c hc => absurd hc List.not_mem_nil
  | cons item others ih =>
      have hItem := h item List.mem_cons_self
      cases others with
      | nil =>
          rwa [itemsText, writeItems, writeItems,
            String.intercalate_singleton]
      | cons next others =>
          rw [itemsText_cons]
          exact (hItem.append (hLayout.item.isAscii (by decide))).append
            (ih fun other hMem => h other (List.mem_cons_of_mem _ hMem))

theorem isAscii_fieldsText (hLayout : layout.IsReadable)
    (hEscape : layout.escapeBeyondAscii = true) {fields : Fields}
    (h : ∀ field ∈ fields, IsAscii (write layout field.2).toList) :
    IsAscii (fieldsText layout fields) := by
  induction fields with
  | nil => exact fun c hc => absurd hc List.not_mem_nil
  | cons field others ih =>
      have hField : IsAscii (writeField layout field).toList := by
        rw [writeField, String.toList_append, String.toList_append]
        exact ((isAscii_writeText hEscape field.1).append
          (hLayout.name.isAscii (by decide))).append
            (h field List.mem_cons_self)
      cases others with
      | nil =>
          rwa [fieldsText, writeFields, writeFields,
            String.intercalate_singleton]
      | cons next others =>
          rw [fieldsText_cons]
          exact (hField.append (hLayout.item.isAscii (by decide))).append
            (ih fun other hMem => h other (List.mem_cons_of_mem _ hMem))

/-- A layout that escapes writes nothing but ASCII. -/
theorem isAscii_write (hLayout : layout.IsReadable)
    (hEscape : layout.escapeBeyondAscii = true) {v : Value} (h : IsJson v) :
    IsAscii (write layout v).toList := by
  have hNil : IsAscii [] := fun c hc => absurd hc List.not_mem_nil
  induction h with
  | null =>
      rw [toList_write_null]
      decide
  | bool b =>
      cases b with
      | true => rw [toList_write_true]; decide
      | false => rw [toList_write_false]; decide
  | @int i hWritable =>
      rw [write, writeScalar]
      cases i with
      | ofNat n =>
          rw [Text.intText, Text.natText, String.toList_ofList]
          exact isAscii_natDigits n
      | negSucc n =>
          rw [Text.intText, String.toList_ofList]
          exact .cons (by decide) (isAscii_natDigits (n + 1))
  | text s =>
      rw [write, writeScalar]
      exact isAscii_writeText hEscape s
  | list hItems ih =>
      rw [toList_write_list]
      exact .cons (by decide) ((isAscii_itemsText hLayout ih).append
        (.cons (by decide) hNil))
  | object hFields hNames ih =>
      rw [toList_write_object]
      exact .cons (by decide) ((isAscii_fieldsText hLayout hEscape ih).append
        (.cons (by decide) hNil))

/-- An ASCII document survives as bytes. -/
theorem Survives.readBytes {v : Value} (h : Survives allowed layout v)
    (hAscii : IsAscii (write layout v).toList) :
    Json.readBytes allowed (Encoding.Utf8.encode (write layout v).toList) =
      .ok v := by
  rw [Json.readBytes, Encoding.decodeDocument_encode hAscii]
  exact h.read

theorem readBytes_encode (hLayout : layout.IsReadable)
    (hEscape : layout.escapeBeyondAscii = true) {v : Value} (h : IsJson v) :
    readBytes allowed (Encoding.Utf8.encode (write layout v).toList) =
      .ok v :=
  (survives_of_isJson hLayout h).readBytes (isAscii_write hLayout hEscape h)

/-! ## Values without fault -/

/-- A sequence is without fault exactly if its items are. -/
theorem itemFault?_eq_none {items : List Value} :
    Value.itemFault? layout items = none ↔
      ∀ item ∈ items, item.writeFault? layout = none := by
  induction items with
  | nil => simp [Value.itemFault?]
  | cons item items ih =>
      rw [Value.itemFault?, Option.orElse_eq_none, ih,
        List.forall_mem_cons]

/-- An object is without fault exactly if its values are. -/
theorem fieldsFault?_eq_none {fields : Fields} :
    Value.fieldsFault? layout fields = none ↔
      ∀ field ∈ fields, field.2.writeFault? layout = none := by
  induction fields with
  | nil => simp [Value.fieldsFault?]
  | cons field fields ih =>
      rw [Value.fieldsFault?, Value.fieldFault?, Option.orElse_eq_none, ih,
        List.forall_mem_cons]

/-- What is read back can be written. -/
theorem encode_of_isJson {v : Value} (h : IsJson v) :
    encode layout v = .ok (write layout v) := by
  rw [encode_eq_ok_iff]
  refine ⟨?_, rfl⟩
  induction h with
  | null => rfl
  | bool b => rfl
  | int hWritable =>
      rw [Value.writeFault?, Scalar.writeFault?, if_pos hWritable]
  | text s => rfl
  | list hItems ih =>
      rw [Value.writeFault?]
      exact itemFault?_eq_none.2 ih
  | object hFields hNames ih =>
      rw [Value.writeFault?]
      exact fieldsFault?_eq_none.2 ih

end TableGate.Json
