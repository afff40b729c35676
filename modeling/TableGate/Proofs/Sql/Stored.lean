import TableGate.Proofs.Buffers
import TableGate.Proofs.Sql.Batch

/-!
# Columns that hold documents

What a client writes to a column of documents should come back as it was. An
array or an object does: what is bound for it is a document, and its bytes are
read as the value again, from every kind of buffer. Null is bound as null.

Any other value is bound as it stands. A number or a truth value is then no
text at all, and a text is never a document for itself, whatever it holds: the
text `123` is stored as a number, and one that is no document is not stored.

## Main results

* `Writing.forall₂_cells`: what a statement that writes binds, place by place.
* `Json.read_ne_text`: no text is a document for itself.
* `json_columns_keep`: which values of a column of documents are kept.
-/

namespace TableGate

open Json (IsJson Layout)
open Result (bind_eq_ok pure_eq_ok of_check_eq_ok)

/-! ## Values and their documents -/

namespace Json

/-- A JSON value without doubles; its integers may be of any length. -/
inductive IsExact : Value → Prop
  | null : IsExact .null
  | bool (b : Bool) : IsExact (.bool b)
  | int (i : Int) : IsExact (.int i)
  | text (s : String) : IsExact (.text s)
  | list {items : List Value} (h : ∀ item ∈ items, IsExact item) :
      IsExact (.list items)
  | object {fields : Fields} (h : ∀ field ∈ fields, IsExact field.2)
      (hNames : fields.names.Nodup) : IsExact (.object fields)

/-- Without a fault such a value is read back as it is. -/
theorem IsExact.isJson {v : Value} (h : IsExact v) {layout : Layout}
    (hWritten : v.writeFault? layout = none) : IsJson v := by
  induction h with
  | null => exact .null
  | bool b => exact .bool b
  | int i =>
      rw [Value.writeFault?, Scalar.writeFault?] at hWritten
      split at hWritten
      · next hWritable => exact .int hWritable
      · cases hWritten
  | text s => exact .text s
  | list _ ih =>
      rw [Value.writeFault?, itemFault?_eq_none] at hWritten
      exact .list fun item hMem => ih item hMem (hWritten item hMem)
  | object _ hNames ih =>
      rw [Value.writeFault?, fieldsFault?_eq_none] at hWritten
      exact .object (fun field hMem => ih field hMem (hWritten field hMem))
        hNames

theorem exists_of_itemFault? {layout : Layout} {fault : WriteFault}
    {items : List Value} (h : Value.itemFault? layout items = some fault) :
    ∃ item ∈ items, item.writeFault? layout = some fault := by
  induction items with
  | nil => cases h
  | cons item items ih =>
      rw [Value.itemFault?] at h
      rcases (Option.orElse_eq_some _ _ _).1 h with hFirst | ⟨-, hLater⟩
      · exact ⟨item, List.mem_cons_self, hFirst⟩
      · obtain ⟨other, hMem, hFault⟩ := ih hLater
        exact ⟨other, List.mem_cons_of_mem _ hMem, hFault⟩

/-- The faults of an object are those of its values. -/
theorem fieldsFault?_eq (layout : Layout) (fields : Fields) :
    Value.fieldsFault? layout fields =
      Value.itemFault? layout (fields.map (·.2)) := by
  induction fields with
  | nil => rfl
  | cons field fields ih =>
      rw [Value.fieldsFault?, Value.fieldFault?, ih]
      rfl

/-- Such a value has no fault but an integer that is too long. -/
theorem IsExact.writeFault?_eq {v : Value} (h : IsExact v) {layout : Layout}
    {fault : WriteFault} (hFault : v.writeFault? layout = some fault) :
    fault = .tooManyDigits ∧ v.HoldsLong := by
  induction h with
  | null => cases hFault
  | bool b => cases hFault
  | int i =>
      rw [Value.writeFault?, Scalar.writeFault?] at hFault
      split at hFault
      · cases hFault
      · next hLong =>
          exact ⟨(Option.some.inj hFault).symm, i, .scalar,
            Bool.not_eq_true _ ▸ hLong⟩
  | text s => cases hFault
  | list _ ih =>
      rw [Value.writeFault?] at hFault
      obtain ⟨item, hMem, hItem⟩ := exists_of_itemFault? hFault
      obtain ⟨hSame, i, hHolds, hLong⟩ := ih item hMem hItem
      exact ⟨hSame, i, .item hMem hHolds, hLong⟩
  | object _ _ ih =>
      rw [Value.writeFault?, fieldsFault?_eq] at hFault
      obtain ⟨value, hValue, hOne⟩ := exists_of_itemFault? hFault
      obtain ⟨field, hMem, rfl⟩ := List.mem_map.1 hValue
      obtain ⟨hSame, i, hHolds, hLong⟩ := ih field hMem hOne
      exact ⟨hSame, i, .field hMem hHolds, hLong⟩

/-- A text that is a document for a value: it is read as the value, and so are
its bytes when they come back. -/
structure IsDocumentOf (t : String) (v : Value) : Prop where
  read : Json.read false t.toList = .ok v
  stored : ∀ kind, decodeValue (.scalar (.buffer kind
    (Encoding.Utf8.encode t.toList))) = v

theorem isDocumentOf_write {v : Value} (h : IsJson v) :
    IsDocumentOf (write .spaced v) v where
  read := read_write Layout.spaced_isReadable h
  stored kind := by
    rw [decodeValue, decodeBytes,
      readBytes_encode Layout.spaced_isReadable rfl h]

/-! ## Texts are no documents for themselves -/

/-- Joining pairs of surrogates makes no text longer. -/
theorem length_joinSurrogates_le (units : List Nat) :
    (Encoding.joinSurrogates units).length ≤ units.length := by
  fun_induction Encoding.joinSurrogates units with
  | case1 => exact le_rfl
  | case2 => exact le_rfl
  | case3 unit next rest _ ih =>
      simp only [List.length_cons]
      omega
  | case4 unit next rest _ ih =>
      simp only [List.length_cons] at ih ⊢
      omega

theorem Glyph.length_text_pos (g : Glyph) : 0 < g.text.length := by
  cases g <;> exact Nat.succ_pos _

/-- A text in a document is longer than what it stands for. -/
theorem Quoted.length_value_lt (q : Quoted) :
    q.value.toList.length < q.text.length := by
  -- A glyph is written with a character at least and stands for one at most.
  have hJoined := length_joinSurrogates_le (q.glyphs.map Glyph.point)
  have hGlyphs : q.glyphs.length ≤ (q.glyphs.flatMap Glyph.text).length := by
    induction q.glyphs with
    | nil => exact le_rfl
    | cons g glyphs ih =>
        have hFirst := g.length_text_pos
        simp only [List.flatMap_cons, List.length_append, List.length_cons]
        omega
  rw [List.length_map] at hJoined
  simp only [value, text, String.toList_ofList, List.length_cons,
    List.length_append]
  omega

/-- An element with a text as its value is one. -/
theorem Element.exists_quoted {e : Element} {s : String}
    (h : e.value = .text s) : ∃ q, e = .text q ∧ q.value = s := by
  cases e with
  | text q => exact ⟨q, rfl, Scalar.text.inj (Value.scalar.inj h)⟩
  | number n =>
      rcases n.value_cases with ⟨i, hValue⟩ | ⟨x, hValue⟩
      · cases hValue.symm.trans h
      · cases hValue.symm.trans h
  | _ => cases h

/-- No text is a document for itself: its quotes would make it longer. -/
theorem read_ne_text {allowed : Bool} (t : String) :
    read allowed t.toList ≠ .ok (.text t) := by
  intro h
  obtain ⟨d, hText, hValue, -⟩ := read_eq_ok_iff.1 h
  obtain ⟨q, hElement, rfl⟩ := d.element.exists_quoted hValue
  have hLonger := q.length_value_lt
  rw [← hText, Document.text, hElement, Element.chars] at hLonger
  simp only [List.length_append] at hLonger
  omega

end Json

/-! ## What is bound -/

/-- An array or an object. -/
def Value.HasParts : Value → Prop
  | .list _ | .object _ => True
  | _ => False

namespace Sql

open Json (IsDocumentOf IsExact)

variable {table : Table} {column : String} {v : Value}

/-- What is bound keeps the value: null keeps null, and any other value is
kept by a document for it. -/
inductive Keeps : Value → Value → Prop
  | null : Keeps .null .null
  | document {v : Value} {t : String} (some : v ≠ .null)
      (h : IsDocumentOf t v) : Keeps v (.text t)

/-- An array or an object in a column of documents is bound as its
document. -/
theorem boundValue_of_hasParts (hColumn : table.isJsonColumn column = true)
    (h : v.HasParts) : boundValue table column v = document v := by
  cases v with
  | scalar => exact h.elim
  | tuple => exact h.elim
  | list items => exact if_pos hColumn
  | object fields => rfl

/-- A value without parts is bound as it is, and that does not keep it unless
it is null. -/
theorem keeps_scalar_iff {s : Scalar} :
    Keeps (.scalar s) (.scalar s) ↔ s = .null := by
  constructor
  · intro h
    cases h with
    | null => rfl
    | document _ hDocument => exact absurd hDocument.read (Json.read_ne_text _)
  · rintro rfl
    exact .null

/-- In a column of documents a value is bound unless it has parts and holds an
integer that is too long. What is bound keeps it exactly if it has parts or is
null. -/
theorem boundValue_of_isExact (hColumn : table.isJsonColumn column = true)
    (h : IsExact v) :
    (v.HasParts ∧ v.HoldsLong ∧ boundValue table column v =
      .error (.unexpected (.notWritable .tooManyDigits))) ∨
    ∃ bound, boundValue table column v = .ok bound ∧
      (Keeps v bound ↔ v.HasParts ∨ v = .null) := by
  by_cases hParts : v.HasParts
  · rw [boundValue_of_hasParts hColumn hParts, document, encodeDocument,
      Json.encode]
    cases hFault : v.writeFault? .spaced with
    | some fault =>
        obtain ⟨rfl, hLong⟩ := h.writeFault?_eq hFault
        exact .inl ⟨hParts, hLong, rfl⟩
    | none =>
        have hSome : v ≠ .null := by
          rintro rfl
          exact hParts
        exact .inr ⟨_, rfl, fun _ => .inl hParts, fun _ =>
          .document hSome (Json.isDocumentOf_write (h.isJson hFault))⟩
  · -- Without parts, the kind of the column does not matter.
    obtain ⟨s, rfl⟩ : ∃ s, v = .scalar s := by
      cases h with
      | null => exact ⟨_, rfl⟩
      | bool => exact ⟨_, rfl⟩
      | int => exact ⟨_, rfl⟩
      | text => exact ⟨_, rfl⟩
      | list => exact absurd trivial hParts
      | object => exact absurd trivial hParts
    refine .inr ⟨.scalar s, rfl, ?_⟩
    rw [keeps_scalar_iff, or_iff_right hParts, Value.scalar.injEq]

/-! ## Statements that write -/

/-- A statement that writes records or fields. -/
inductive Writing
  | batch (records : List Fields) (upsert : Option Upsert)
  | record (fields : Fields) (upsert : Option Upsert)
  | update (fields : Fields) (params : Params)
  | updateByKey (key : List Value) (fields : Fields)

namespace Writing

/-- How the statement is made. -/
def statement (table : Table) : Writing → Result Statement
  | batch records upsert => insertBatch table (records.map .object) upsert
  | record fields upsert => insert table fields upsert
  | update fields params => Sql.update table fields params
  | updateByKey key fields => Sql.updateByKey table key fields

/-- The records that are written. -/
def records : Writing → List Fields
  | batch records _ => records
  | record fields _ | update fields _ | updateByKey _ fields => [fields]

end Writing

/-- What a record has in each of some columns, null where it has nothing. -/
def recordCells (columns : List String) (record : Fields) : Fields :=
  columns.map fun name => (name, (record.get? name).getD .null)

/-- What the records of a batch have in the columns of the first, row after
row. -/
def batchCells : List Fields → Fields
  | [] => []
  | first :: rest => (first :: rest).flatMap (recordCells first.names)

/-- The columns and values that are written, in the order in which they are
bound. -/
def Writing.cells : Writing → Fields
  | batch records _ => batchCells records
  | record fields _ => batchCells [fields]
  | update fields _ | updateByKey _ fields => fields

/-- Every field of the records of a batch has its place. -/
theorem IsBatch.subset_batchCells {first : Fields} {rest : List Fields}
    (h : IsBatch table first rest) {record : Fields}
    (hRecord : record ∈ first :: rest) (hDistinct : record.names.Nodup) :
    record ⊆ batchCells (first :: rest) := by
  intro field hField
  have hName : field.1 ∈ first.names := by
    have hOwn : field.1 ∈ record.names := List.mem_map_of_mem hField
    rcases List.mem_cons.1 hRecord with rfl | hLater
    · exact hOwn
    · exact h.fits record hLater hOwn
  refine List.mem_flatMap.2 ⟨record, hRecord, List.mem_map.2
    ⟨field.1, hName, ?_⟩⟩
  rw [Fields.get?_of_mem hDistinct hField]
  rfl

/-- What is bound for a column and a value. -/
def BoundFor (table : Table) (field : String × Value) (bound : Value) : Prop :=
  boundValue table field.1 field.2 = .ok bound

theorem forall₂_argsOf_rows {columns : List String} {records : List Fields}
    {rows : List Fragment}
    (h : records.mapM (recordRow table columns) = .ok rows) :
    List.Forall₂ (BoundFor table) (records.flatMap (recordCells columns))
      (rows.flatMap argsOf) := by
  refine List.rel_flatMap (rows_eq h) fun record row hRow => ?_
  rw [recordCells, List.forall₂_map_left_iff]
  refine hRow.2.imp fun name bound hBound => ?_
  rwa [BoundFor, boundValue_getD]

/-- The values of a batch are those of its rows. -/
theorem args_insertBatch {records : List Fields} {upsert : Option Upsert}
    {s : Statement}
    (h : insertBatch table (records.map .object) upsert = .ok s) :
    ∃ first rest rows, records = first :: rest ∧ IsBatch table first rest ∧
      records.mapM (recordRow table first.names) = .ok rows ∧
      s.args = rows.flatMap argsOf := by
  obtain ⟨target, hTarget, h⟩ := bind_eq_ok.1 h
  obtain ⟨-, h⟩ := of_check_eq_ok h
  rw [recordFields_map] at h
  obtain ⟨_, hRecords, h⟩ := bind_eq_ok.1 h
  obtain rfl := Except.ok.inj hRecords
  obtain ⟨columns, hColumns, h⟩ := bind_eq_ok.1 h
  obtain ⟨first, rest, rfl, hBatch, rfl⟩ := batchColumns_eq_ok_iff.1 hColumns
  obtain ⟨rows, hRows, h⟩ := bind_eq_ok.1 h
  obtain ⟨names, hNames, h⟩ := bind_eq_ok.1 h
  obtain ⟨conflict, hConflict, h⟩ := bind_eq_ok.1 h
  obtain ⟨result, hResult, h⟩ := bind_eq_ok.1 h
  refine ⟨first, rest, rows, rfl, hBatch, hRows, ?_⟩
  have hHead : Composed table (fun _ => True) False
      ([.word .insertInto, target, .word .openColumns] ++ names) :=
    .plain rfl ((composed_tablePiece hTarget).append (.plain rfl
      (composed_columnList hNames fun _ _ _ _ => trivial)))
  have hUpsert : Composed table (fun _ => True) False conflict :=
    composed_conflictPart hConflict (fun _ _ _ _ _ => trivial)
      (fun _ _ => trivial) fun _ _ => trivial
  have hReturned : Composed table (fun _ => True) False result :=
    composed_returning hResult fun _ _ => trivial
  rw [← pure_eq_ok.1 h, Statement.args, args_append, args_append, args_append,
    hHead.argsOf_eq_nil, hUpsert.argsOf_eq_nil, hReturned.argsOf_eq_nil,
    argsOf_cons rfl, commaList, argsOf_joinFragments]
  simp only [List.nil_append, List.append_nil]

theorem forall₂_batchCells {records : List Fields} {upsert : Option Upsert}
    {s : Statement}
    (h : insertBatch table (records.map .object) upsert = .ok s) :
    List.Forall₂ (BoundFor table) (batchCells records) s.args := by
  obtain ⟨first, rest, rows, rfl, -, hRows, hArgs⟩ := args_insertBatch h
  rw [hArgs]
  exact forall₂_argsOf_rows hRows

theorem forall₂_assignment {field : String × Value} {part : Fragment}
    (h : assignment table field = .ok part) :
    List.Forall₂ (BoundFor table) [field] (argsOf part) := by
  obtain ⟨name, hName, h⟩ := bind_eq_ok.1 h
  obtain ⟨bound, hBound, h⟩ := bind_eq_ok.1 h
  have hColumn : Composed table (fun _ => True) False [name] :=
    composed_column hName trivial
  rw [← pure_eq_ok.1 h]
  show List.Forall₂ _ _ (argsOf ([name] ++ [.word .assign, .bind bound]))
  rw [args_append, hColumn.argsOf_eq_nil]
  exact .cons hBound .nil

/-- The assignments of an UPDATE are bound first. -/
theorem forall₂_updateWhere {target : Piece}
    (hTarget : tablePiece table = .ok target) {fields : Fields}
    {filters : List Filter} {s : Statement}
    (h : updateWhere table target fields filters = .ok s) :
    ∃ bounds, List.Forall₂ (BoundFor table) fields bounds ∧
      bounds <+: s.args := by
  unfold updateWhere at h
  obtain ⟨-, h⟩ := of_check_eq_ok h
  obtain ⟨⟨⟩, -, h⟩ := bind_eq_ok.1 h
  obtain ⟨parts, hParts, h⟩ := bind_eq_ok.1 h
  obtain ⟨wherePart, -, h⟩ := bind_eq_ok.1 h
  obtain ⟨result, -, h⟩ := bind_eq_ok.1 h
  refine ⟨parts.flatMap argsOf, ?_, ?_⟩
  · have hAll : List.Forall₂ (BoundFor table)
        (fields.flatMap fun field => [field]) (parts.flatMap argsOf) :=
      List.rel_flatMap (Result.mapM_eq_ok.1 hParts) fun _ _ =>
        forall₂_assignment
    rwa [List.flatMap_singleton'] at hAll
  · have hHead : argsOf [.word .update, target, .word .set] = [] := by
      show argsOf ([target] ++ [.word .set]) = []
      rw [args_append, argsOf_tablePiece hTarget]
      rfl
    rw [← pure_eq_ok.1 h, Statement.args, List.append_assoc, args_append,
      args_append, hHead, List.nil_append, commaList, argsOf_joinFragments]
    exact List.prefix_append _ _

/-- A statement binds what is written first, place by place. -/
theorem Writing.forall₂_cells {w : Writing} {s : Statement}
    (h : w.statement table = .ok s) :
    ∃ bounds, List.Forall₂ (BoundFor table) w.cells bounds ∧
      bounds <+: s.args := by
  cases w with
  | batch records upsert =>
      exact ⟨s.args, forall₂_batchCells h, List.prefix_rfl⟩
  | record fields upsert =>
      cases fields with
      | nil => exact ⟨[], .nil, List.nil_prefix⟩
      | cons field others =>
          have hOne : insertBatch table ([field :: others].map .object) upsert =
              .ok s := h
          exact ⟨s.args, forall₂_batchCells hOne, List.prefix_rfl⟩
  | update fields params =>
      obtain ⟨target, hTarget, h⟩ := bind_eq_ok.1 h
      obtain ⟨-, h⟩ := of_check_eq_ok h
      exact forall₂_updateWhere hTarget h
  | updateByKey key fields =>
      obtain ⟨target, hTarget, h⟩ := bind_eq_ok.1 h
      obtain ⟨filters, -, h⟩ := bind_eq_ok.1 h
      exact forall₂_updateWhere hTarget h

/-- The value that is bound at the place of a cell. -/
theorem Writing.args_eq {w : Writing} {s : Statement}
    (h : w.statement table = .ok s) {place : Nat}
    (hPlace : w.cells[place]? = some (column, v)) {bound : Value}
    (hBound : boundValue table column v = .ok bound) :
    s.args[place]? = some bound := by
  obtain ⟨bounds, hCells, hPrefix⟩ := w.forall₂_cells h
  obtain ⟨found, hFound, hSame⟩ :=
    Result.exists_getElem?_of_forall₂ hCells hPlace
  obtain rfl := Except.ok.inj (hBound.symm.trans hSame)
  obtain ⟨rest, hArgs⟩ := hPrefix
  have hInside := (List.getElem?_eq_some_iff.1 hFound).1
  rw [← hArgs, List.getElem?_append_left hInside, hFound]

/-- Every field that is written has its place. -/
theorem Writing.subset_cells {w : Writing} {s : Statement}
    (h : w.statement table = .ok s) {record : Fields}
    (hRecord : record ∈ w.records) (hDistinct : record.names.Nodup) :
    record ⊆ w.cells := by
  have hBatch : ∀ {records : List Fields} {upsert : Option Upsert},
      insertBatch table (records.map .object) upsert = .ok s →
        record ∈ records → record ⊆ batchCells records := by
    intro records upsert hInsert hMem
    obtain ⟨first, rest, -, rfl, hBatch, -, -⟩ := args_insertBatch hInsert
    exact hBatch.subset_batchCells hMem hDistinct
  cases w with
  | batch records upsert => exact hBatch h hRecord
  | record fields upsert =>
      obtain rfl := List.mem_singleton.1 hRecord
      cases record with
      | nil => exact List.nil_subset _
      | cons field others =>
          have hOne : insertBatch table ([field :: others].map .object) upsert =
              .ok s := h
          exact hBatch hOne hRecord
  | update fields params =>
      rw [List.mem_singleton.1 hRecord]
      exact List.Subset.refl _
  | updateByKey key fields =>
      rw [List.mem_singleton.1 hRecord]
      exact List.Subset.refl _

end Sql

open Json (IsExact)
open Sql

/-- A column of documents keeps arrays, objects and null, and no other value.
What is bound for one of those stands at its place in every statement that
writes it, and in such a statement every field has its place. Nothing is bound
for an array or an object with an integer that is too long. -/
theorem json_columns_keep {table : Table} {column : String}
    (hColumn : table.isJsonColumn column = true) {v : Value}
    (hExact : IsExact v) :
    (v.HasParts ∧ v.HoldsLong ∧ boundValue table column v =
      .error (.unexpected (.notWritable .tooManyDigits))) ∨
    ∃ bound, boundValue table column v = .ok bound ∧
      (Keeps v bound ↔ v.HasParts ∨ v = .null) ∧
      ∀ (w : Writing) (s : Statement), w.statement table = .ok s →
        (∀ place : Nat, w.cells[place]? = some (column, v) →
          s.args[place]? = some bound) ∧
        ∀ record ∈ w.records, record.names.Nodup → (column, v) ∈ record →
          (column, v) ∈ w.cells := by
  rcases boundValue_of_isExact hColumn hExact with
    hLong | ⟨bound, hBound, hKeeps⟩
  · exact .inl hLong
  · exact .inr ⟨bound, hBound, hKeeps, fun w s hMade =>
      ⟨fun _ hPlace => w.args_eq hMade hPlace hBound,
        fun _ hRecord hDistinct hField =>
          w.subset_cells hMade hRecord hDistinct hField⟩⟩

/-- An object with a list and a text in it. -/
def setting : Value :=
  .object [("on", .list [.null, .bool true]), ("name", .text "x")]

theorem json_columns_keep_setting :
    items.isJsonColumn "data" = true ∧ IsExact setting ∧
    ∃ bound s, insert items [("data", setting)] none = .ok s ∧
      s.args = [bound] ∧ Keeps setting bound := by
  have hExact : IsExact setting := by
    refine .object (fun field hField => ?_) (by decide)
    rcases List.mem_cons.1 hField with rfl | hField
    · refine .list fun item hItem => ?_
      rcases List.mem_cons.1 hItem with rfl | hItem
      · exact .null
      · rw [List.mem_singleton.1 hItem]
        exact .bool true
    · rw [List.mem_singleton.1 hField]
      exact .text "x"
  have hColumn : items.isJsonColumn "data" = true := rfl
  refine ⟨hColumn, hExact, ?_⟩
  rcases json_columns_keep hColumn hExact with
    ⟨-, -, hNone⟩ | ⟨bound, hBound, hKeeps, hMade⟩
  · cases hNone
  · obtain ⟨s, hs, hOne⟩ : ∃ s, insert items [("data", setting)] none =
        .ok s ∧ s.args.length = 1 := ⟨_, rfl, rfl⟩
    have hPlace := (hMade (.record [("data", setting)] none) s hs).1 0 rfl
    obtain ⟨value, hArgs⟩ := List.length_eq_one_iff.1 hOne
    rw [hArgs] at hPlace
    obtain rfl := Option.some.inj hPlace
    exact ⟨value, s, hs, hArgs, hKeeps.2 (.inl trivial)⟩

/-- The text of a number is bound as it is, and comes back as the number. -/
theorem json_columns_alter :
    items.isJsonColumn "data" = true ∧ IsExact (.text "123") ∧
    ∃ s, insert items [("data", .text "123")] none = .ok s ∧
      s.args = [.text "123"] ∧
      ∀ kind, decodeValue (.scalar (.buffer kind
        (Encoding.Utf8.encode "123".toList))) = .int 123 :=
  ⟨rfl, .text "123", _, rfl, rfl, fun kind => by cases kind <;> rfl⟩

end TableGate
