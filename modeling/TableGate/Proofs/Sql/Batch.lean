import Mathlib.Data.Set.List
import TableGate.Proofs.Columns
import TableGate.Proofs.Sql.Uniform
import TableGate.Proofs.Sql.Wording

/-!
# The layout of a batch

An INSERT of several records is a matrix: a column for each name of the first
record, a row for each record, and the values in one list, row after row. The
placeholders are counted while the rows are made, so the value of a record and
a column is found from the number of its row, the number of its column and the
width.

A batch is refused for the faults of `BatchFault` and for no others. What is
left fails only by a value that is bound as a document and has none.

## Main results

* `insertBatch_of_isBatch`: how the statement of a batch is put together.
* `laysOut_of_rows`: where its values stand, in the text and among the
  arguments.
* `batches_laid_out`: which batches are refused, and what comes of the others.
-/

namespace TableGate

namespace Sql

open Result (FailsOnly bind_eq_ok pure_eq_ok of_check_eq_ok)

variable {table : Table}

/-! ## Which batches are refused -/

/-- What may be wrong with a batch. -/
inductive BatchFault (table : Table) (records : List Value) : Prop
  | noRecord (h : records = [])
  | notObject {record : Value} (hRecord : record ∈ records)
      (h : ∀ fields, record ≠ .object fields)
  | noColumn {rest : List Value} (h : records = .object [] :: rest)
  | unknown {first : Fields} {rest : List Value} {name : String}
      (hFirst : records = .object first :: rest) (hName : name ∈ first.names)
      (h : name ∉ table.columnNames)
  | added {first later : Fields} {rest : List Value} {name : String}
      (hFirst : records = .object first :: rest)
      (hLater : .object later ∈ rest) (hName : name ∈ later.names)
      (h : name ∉ first.names)

/-- Records that make a batch: the first has some columns, all of them those
of the table, and the others have no more. -/
structure IsBatch (table : Table) (first : Fields) (rest : List Fields) :
    Prop where
  some : first ≠ []
  known : first.names ⊆ table.columnNames
  fits : ∀ later ∈ rest, later.names ⊆ first.names

/-- A list of values with no fault is a batch. -/
theorem exists_isBatch {records : List Value}
    (h : ¬ BatchFault table records) :
    ∃ (first : Fields) (rest : List Fields),
      records = (first :: rest).map .object ∧ IsBatch table first rest := by
  have hObjects : records ∈ Set.range (List.map Value.object) := by
    rw [Set.range_list_map]
    intro record hRecord
    by_contra hOther
    exact h (.notObject hRecord fun fields hSame =>
      hOther ⟨fields, hSame.symm⟩)
  obtain ⟨found, rfl⟩ := hObjects
  cases found with
  | nil => exact absurd (.noRecord rfl) h
  | cons first rest =>
      refine ⟨first, rest, rfl, ?_, fun name hName => ?_,
        fun later hLater name hName => ?_⟩
      · rintro rfl
        exact h (.noColumn rfl)
      · by_contra hUnknown
        exact h (.unknown rfl hName hUnknown)
      · by_contra hAdded
        exact h (.added rfl (List.mem_map_of_mem hLater) hName hAdded)

/-- A batch has no fault. -/
theorem IsBatch.not_batchFault {first : Fields} {rest : List Fields}
    (h : IsBatch table first rest) :
    ¬ BatchFault table ((first :: rest).map .object) := by
  intro hFault
  cases hFault with
  | noRecord hNone => exact absurd hNone (List.cons_ne_nil _ _)
  | notObject hRecord hOther =>
      obtain ⟨fields, -, rfl⟩ := List.mem_map.1 hRecord
      exact hOther fields rfl
  | noColumn hFirst =>
      exact h.some (Value.object.inj (List.cons.inj hFirst).1)
  | unknown hFirst hName hUnknown =>
      obtain rfl := Value.object.inj (List.cons.inj hFirst).1
      exact hUnknown (h.known hName)
  | added hFirst hLater hName hAdded =>
      obtain rfl := Value.object.inj (List.cons.inj hFirst).1
      rw [← (List.cons.inj hFirst).2] at hLater
      obtain ⟨fields, hFields, hSame⟩ := List.mem_map.1 hLater
      obtain rfl := Value.object.inj hSame
      exact hAdded (h.fits fields hFields hName)

theorem subset_of_checkRecord {columns : List String} {index : Nat}
    {record : Fields} (h : checkRecord table columns index record = .ok ()) :
    record.names ⊆ columns := by
  unfold checkRecord at h
  split at h
  · next hNone =>
      intro name hName
      have hKnown := List.find?_eq_none.1 hNone name hName
      rwa [Bool.not_eq_true, Bool.not_eq_false', List.contains_iff_mem]
        at hKnown
  · split at h
    · exact absurd h Result.refuse_ne_ok
    · exact absurd h Result.refuse_ne_ok

/-- The columns are found exactly for a batch, and are those of the first
record. -/
theorem batchColumns_eq_ok_iff {records : List Fields}
    {columns : List String} :
    batchColumns table records = .ok columns ↔
      ∃ first rest, records = first :: rest ∧ IsBatch table first rest ∧
        columns = first.names := by
  constructor
  · intro h
    cases records with
    | nil => exact absurd h Result.refuse_ne_ok
    | cons first rest =>
        unfold batchColumns at h
        dsimp only at h
        obtain ⟨hSome, h⟩ := of_check_eq_ok h
        obtain ⟨⟨⟩, hKnown, h⟩ := bind_eq_ok.1 h
        obtain ⟨⟨⟩, hFits, h⟩ := bind_eq_ok.1 h
        refine ⟨first, rest, rfl, ⟨?_, Params.subset_of_checkColumns hKnown,
          fun later hLater => ?_⟩, (pure_eq_ok.1 h).symm⟩
        · rintro rfl
          exact hSome rfl
        · obtain ⟨i, hi⟩ := List.getElem?_of_mem hLater
          exact subset_of_checkRecord (Result.forM_eq_ok.1 hFits (later, i)
            (List.mem_zipIdx_iff_getElem?.2 hi))
  · rintro ⟨first, rest, rfl, hBatch, rfl⟩
    have hSome : ¬ first.names.isEmpty = true := by
      rw [List.isEmpty_iff, Fields.names, List.map_eq_nil_iff]
      exact hBatch.some
    have hKnown : first.names.forM (Params.checkColumn table) = .ok () := by
      refine Result.forM_eq_ok.2 fun name hName => ?_
      exact if_pos (Table.hasColumn_iff.2 (hBatch.known hName))
    unfold batchColumns
    dsimp only
    rw [if_neg hSome, hKnown, checkRecords_eq_ok hBatch.fits]
    rfl

theorem recordFields_eq_ok {records : List Value} {found : List Fields}
    (h : recordFields records = .ok found) : records = found.map .object := by
  rw [← List.forall₂_eq_eq_eq, List.forall₂_map_right_iff]
  refine (Result.mapM_eq_ok.1 h).imp fun record fields hRead => ?_
  split at hRead
  · rw [Except.ok.inj hRead]
  · exact absurd hRead Result.refuse_ne_ok

/-- What is not refused is a batch. -/
theorem isBatch_of_not_invalid {records : List Value} {upsert : Option Upsert}
    (h : ∀ cause, insertBatch table records upsert ≠ .error (.invalid cause)) :
    ∃ (first : Fields) (rest : List Fields),
      records = (first :: rest).map .object ∧ IsBatch table first rest := by
  obtain ⟨target, -, h⟩ := (tablePiece_onlyRefuses table).exists_ok h
  split at h
  · exact absurd rfl (h .emptyBatch)
  · obtain ⟨found, hFound, h⟩ := (recordFields_onlyRefuses records).exists_ok h
    obtain ⟨columns, hColumns, -⟩ :=
      (batchColumns_onlyRefuses table found).exists_ok h
    obtain ⟨first, rest, rfl, hBatch, -⟩ := batchColumns_eq_ok_iff.1 hColumns
    exact ⟨first, rest, recordFields_eq_ok hFound, hBatch⟩

/-! ## Rows -/

/-- What is bound for a record in a column: the value of its field, or null
if it has none. -/
def cell (table : Table) (record : Fields) (column : String) : Result Value :=
  match record.get? column with
  | some value => boundValue table column value
  | none => .ok .null

theorem boundValue_getD (record : Fields) (column : String) :
    boundValue table column ((record.get? column).getD .null) =
      cell table record column := by
  unfold cell
  cases record.get? column <;> rfl

/-- The row of some values. -/
def rowOf (values : List Value) : Fragment :=
  .word .openParen :: commaList (values.map fun value => [.bind value])
    ++ [.word .closeParen]

theorem recordRow_eq_ok_iff {columns : List String} {record : Fields}
    {row : Fragment} :
    recordRow table columns record = .ok row ↔
      ∃ values, List.Forall₂ (fun column value =>
        cell table record column = .ok value) columns values ∧
          row = rowOf values := by
  rw [recordRow, bind_eq_ok]
  simp only [boundValue_getD, Result.mapM_eq_ok, pure_eq_ok]
  exact exists_congr fun values => and_congr_right fun _ => eq_comm

theorem argsOf_rowOf (values : List Value) :
    argsOf (rowOf values) = values := by
  have hSingle : ∀ values : List Value,
      (values.map fun value => [Piece.bind value]).flatMap argsOf = values := by
    intro values
    induction values with
    | nil => rfl
    | cons value others ih =>
        rw [List.map_cons, List.flatMap_cons, ih]
        rfl
  rw [rowOf, args_append, argsOf_cons rfl, commaList, argsOf_joinFragments,
    hSingle]
  exact List.append_nil values

/-- Placeholders between parentheses, numbered after `count` values. -/
def placeholderRow (count width : Nat) : String :=
  "(" ++ ", ".intercalate ((List.range width).map fun j =>
    "$" ++ Text.natText (count + j + 1)) ++ ")"

/-- What is made of an item by its place only. -/
theorem mapIdx_eq_map_range {α β : Type} {xs : List α} {f : Nat → α → β}
    {g : Nat → β} (h : ∀ i, ∀ x ∈ xs, f i x = g i) :
    xs.mapIdx f = (List.range xs.length).map g := by
  refine List.ext_getElem (by simp) fun i hi _ => ?_
  rw [List.getElem_mapIdx, List.getElem_map, List.getElem_range]
  exact h i _ (List.getElem_mem _)

theorem textFrom_rowOf (count : Nat) (values : List Value) :
    textFrom count (rowOf values) = placeholderRow count values.length := by
  have hOne : ∀ part ∈ values.map fun value => [Piece.bind value],
      (argsOf part).length = 1 := by
    intro part hPart
    obtain ⟨value, -, rfl⟩ := List.mem_map.1 hPart
    rfl
  have hNumber : (values.map fun value => [Piece.bind value]).mapIdx
      (fun j part => textFrom (count + j * 1) part) =
        (List.range values.length).map fun j =>
          "$" ++ Text.natText (count + j + 1) := by
    rw [mapIdx_eq_map_range (g := fun j => "$" ++ Text.natText (count + j + 1)),
      List.length_map]
    intro j part hPart
    obtain ⟨value, -, rfl⟩ := List.mem_map.1 hPart
    rw [Nat.mul_one]
    exact String.append_empty
  rw [rowOf, textFrom_append, textFrom, textFrom_commaList hOne, hNumber]
  · rfl
  · exact fun _ => Piece.noConfusion

/-- Of rows of one width, the value of a row and a column. -/
theorem getElem?_flatten {α : Type} {rows : List (List α)} {width : Nat}
    (h : ∀ row ∈ rows, row.length = width) {i j : Nat} (hj : j < width) :
    rows.flatten[i * width + j]? = (rows[i]?).bind (·[j]?) := by
  induction rows generalizing i with
  | nil => simp
  | cons row rows ih =>
      obtain ⟨hRow, hRows⟩ := List.forall_mem_cons.1 h
      rw [List.flatten_cons]
      cases i with
      | zero =>
          rw [Nat.zero_mul, Nat.zero_add,
            List.getElem?_append_left (by rw [hRow]; exact hj)]
          rfl
      | succ i =>
          have hPlace : (i + 1) * width + j = width + (i * width + j) := by
            rw [Nat.succ_mul, Nat.add_comm (i * width), Nat.add_assoc]
          rw [hPlace, ← hRow, List.getElem?_append_right (Nat.le_add_right _ _),
            Nat.add_sub_cancel_left, hRow, ih hRows]
          rfl

/-! ## The layout -/

/-- A statement that lays out records in columns: a row of placeholders for
each record, numbered row by row, and at each place the value of the record and
the column. So every field of every record is bound, in its row and in the one
column of its name. -/
structure LaysOut (table : Table) (columns : List String)
    (records : List Fields) (s : Statement) : Prop where
  sql_eq : s.sql = "INSERT INTO " ++ quotedTable table ++ " (" ++
    quotedNames columns ++ ") VALUES " ++
    ", ".intercalate ((List.range records.length).map fun i =>
      placeholderRow (i * columns.length) columns.length) ++
    returningText table
  length_args : s.args.length = records.length * columns.length
  cell_eq : ∀ {i j : Nat} {record : Fields} {column : String},
    records[i]? = some record → columns[j]? = some column →
      ∃ bound, s.args[i * columns.length + j]? = some bound ∧
        cell table record column = .ok bound
  bound_once : ∀ {i : Nat} {record : Fields}, records[i]? = some record →
    ∀ field ∈ record, ∃ j, columns[j]? = some field.1 ∧
      (∀ k, columns[k]? = some field.1 → k = j) ∧
      ∃ bound, s.args[i * columns.length + j]? = some bound ∧
        boundValue table field.1 field.2 = .ok bound

section

variable {columns : List String} {records : List Fields}
  {rows : List Fragment}

/-- The rows hold a value for each column, and nothing else. -/
theorem rows_eq (h : records.mapM (recordRow table columns) = .ok rows) :
    List.Forall₂ (fun record row => row = rowOf (argsOf row) ∧
      List.Forall₂ (fun column value => cell table record column = .ok value)
        columns (argsOf row)) records rows := by
  refine (Result.mapM_eq_ok.1 h).imp fun record row hRow => ?_
  obtain ⟨values, hValues, rfl⟩ := recordRow_eq_ok_iff.1 hRow
  rw [argsOf_rowOf]
  exact ⟨rfl, hValues⟩

theorem length_argsOf_of_mem
    (h : records.mapM (recordRow table columns) = .ok rows) :
    ∀ row ∈ rows, (argsOf row).length = columns.length := by
  intro row hRow
  obtain ⟨record, -, -, hValues⟩ :=
    Result.exists_of_mem_forall₂ (rows_eq h) hRow
  exact hValues.length_eq.symm

/-- Among the values of all rows, that of a record and a column. -/
theorem exists_argsOf_rows
    (h : records.mapM (recordRow table columns) = .ok rows) {i j : Nat}
    {record : Fields} {column : String} (hRecord : records[i]? = some record)
    (hColumn : columns[j]? = some column) :
    ∃ bound, (rows.flatMap argsOf)[i * columns.length + j]? = some bound ∧
      cell table record column = .ok bound := by
  have hWidth : ∀ values ∈ rows.map argsOf, values.length = columns.length :=
    List.forall_mem_map.2 (length_argsOf_of_mem h)
  obtain ⟨row, hRow, -, hValues⟩ :=
    Result.exists_getElem?_of_forall₂ (rows_eq h) hRecord
  obtain ⟨bound, hBound, hCell⟩ :=
    Result.exists_getElem?_of_forall₂ hValues hColumn
  refine ⟨bound, ?_, hCell⟩
  rw [List.flatMap_def, getElem?_flatten hWidth
    (List.getElem?_eq_some_iff.1 hColumn).1, List.getElem?_map, hRow]
  exact hBound

/-- The values of all rows are as many as the rows times the columns. -/
theorem length_flatMap_rows
    (h : records.mapM (recordRow table columns) = .ok rows) :
    (rows.flatMap argsOf).length = records.length * columns.length := by
  have hLengths : rows.map (fun row => (argsOf row).length) =
      List.replicate rows.length columns.length :=
    List.map_eq_replicate_iff.2 (length_argsOf_of_mem h)
  rw [List.length_flatMap, hLengths, List.sum_replicate_nat,
    (rows_eq h).length_eq]

/-- The text of all rows. -/
theorem textFrom_rows (h : records.mapM (recordRow table columns) = .ok rows) :
    textFrom 0 (commaList rows) =
      ", ".intercalate ((List.range records.length).map fun i =>
        placeholderRow (i * columns.length) columns.length) := by
  rw [textFrom_commaList (length_argsOf_of_mem h), (rows_eq h).length_eq]
  refine congrArg _ (mapIdx_eq_map_range fun i row hRow => ?_)
  obtain ⟨record, -, hEq, hValues⟩ :=
    Result.exists_of_mem_forall₂ (rows_eq h) hRow
  rw [hEq, textFrom_rowOf, ← hValues.length_eq, Nat.zero_add]

end

/-- The statement of a batch, once its rows and its conflict clause are
made. -/
theorem insertBatch_of_isBatch (hNamed : table.IsNamed) {first : Fields}
    {rest : List Fields} (h : IsBatch table first rest) :
    ∃ head result,
      Spells head ("INSERT INTO " ++ quotedTable table ++ " (" ++
        quotedNames first.names ++ ") VALUES ") ∧
      Spells result (returningText table) ∧
      ∀ upsert, insertBatch table ((first :: rest).map .object) upsert = (do
        let rows ← (first :: rest).mapM (recordRow table first.names)
        let conflict ← conflictPart table upsert first.names
        return ⟨head ++ commaList rows ++ conflict ++ result⟩) := by
  obtain ⟨target, hTarget, hTable⟩ := exists_tablePiece hNamed
  obtain ⟨names, hNames, hColumns⟩ := exists_columnList fun name hName =>
    hNamed.columns name (h.known hName)
  obtain ⟨result, hResult, hReturned⟩ := exists_returning hNamed
  have hHead := ((((Spells.word .insertInto).append hTable).append
    (.word .openColumns)).append hColumns).append (.word .values)
  refine ⟨_, result, hHead, hReturned, fun upsert => ?_⟩
  unfold insertBatch
  rw [hTarget, recordFields_map]
  show (batchColumns table (first :: rest) >>= _) = _
  rw [batchColumns_eq_ok_iff.2 ⟨first, rest, rfl, h, rfl⟩]
  show ((first :: rest).mapM (recordRow table first.names) >>= _) = _
  cases (first :: rest).mapM (recordRow table first.names) with
  | error e => rfl
  | ok rows =>
      show (columnList first.names >>= _) = _
      rw [hNames]
      show (conflictPart table upsert first.names >>= _) =
        (conflictPart table upsert first.names >>= _)
      cases conflictPart table upsert first.names with
      | error e => rfl
      | ok conflict =>
          show (returning table >>= _) = _
          rw [hResult]
          show Except.ok (Statement.mk _) = Except.ok (Statement.mk _)
          simp only [List.append_assoc, List.cons_append, List.nil_append]

/-- With all of its rows made, the statement lays out the batch. -/
theorem laysOut_of_rows {first : Fields} {rest : List Fields}
    (h : IsBatch table first rest)
    (hDistinct : ∀ record ∈ first :: rest, record.names.Nodup)
    {rows : List Fragment}
    (hRows : (first :: rest).mapM (recordRow table first.names) = .ok rows)
    {head result : Fragment}
    (hHead : Spells head ("INSERT INTO " ++ quotedTable table ++ " (" ++
      quotedNames first.names ++ ") VALUES "))
    (hResult : Spells result (returningText table)) :
    LaysOut table first.names (first :: rest)
      ⟨head ++ commaList rows ++ result⟩ := by
  have hArgs : argsOf (head ++ commaList rows ++ result) =
      rows.flatMap argsOf := by
    rw [args_append, args_append, hHead.args_eq, hResult.args_eq, commaList,
      argsOf_joinFragments, List.nil_append, List.append_nil]
  have hCell : ∀ {i j : Nat} {record : Fields} {column : String},
      (first :: rest)[i]? = some record → first.names[j]? = some column →
        ∃ bound, (argsOf (head ++ commaList rows ++ result))[
          i * first.names.length + j]? = some bound ∧
            cell table record column = .ok bound := by
    intro i j record column hRecord hColumn
    rw [hArgs]
    exact exists_argsOf_rows hRows hRecord hColumn
  refine ⟨?_, ?_, hCell, fun {i record} hRecord field hField => ?_⟩
  · rw [Statement.sql, textFrom_append, textFrom_append, hHead.text_eq,
      hHead.args_eq, hResult.text_eq]
    show _ ++ textFrom 0 (commaList rows) ++ _ = _
    rw [textFrom_rows hRows]
  · rw [Statement.args, hArgs, length_flatMap_rows hRows]
  · have hMem := List.mem_of_getElem? hRecord
    have hName : field.1 ∈ record.names := List.mem_map_of_mem hField
    have hColumn : field.1 ∈ first.names := by
      rcases List.mem_cons.1 hMem with rfl | hLater
      · exact hName
      · exact h.fits record hLater hName
    obtain ⟨j, hj⟩ := List.getElem?_of_mem hColumn
    obtain ⟨bound, hBound, hValue⟩ := hCell hRecord hj
    refine ⟨j, hj, fun k hk => ?_, bound, hBound, ?_⟩
    · have hSame := hk.trans hj.symm
      exact (List.getElem?_inj (List.getElem?_eq_some_iff.1 hk).1
        (hDistinct first List.mem_cons_self)).1 hSame
    · rwa [cell, Fields.get?_of_mem (hDistinct record hMem) hField]
        at hValue

/-! ## Values without a document -/

/-- Some value of the batch is bound as a document and has none. -/
def LacksDocument (table : Table) (records : List Value) : Prop :=
  ∃ record : Fields, .object record ∈ records ∧ ∃ field ∈ record,
    ∀ bound, boundValue table field.1 field.2 ≠ .ok bound

/-- With all of its values bound, a record has its row. -/
theorem exists_recordRow {record : Fields}
    (h : ∀ field ∈ record, ∃ bound,
      boundValue table field.1 field.2 = .ok bound) (columns : List String) :
    ∃ row, recordRow table columns record = .ok row := by
  have hCell : ∀ column ∈ columns, ∃ bound,
      cell table record column = .ok bound := by
    intro column _
    unfold cell
    cases hField : record.get? column with
    | none => exact ⟨.null, rfl⟩
    | some value =>
        obtain ⟨field, hFound, rfl⟩ := Option.map_eq_some_iff.1 hField
        obtain rfl : field.1 = column := by
          simpa using List.find?_some hFound
        exact h field (List.mem_of_find?_eq_some hFound)
  obtain ⟨values, hValues⟩ := Result.exists_mapM_eq_ok hCell
  exact ⟨_, recordRow_eq_ok_iff.2
    ⟨values, Result.mapM_eq_ok.1 hValues, rfl⟩⟩

/-- Rows fail only by a value without a document. -/
theorem rows_failsOnly (table : Table) (columns : List String)
    (records : List Fields) :
    FailsOnly Error.IsUnwritable
      (records.mapM (recordRow table columns)) :=
  FailsOnly.mapM (fun _ => recordRow_failsOnly
    (fun _ _ column => boundValue_unwritable table column _) columns) records

theorem exists_rows {records : List Fields}
    (h : ¬ LacksDocument table (records.map .object))
    (columns : List String) :
    ∃ rows, records.mapM (recordRow table columns) = .ok rows := by
  refine Result.exists_mapM_eq_ok fun record hRecord =>
    exists_recordRow (fun field hField => ?_) columns
  by_contra hNone
  exact h ⟨record, List.mem_map_of_mem hRecord, field, hField,
    fun bound hBound => hNone ⟨bound, hBound⟩⟩

/-- What is laid out lacks no document. -/
theorem LaysOut.not_lacksDocument {columns : List String}
    {records : List Fields} {s : Statement}
    (h : LaysOut table columns records s) :
    ¬ LacksDocument table (records.map .object) := by
  rintro ⟨record, hRecord, field, hField, hNone⟩
  obtain ⟨other, hOther, hSame⟩ := List.mem_map.1 hRecord
  obtain rfl := Value.object.inj hSame
  obtain ⟨i, hi⟩ := List.getElem?_of_mem hOther
  obtain ⟨-, -, -, bound, -, hBound⟩ := h.bound_once hi field hField
  exact hNone bound hBound

end Sql

open Result (FailsOnly)
open Sql

/-- A batch is refused exactly for its faults. Any other has a statement that
lays it out, unless a value that is bound as a document has none: then that is
the failure. -/
theorem batches_laid_out {table : Table} (hNamed : table.IsNamed)
    {records : List Value} (hDistinct : ∀ record : Fields,
      .object record ∈ records → record.names.Nodup) :
    ((∃ cause, insertBatch table records none = .error (.invalid cause)) ↔
      BatchFault table records) ∧
    (¬ BatchFault table records →
      (LacksDocument table records →
        ∃ e, insertBatch table records none = .error e ∧ e.IsUnwritable) ∧
      (¬ LacksDocument table records → ∃ (first : Fields) (rest : List Fields)
        (s : Statement), records = (first :: rest).map .object ∧
          insertBatch table records none = .ok s ∧
          LaysOut table first.names (first :: rest) s)) := by
  refine ⟨⟨fun hRefused => ?_, fun hFault => ?_⟩, fun hProper => ?_⟩
  · obtain ⟨cause, hRefused⟩ := hRefused
    by_contra hProper
    obtain ⟨first, rest, rfl, hBatch⟩ := exists_isBatch hProper
    obtain ⟨head, result, -, -, hMade⟩ := insertBatch_of_isBatch hNamed hBatch
    have hFails : FailsOnly Error.IsUnwritable
        (insertBatch table ((first :: rest).map .object) none) := by
      rw [hMade none]
      exact (rows_failsOnly table first.names _).bind fun _ => .ok _
    obtain ⟨fault, hUnwritable⟩ := hFails _ hRefused
    cases hUnwritable
  · by_contra hNot
    obtain ⟨first, rest, rfl, hBatch⟩ :=
      isBatch_of_not_invalid fun cause hRefused => hNot ⟨cause, hRefused⟩
    exact hBatch.not_batchFault hFault
  · obtain ⟨first, rest, rfl, hBatch⟩ := exists_isBatch hProper
    obtain ⟨head, result, hHead, hResult, hMade⟩ :=
      insertBatch_of_isBatch hNamed hBatch
    have hNames : ∀ record ∈ first :: rest, record.names.Nodup :=
      fun record hRecord => hDistinct record (List.mem_map_of_mem hRecord)
    cases hRows : (first :: rest).mapM (recordRow table first.names) with
    | error e =>
        rw [hMade none, hRows]
        refine ⟨fun _ => ⟨e, rfl, rows_failsOnly _ _ _ e hRows⟩, fun hAll => ?_⟩
        obtain ⟨rows, hFound⟩ := exists_rows hAll first.names
        rw [hRows] at hFound
        cases hFound
    | ok rows =>
        have hLayout := laysOut_of_rows hBatch hNames hRows hHead hResult
        refine ⟨fun hLacks => absurd hLacks hLayout.not_lacksDocument,
          fun _ => ⟨first, rest, _, rfl, ?_, hLayout⟩⟩
        rw [hMade none, hRows]
        show Except.ok (Statement.mk (_ ++ [] ++ _)) = _
        rw [List.append_nil]

/-- An item with both columns, and one without the first. -/
def itemBatch : List Value := [
  .object [("id", .text "a"), ("data", .object [])],
  .object [("data", .list [])]]

set_option maxRecDepth 4000 in
theorem batches_laid_out_items :
    Sql.items.IsNamed ∧ (∀ record : Fields,
      .object record ∈ itemBatch → record.names.Nodup) ∧
    ¬ BatchFault Sql.items itemBatch ∧
    ¬ LacksDocument Sql.items itemBatch ∧
    ∃ (first : Fields) (rest : List Fields) (s : Statement),
      itemBatch = (first :: rest).map .object ∧
        LaysOut Sql.items first.names (first :: rest) s ∧
        s.sql = "INSERT INTO \"public\".\"items\" (\"id\", \"data\")" ++
          " VALUES ($1, $2), ($3, $4) RETURNING \"id\", \"data\"" ∧
        s.args = [.text "a", .text "\x7b\x7d", .null, .text "[]"] := by
  have hNamed : Sql.items.IsNamed := by decide
  have hDistinct : ∀ record : Fields,
      .object record ∈ itemBatch → record.names.Nodup := by
    intro record hRecord
    simp only [itemBatch, List.mem_cons, Value.object.injEq, List.not_mem_nil,
      or_false] at hRecord
    rcases hRecord with rfl | rfl
    · decide
    · decide
  obtain ⟨s, hs, hText, hArgs⟩ : ∃ s,
      insertBatch Sql.items itemBatch none = .ok s ∧
        s.sql = "INSERT INTO \"public\".\"items\" (\"id\", \"data\")" ++
          " VALUES ($1, $2), ($3, $4) RETURNING \"id\", \"data\"" ∧
        s.args = [.text "a", .text "\x7b\x7d", .null, .text "[]"] :=
    ⟨_, rfl, rfl, rfl⟩
  obtain ⟨hInvalid, hLaid⟩ := batches_laid_out hNamed hDistinct
  have hProper : ¬ BatchFault Sql.items itemBatch := by
    intro hFault
    obtain ⟨cause, hCause⟩ := hInvalid.2 hFault
    cases hs.symm.trans hCause
  have hWritten : ¬ LacksDocument Sql.items itemBatch := by
    intro hLacks
    obtain ⟨e, hError, -⟩ := (hLaid hProper).1 hLacks
    cases hs.symm.trans hError
  obtain ⟨first, rest, t, hBatch, ht, hLayout⟩ := (hLaid hProper).2 hWritten
  obtain rfl : s = t := Except.ok.inj (hs.symm.trans ht)
  exact ⟨hNamed, hDistinct, hProper, hWritten, first, rest, s, hBatch, hLayout,
    hText, hArgs⟩

/-- A document that holds a day is no fault of the batch, and still there is
no statement. -/
theorem batch_without_document :
    Sql.items.IsNamed ∧
    ¬ BatchFault Sql.items [.object [("data", .object [("on", someDay)])]] ∧
    ∃ e, insertBatch Sql.items
        [.object [("data", .object [("on", someDay)])]] none = .error e ∧
      ∀ cause, e ≠ .invalid cause := by
  have hBatch : IsBatch Sql.items [("data", .object [("on", someDay)])] [] :=
    ⟨List.cons_ne_nil _ _, by decide, nofun⟩
  exact ⟨by decide, hBatch.not_batchFault, _, rfl, nofun⟩

end TableGate
