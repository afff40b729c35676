import TableGate.Proofs.Sql.Batch

/-!
# The conflict clause of an upsert

An upsert is an INSERT with a clause before RETURNING that says what happens
to a record that exists already: nothing, or some of its columns are assigned.
What is assigned decides which values of the existing row are lost. A column
of the conflict target is never assigned, and no column is assigned twice. By
default the columns of the record are assigned the values that were not
inserted; with missing columns defaulted, all columns of the table are, those
the record lacks to null.

## Main results

* `conflictClause_spells`: the clause, for columns that may stand in a
  statement.
* `upsert_clauses`: when the target is refused, and which columns are assigned.
-/

namespace TableGate

/-- The columns of the conflict target: those that are named, or else the
primary key. -/
def Table.targetColumns (table : Table) (onConflict : List String) :
    List String :=
  if onConflict = [] then table.primaryKey else onConflict

/-- There is no conflict target: a column is named that the table does not
have, or none is named and there is no primary key. -/
def Table.LacksTarget (table : Table) (onConflict : List String) : Prop :=
  (onConflict ≠ [] ∧ ∃ name ∈ onConflict, name ∉ table.columnNames) ∨
    (onConflict = [] ∧ table.primaryKey = [])

namespace Sql

open Result (bind_eq_ok pure_eq_ok of_check_eq_ok)

variable {table : Table} {upsert : Upsert}

/-! ## The target -/

theorem conflictTarget_of_lacksTarget {onConflict : List String}
    (h : table.LacksTarget onConflict) :
    ∃ cause, table.conflictTarget onConflict = refuse cause := by
  unfold Table.conflictTarget
  rcases h with ⟨hSome, name, hName, hUnknown⟩ | ⟨rfl, hKey⟩
  · rw [if_neg (by rwa [List.isEmpty_iff])]
    have hFound : (onConflict.find? fun column =>
        !table.hasColumn column).isSome = true := by
      rw [List.find?_isSome]
      refine ⟨name, hName, ?_⟩
      rwa [Bool.not_eq_true', ← Bool.not_eq_true, Table.hasColumn_iff]
    obtain ⟨column, hColumn⟩ := Option.isSome_iff_exists.1 hFound
    rw [hColumn]
    exact ⟨_, rfl⟩
  · rw [hKey]
    exact ⟨_, rfl⟩

theorem conflictTarget_of_not_lacksTarget {onConflict : List String}
    (h : ¬ table.LacksTarget onConflict) :
    table.conflictTarget onConflict = .ok (table.targetColumns onConflict) := by
  rw [Table.LacksTarget, not_or, not_and_or, not_and_or] at h
  unfold Table.conflictTarget Table.targetColumns
  by_cases hNone : onConflict = []
  · have hKey : ¬ table.primaryKey.isEmpty = true := by
      rw [List.isEmpty_iff]
      exact h.2.resolve_left fun hSome => hSome hNone
    rw [if_pos hNone, if_pos (List.isEmpty_iff.2 hNone), if_neg hKey]
  · have hFound : (onConflict.find? fun column =>
        !table.hasColumn column) = none := by
      rw [List.find?_eq_none]
      intro name hName hUnknown
      refine h.1.resolve_left (fun hSome => hSome hNone) ⟨name, hName, ?_⟩
      rwa [← Table.hasColumn_iff, Bool.not_eq_true, ← Bool.not_eq_true']
    rw [if_neg hNone, if_neg (by rwa [List.isEmpty_iff]), hFound]

/-! ## The assignments -/

/-- The assignment of a column of an existing record: to the value that was
not inserted, or to null. -/
structure Assignment where
  column : String
  excluded : Bool
deriving DecidableEq, Repr

/-- The text of an assignment. -/
def Assignment.text (a : Assignment) : String :=
  quotedName a.column ++
    if a.excluded then " = EXCLUDED." ++ quotedName a.column else " = NULL"

/-- The text of a conflict clause: with nothing to assign, the existing record
is left alone. -/
def conflictText (target : List String) (assigned : List Assignment) :
    String :=
  " ON CONFLICT (" ++ quotedNames target ++
    if assigned = [] then ") DO NOTHING"
    else ") DO UPDATE SET " ++ ", ".intercalate (assigned.map Assignment.text)

/-- What an upsert assigns, besides the columns of the conflict target. -/
def assigned (table : Table) (upsert : Upsert)
    (target columns : List String) : List Assignment :=
  if upsert.defaultToNull then
    (table.columnNames.filter (· ∉ target)).map fun name =>
      ⟨name, columns.contains name⟩
  else (columns.filter (· ∉ target)).map fun name => ⟨name, true⟩

theorem exists_assignExcluded {name : String}
    (h : isName name.toList = true) :
    ∃ part, assignExcluded name = .ok part ∧
      Spells part (Assignment.text ⟨name, true⟩) := by
  obtain ⟨quoted, hQuoted, hSpells⟩ := exists_column h
  rw [assignExcluded, hQuoted]
  exact ⟨_, rfl, hSpells.append ((Spells.word .excluded).append hSpells)⟩

theorem exists_assignNull {name : String} (h : isName name.toList = true) :
    ∃ part, assignNull name = .ok part ∧
      Spells part (Assignment.text ⟨name, false⟩) := by
  obtain ⟨quoted, hQuoted, hSpells⟩ := exists_column h
  rw [assignNull, hQuoted]
  exact ⟨_, rfl, hSpells.append (.word .assignNull)⟩

/-- The assignments are made in order. -/
theorem exists_conflictAssignments
    (hTable : ∀ name ∈ table.columnNames, isName name.toList = true)
    {columns : List String} (hColumns : columns ⊆ table.columnNames)
    (upsert : Upsert) (target : List String) :
    ∃ parts, conflictAssignments table upsert target columns = .ok parts ∧
      List.Forall₂ Spells parts
        ((assigned table upsert target columns).map Assignment.text) := by
  have hFree : ∀ names : List String,
      (names.filter fun name => !inConflictTarget name (some target)) =
        names.filter (· ∉ target) := by
    intro names
    refine List.filter_congr fun name _ => ?_
    rw [inConflictTarget, Option.getD_some, List.contains_eq_mem,
      ← decide_not]
  unfold conflictAssignments assigned
  dsimp only
  rw [hFree, hFree]
  split
  · rw [List.map_map]
    refine Spells.exists_mapM fun name hName => ?_
    have hText := hTable name (List.mem_of_mem_filter hName)
    cases hRecord : columns.contains name with
    | true =>
        rw [if_pos rfl, Function.comp_apply, hRecord]
        exact exists_assignExcluded hText
    | false =>
        rw [if_neg Bool.false_ne_true, Function.comp_apply, hRecord]
        exact exists_assignNull hText
  · rw [List.map_map]
    exact Spells.exists_mapM fun name hName => exists_assignExcluded
      (hTable name (hColumns (List.mem_of_mem_filter hName)))

/-- What is assigned to the existing record by an upsert. -/
def assignments (table : Table) (upsert : Upsert) (columns : List String) :
    List Assignment :=
  if upsert.ignoreDuplicates then []
  else assigned table upsert (table.targetColumns upsert.onConflict) columns

theorem targetColumns_subset {onConflict : List String}
    (hKey : table.primaryKey ⊆ table.columnNames)
    (h : ¬ table.LacksTarget onConflict) :
    table.targetColumns onConflict ⊆ table.columnNames :=
  Table.conflictTarget_subset hKey (conflictTarget_of_not_lacksTarget h)

/-- The clause of an upsert with a target. -/
theorem conflictClause_spells
    (hTable : ∀ name ∈ table.columnNames, isName name.toList = true)
    (hKey : table.primaryKey ⊆ table.columnNames) {columns : List String}
    (hColumns : columns ⊆ table.columnNames)
    (h : ¬ table.LacksTarget upsert.onConflict) :
    ∃ clause, conflictClause table upsert columns = .ok clause ∧
      Spells clause (conflictText (table.targetColumns upsert.onConflict)
        (assignments table upsert columns)) := by
  obtain ⟨names, hNames, hTarget⟩ := exists_columnList fun name hName =>
    hTable name (targetColumns_subset hKey h hName)
  have hLead : Spells (.word .onConflict :: names)
      (" ON CONFLICT (" ++ quotedNames
        (table.targetColumns upsert.onConflict)) :=
    (Spells.word .onConflict).append hTarget
  obtain ⟨parts, hParts, hSpells⟩ := exists_conflictAssignments hTable
    hColumns upsert (table.targetColumns upsert.onConflict)
  unfold conflictClause assignments conflictText
  rw [conflictTarget_of_not_lacksTarget h]
  show ∃ clause, (columnList (table.targetColumns upsert.onConflict) >>= _) = _
    ∧ _
  rw [hNames]
  show ∃ clause, (if upsert.ignoreDuplicates = true then _
    else conflictAssignments table upsert
      (table.targetColumns upsert.onConflict) columns >>= _) = _ ∧ _
  by_cases hIgnore : upsert.ignoreDuplicates = true
  · rw [if_pos hIgnore, if_pos hIgnore]
    exact ⟨_, rfl, hLead.append (.word .doNothing)⟩
  · rw [if_neg hIgnore, if_neg hIgnore, hParts]
    generalize assigned table upsert (table.targetColumns upsert.onConflict)
      columns = list at hSpells ⊢
    cases list with
    | nil =>
        -- With nothing to assign, the clause is that of an ignored duplicate.
        obtain rfl := List.forall₂_nil_right_iff.1 hSpells
        exact ⟨_, rfl, hLead.append (.word .doNothing)⟩
    | cons a others =>
        rw [if_neg (List.cons_ne_nil a others)]
        have hClause := hLead.append ((Spells.word .doUpdate).append
          (.commaList hSpells))
        cases hSpells with
        | cons hFirst hOthers => exact ⟨_, rfl, hClause⟩

/-! ## What is inserted -/

/-- What is inserted: a batch of records, or one record that may be empty. -/
inductive Insertion
  | batch (records : List Value)
  | single (record : Fields)

/-- The statement of an insertion. -/
def Insertion.statement (table : Table) (upsert : Option Upsert) :
    Insertion → Result Statement
  | .batch records => insertBatch table records upsert
  | .single record => insert table record upsert

/-- The columns of an insertion: those of its first record. -/
def Insertion.columns : Insertion → List String
  | .batch (.object first :: _) => Fields.names first
  | .batch _ => []
  | .single record => record.names

/-- The statements of an insertion: all of them have one beginning and one
end, with the conflict clause between them. -/
structure Insertion.MadeOf (i : Insertion) (table : Table)
    (body result : Fragment) : Prop where
  known : i.columns ⊆ table.columnNames
  returned : Spells result (returningText table)
  statement_eq : ∀ upsert, i.statement table upsert = do
    let clause ← conflictPart table upsert i.columns
    return ⟨body ++ clause ++ result⟩

theorem exists_madeOf_batch
    (hTable : ∀ name ∈ table.columnNames, isName name.toList = true)
    {records : List Value} {s : Statement}
    (h : insertBatch table records none = .ok s) :
    ∃ body result, (Insertion.batch records).MadeOf table body result := by
  obtain ⟨target, hTarget, -⟩ := bind_eq_ok.1 h
  have hNamed := isNamed_of_tablePiece hTable hTarget
  have hProper : ∀ cause,
      insertBatch table records none ≠ .error (.invalid cause) := by
    intro cause hRefused
    cases h.symm.trans hRefused
  obtain ⟨first, rest, rfl, hBatch⟩ := isBatch_of_not_invalid hProper
  obtain ⟨head, result, -, hResult, hMade⟩ :=
    insertBatch_of_isBatch hNamed hBatch
  rw [hMade none] at h
  obtain ⟨rows, hRows, -⟩ := bind_eq_ok.1 h
  refine ⟨head ++ commaList rows, result, hBatch.known, hResult,
    fun upsert => ?_⟩
  show insertBatch table _ upsert = _
  rw [hMade upsert, hRows]
  rfl

theorem exists_madeOf
    (hTable : ∀ name ∈ table.columnNames, isName name.toList = true)
    {i : Insertion} {s : Statement} (h : i.statement table none = .ok s) :
    ∃ body result, i.MadeOf table body result := by
  cases i with
  | batch records => exact exists_madeOf_batch hTable h
  | single record =>
      have hInsert : insert table record none = .ok s := h
      cases record with
      | nil =>
          obtain ⟨target, hTarget, -⟩ := bind_eq_ok.1 hInsert
          have hNamed := isNamed_of_tablePiece hTable hTarget
          obtain ⟨result, hResult, hReturned⟩ := exists_returning hNamed
          refine ⟨[.word .insertInto, target, .word .defaultValues], result,
            List.nil_subset _, hReturned, fun upsert => ?_⟩
          show (tablePiece table >>= _) = _
          rw [hTarget]
          show (conflictPart table upsert [] >>= _) =
            (conflictPart table upsert [] >>= _)
          cases conflictPart table upsert [] with
          | error e => rfl
          | ok conflict =>
              show (returning table >>= _) = _
              rw [hResult]
              rfl
      | cons field others =>
          obtain ⟨body, result, hKnown, hReturned, hMade⟩ :=
            exists_madeOf_batch hTable hInsert
          exact ⟨body, result, hKnown, hReturned, hMade⟩

/-! ## What is overwritten -/

/-- What an upsert that merges records assigns to the existing one: each of
its columns at most once and none of the target; of the table, every other
column, the missing ones to null; or of the record, every other column. -/
structure Overwrites (table : Table) (upsert : Upsert)
    (target columns : List String) (assigned : List Assignment) : Prop where
  outside : ∀ a ∈ assigned, a.column ∉ target
  nodup : (assigned.map (·.column)).Nodup
  of_table : upsert.defaultToNull = true →
    assigned.map (·.column) = table.columnNames.filter (· ∉ target) ∧
      ∀ a ∈ assigned, a.excluded = true ↔ a.column ∈ columns
  of_record : upsert.defaultToNull = false →
    assigned.map (·.column) = columns.filter (· ∉ target) ∧
      ∀ a ∈ assigned, a.excluded = true

theorem overwrites_assigned (hTable : table.columnNames.Nodup)
    {columns : List String} (hColumns : columns.Nodup)
    (target : List String) :
    Overwrites table upsert target columns
      (assigned table upsert target columns) := by
  have hSame : ∀ (names : List String) (value : String → Bool),
      (names.map fun name => Assignment.mk name (value name)).map (·.column) =
        names := by
    intro names value
    rw [List.map_map]
    exact List.map_id names
  have hFree : ∀ names : List String, ∀ name ∈ names.filter (· ∉ target),
      name ∉ target :=
    fun names name hName => of_decide_eq_true (List.mem_filter.1 hName).2
  unfold assigned
  cases hDefault : upsert.defaultToNull with
  | true =>
      refine ⟨?_, ?_, fun _ => ⟨hSame _ _, ?_⟩, fun hNot => ?_⟩
      · exact List.forall_mem_map.2 (hFree _)
      · rw [if_pos rfl, hSame]
        exact hTable.filter _
      · exact List.forall_mem_map.2 fun name _ => List.contains_iff_mem
      · rw [hDefault] at hNot
        cases hNot
  | false =>
      refine ⟨?_, ?_, fun hNot => ?_, fun _ => ⟨hSame _ _, ?_⟩⟩
      · exact List.forall_mem_map.2 (hFree _)
      · rw [if_neg Bool.false_ne_true, hSame]
        exact hColumns.filter _
      · rw [hDefault] at hNot
        cases hNot
      · exact List.forall_mem_map.2 fun _ _ => rfl

end Sql

open Sql

/-- An insertion that is built is built as an upsert too, unless there is no
conflict target; then it is refused. The two statements differ in nothing but
the conflict clause, which names the target and assigns no more than the
upsert is to overwrite. -/
theorem upsert_clauses {table : Table} (hDistinct : table.columnNames.Nodup)
    (hTable : ∀ name ∈ table.columnNames, isName name.toList = true)
    (hKey : table.primaryKey ⊆ table.columnNames) {i : Insertion}
    (hColumns : i.columns.Nodup) {s : Statement}
    (h : i.statement table none = .ok s) (upsert : Upsert) :
    ((∃ cause, i.statement table (some upsert) = .error (.invalid cause)) ↔
      table.LacksTarget upsert.onConflict) ∧
    (¬ table.LacksTarget upsert.onConflict →
      ∃ (t : Statement) (before : String) (assigned : List Assignment),
        i.statement table (some upsert) = .ok t ∧
        s.sql = before ++ returningText table ∧
        t.sql = before ++ conflictText (table.targetColumns upsert.onConflict)
          assigned ++ returningText table ∧
        t.args = s.args ∧
        (upsert.ignoreDuplicates = true → assigned = []) ∧
        (upsert.ignoreDuplicates = false → Overwrites table upsert
          (table.targetColumns upsert.onConflict) i.columns assigned)) := by
  obtain ⟨body, result, hMade⟩ := exists_madeOf hTable h
  obtain rfl : ⟨body ++ result⟩ = s := by
    rw [hMade.statement_eq none] at h
    rw [← Result.pure_eq_ok.1 h, List.append_nil]
  by_cases hLacks : table.LacksTarget upsert.onConflict
  · refine ⟨iff_of_true ?_ hLacks, fun hTarget => absurd hLacks hTarget⟩
    obtain ⟨cause, hCause⟩ := conflictTarget_of_lacksTarget hLacks
    refine ⟨cause, ?_⟩
    rw [hMade.statement_eq, conflictPart, conflictClause, hCause]
    rfl
  · obtain ⟨clause, hClause, hSpells⟩ :=
      conflictClause_spells hTable hKey hMade.known hLacks
    have hBuilt : i.statement table (some upsert) =
        .ok ⟨body ++ clause ++ result⟩ := by
      rw [hMade.statement_eq, conflictPart, hClause]
      rfl
    refine ⟨iff_of_false ?_ hLacks, fun _ => ⟨_, textFrom 0 body,
      assignments table upsert i.columns, hBuilt, ?_, ?_, ?_, ?_, ?_⟩⟩
    · rintro ⟨cause, hRefused⟩
      cases hBuilt.symm.trans hRefused
    · rw [Statement.sql, textFrom_append, hMade.returned.text_eq]
    · rw [Statement.sql, textFrom_append, textFrom_append, hSpells.text_eq,
        hMade.returned.text_eq]
    · rw [Statement.args, Statement.args, args_append, args_append,
        args_append, hSpells.args_eq, List.append_nil]
    · exact fun hIgnore => if_pos hIgnore
    · intro hIgnore
      rw [assignments, hIgnore, if_neg Bool.false_ne_true]
      exact overwrites_assigned hDistinct hColumns _

/-- An item without a document, in whose place the old one is lost. -/
def bareItem : Insertion := .single [("id", .text "a")]

set_option maxRecDepth 4000 in
theorem upsert_clauses_bareItem :
    Sql.items.columnNames.Nodup ∧
    (∀ name ∈ Sql.items.columnNames, isName name.toList = true) ∧
    Sql.items.primaryKey ⊆ Sql.items.columnNames ∧ bareItem.columns.Nodup ∧
    ∃ s t, bareItem.statement Sql.items none = .ok s ∧
      bareItem.statement Sql.items
        (some { onConflict := ["id"], defaultToNull := true }) = .ok t ∧
      t.sql = "INSERT INTO \"public\".\"items\" (\"id\") VALUES ($1)" ++
        " ON CONFLICT (\"id\") DO UPDATE SET \"data\" = NULL" ++
        " RETURNING \"id\", \"data\"" ∧
      t.args = s.args := by
  have hDistinct : Sql.items.columnNames.Nodup := by decide
  have hTable : ∀ name ∈ Sql.items.columnNames, isName name.toList = true := by
    decide
  have hKey : Sql.items.primaryKey ⊆ Sql.items.columnNames := by decide
  have hColumns : bareItem.columns.Nodup := by decide
  obtain ⟨s, hs⟩ : ∃ s, bareItem.statement Sql.items none = .ok s := ⟨_, rfl⟩
  obtain ⟨t, ht, hText⟩ : ∃ t, bareItem.statement Sql.items
      (some { onConflict := ["id"], defaultToNull := true }) = .ok t ∧
      t.sql = "INSERT INTO \"public\".\"items\" (\"id\") VALUES ($1)" ++
        " ON CONFLICT (\"id\") DO UPDATE SET \"data\" = NULL" ++
        " RETURNING \"id\", \"data\"" := ⟨_, rfl, rfl⟩
  obtain ⟨hRefused, hBuilt⟩ := upsert_clauses hDistinct hTable hKey hColumns hs
    { onConflict := ["id"], defaultToNull := true }
  have hTarget : ¬ Sql.items.LacksTarget ["id"] := by
    intro hLacks
    obtain ⟨cause, hCause⟩ := hRefused.2 hLacks
    cases ht.symm.trans hCause
  obtain ⟨t', before, assigned, ht', -, -, hArgs, -⟩ := hBuilt hTarget
  obtain rfl : t = t' := Except.ok.inj (ht.symm.trans ht')
  exact ⟨hDistinct, hTable, hKey, hColumns, s, t, hs, ht, hText, hArgs⟩

end TableGate
