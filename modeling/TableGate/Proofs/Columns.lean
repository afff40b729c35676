import TableGate.Proofs.Sql.Guarded
import TableGate.Proofs.Sql.Names
import TableGate.Proofs.Task

/-!
# Only columns of the table are reached

A request is checked against the table before statements are made from it: all
columns that it mentions are columns of the table, a path by the column it
starts from. The columns of records and updates and those of a conflict target
are checked where they are used. So no statement reaches a column that the
table does not have.

The columns of a primary key are not checked. They are read like those of a
filter, so one that is spelled as a path leads to the column it starts from.
Where a statement returns the columns of the table, these are quoted as they
are, and such a table is refused; the SELECT of one record returns them
unnamed.

## Main results

* `Params.within_of_validate`: a request that passes the check mentions columns
  of the table only.
* `Engine.operations_reach_columns`: every operation sends statements that name
  columns of the table only, except for the record with a key that is spelled
  as a path.
-/

namespace TableGate

open Result (bind_eq_ok of_check_eq_ok pure_eq_ok refuse_ne_ok)
open Sql (Composed OnlyColumns ReadAs)

variable {δ α : Type} {table : Table} {params : Params}

/-! ## Requests -/

/-- All columns that a request mentions are read as columns of the table. -/
def Params.Within (params : Params) (table : Table) : Prop :=
  ∀ name ∈ params.mentioned, ReadAs (· ∈ table.columnNames) name

/-- Names that pass the check are those of columns. -/
theorem Params.subset_of_checkColumns {names : List String}
    (h : names.forM (checkColumn table) = .ok ()) :
    names ⊆ table.columnNames := by
  intro name hName
  have hCheck := Result.forM_eq_ok.1 h name hName
  unfold checkColumn at hCheck
  split at hCheck
  · next hHas => exact Table.hasColumn_iff.1 hHas
  · exact absurd hCheck refuse_ne_ok

/-- A request that passes the check mentions columns of the table only. -/
theorem Params.within_of_validate (h : params.validate table = .ok ()) :
    params.Within table := by
  obtain ⟨-, -, h⟩ := bind_eq_ok.1 h
  obtain ⟨columns, hColumns, h⟩ := bind_eq_ok.1 h
  obtain ⟨⟨⟩, hKnown, -⟩ := bind_eq_ok.1 h
  intro name hName base hBase
  obtain ⟨column, hMem, hColumn⟩ :=
    Result.exists_of_mem_forall₂ (Result.mapM_eq_ok.1 hColumns).flip hName
  obtain rfl : column = base := Except.ok.inj (hColumn.symm.trans hBase)
  exact subset_of_checkColumns hKnown hMem

namespace Params.Within

theorem selected (h : params.Within table) :
    ∀ name ∈ params.select.filter (· != "*") ++
      params.aggregations.filterMap (·.column),
      ReadAs (· ∈ table.columnNames) name := by
  refine fun name hName => h name ?_
  simp only [mentioned, List.append_assoc, List.mem_append] at hName ⊢
  tauto

theorem filters (h : params.Within table) :
    ∀ f ∈ params.filters, ReadAs (· ∈ table.columnNames) f.column := by
  refine fun f hf => h _ ?_
  have hMem : f.column ∈ params.filters.map (·.column) :=
    List.mem_map_of_mem hf
  simp only [mentioned, List.mem_append, hMem, or_true, true_or]

theorem order (h : params.Within table) :
    ∀ entry ∈ params.order, ReadAs (· ∈ table.columnNames) entry.column := by
  refine fun entry hEntry => h _ ?_
  have hMem : entry.column ∈ params.order.map (·.column) :=
    List.mem_map_of_mem hEntry
  simp only [mentioned, List.mem_append, hMem, or_true, true_or]

theorem groupBy (h : params.Within table) :
    ∀ name ∈ params.groupBy, ReadAs (· ∈ table.columnNames) name := by
  refine fun name hMem => h _ ?_
  simp only [mentioned, List.mem_append, hMem, or_true, true_or]

theorem keysetColumn (h : params.Within table) {name : String}
    (hName : params.keysetColumn = some name) :
    ReadAs (· ∈ table.columnNames) name := by
  refine h _ ?_
  rw [mentioned, hName]
  exact List.mem_append_right _ List.mem_cons_self

/-- Without page bounds and cursor a request mentions no more. -/
theorem unpaged (h : params.Within table) : params.unpaged.Within table := by
  refine fun name hName => ?_
  rcases List.mem_append.1 hName with hOther | hKeyset
  · exact h name (List.mem_append_left _ hOther)
  · rw [Option.mem_toList, Params.keysetColumn, Params.unpaged] at hKeyset
    refine h.keysetColumn ?_
    rw [Params.keysetColumn]
    cases hColumn : params.cursorColumn with
    | none => simp [hColumn] at hKeyset
    | some column =>
        simp only [hColumn, Option.map_none] at hKeyset ⊢
        -- An empty name counts as none, and then there is no column at all.
        split_ifs at hKeyset ⊢ with hEmpty
        exact hKeyset

end Params.Within

/-- The columns of a conflict target are columns of the table. -/
theorem Table.conflictTarget_subset
    (hKey : table.primaryKey ⊆ table.columnNames) {names target : List String}
    (h : table.conflictTarget names = .ok target) :
    target ⊆ table.columnNames := by
  unfold conflictTarget at h
  split at h
  · split at h
    · exact absurd h refuse_ne_ok
    · rwa [← Except.ok.inj h]
  · split at h
    · exact absurd h refuse_ne_ok
    · next hFound =>
        rw [← Except.ok.inj h]
        intro name hName
        have hHas := List.find?_eq_none.1 hFound name hName
        rw [Bool.not_eq_true', Bool.not_eq_false] at hHas
        exact hasColumn_iff.1 hHas

namespace Sql

variable {s : Statement}

/-- A statement that is composed of columns of a table. -/
def Statement.Within (s : Statement) (table : Table) : Prop :=
  Composed table (· ∈ table.columnNames) True s.pieces

/-! ## Statements that read -/

section Keyset

variable {kind : String → Prop}

/-- The comparison that a cursor adds names the keyset column. -/
theorem columns_keysetFilters (hOwn : ∀ f ∈ params.filters, kind f.column)
    (hKeyset : ∀ name, params.keysetColumn = some name → kind name)
    {filters : List Filter} (h : keysetFilters params = .ok filters) :
    ∀ f ∈ filters, kind f.column := by
  unfold keysetFilters at h
  split at h
  · rw [← pure_eq_ok.1 h]
    exact hOwn
  · next cursor hCursor =>
      obtain ⟨value, -, h⟩ := bind_eq_ok.1 h
      obtain ⟨column, hColumn⟩ := Option.ne_none_iff_exists'.1
        (params.keysetColumn_ne_none hCursor)
      rw [← pure_eq_ok.1 h, hColumn]
      intro f hf
      rcases List.mem_append.1 hf with hMem | hAdded
      · exact hOwn f hMem
      · rw [List.mem_singleton.1 hAdded]
        exact hKeyset column hColumn

/-- The entry that pagination adds names the keyset column. -/
theorem columns_keysetOrder (hOwn : ∀ entry ∈ params.order, kind entry.column)
    (hKeyset : ∀ name, params.keysetColumn = some name → kind name) :
    ∀ entry ∈ keysetOrder params, kind entry.column := by
  unfold keysetOrder
  split
  · exact hOwn
  · next column hColumn =>
      split
      · exact hOwn
      · intro entry hEntry
        rcases List.mem_append.1 hEntry with hMem | hAdded
        · exact hOwn entry hMem
        · rw [List.mem_singleton.1 hAdded]
          exact hKeyset column hColumn

end Keyset

/-- The part of a SELECT up to the table. -/
theorem composed_selected (hNames : params.Within table) {target : Piece}
    (hTarget : tablePiece table = .ok target) {list : Fragment}
    (hList : selectList params = .ok list) :
    Composed table (· ∈ table.columnNames) True
      (.word .select :: list ++ [.word .fromTable, target]) :=
  (Composed.plain rfl (composed_selectList hList hNames.selected)).append
    (.plain rfl (composed_tablePiece hTarget))

theorem within_select (h : select table params = .ok s)
    (hNames : params.Within table) : s.Within table := by
  obtain ⟨target, hTarget, h⟩ := bind_eq_ok.1 h
  obtain ⟨list, hList, h⟩ := bind_eq_ok.1 h
  obtain ⟨filters, hFilters, h⟩ := bind_eq_ok.1 h
  obtain ⟨wherePart, hWhere, h⟩ := bind_eq_ok.1 h
  obtain ⟨groupPart, hGroup, h⟩ := bind_eq_ok.1 h
  obtain ⟨orderPart, hOrder, h⟩ := bind_eq_ok.1 h
  rw [← pure_eq_ok.1 h]
  have hLead := composed_selected hNames hTarget hList
  have hRows : Composed table (· ∈ table.columnNames) True wherePart :=
    composed_whereClause hWhere
      (columns_keysetFilters hNames.filters (fun _ => hNames.keysetColumn)
        hFilters)
  exact ((((hLead.append hRows).append
    (composed_groupClause hGroup hNames.groupBy)).append
      (composed_orderClause hOrder
        (columns_keysetOrder hNames.order fun _ => hNames.keysetColumn))).append
        (composed_boundClause rfl _)).append (composed_boundClause rfl _)

theorem within_count (h : count table params = .ok s)
    (hNames : params.Within table) : s.Within table := by
  obtain ⟨target, hTarget, h⟩ := bind_eq_ok.1 h
  obtain ⟨wherePart, hWhere, h⟩ := bind_eq_ok.1 h
  have hRows : Composed table (· ∈ table.columnNames) True
      (.word .fromTable :: target :: wherePart) :=
    .plain rfl ((composed_tablePiece hTarget).append
      (composed_whereClause hWhere hNames.filters))
  split at h
  · rw [← pure_eq_ok.1 h]
    exact .plain rfl hRows
  · obtain ⟨groupPart, hGroup, h⟩ := bind_eq_ok.1 h
    rw [← pure_eq_ok.1 h]
    have hInner : Composed table (· ∈ table.columnNames) True
        (.word .selectOne :: .word .fromTable :: target :: wherePart) :=
      .plain rfl hRows
    have hGroups := hInner.append (composed_groupClause hGroup hNames.groupBy)
    have hEnd : Composed table (· ∈ table.columnNames) True
        [.word .closeParen, .word .asName, .label groupedLabel] :=
      .plain rfl (.named .nil)
    exact .plain rfl (.plain rfl (.plain rfl (hGroups.append hEnd)))

theorem within_explain (h : explain table params = .ok s)
    (hNames : params.Within table) : s.Within table := by
  obtain ⟨whole, hWhole, h⟩ := bind_eq_ok.1 h
  rw [← pure_eq_ok.1 h]
  exact .plain rfl (within_select hWhole hNames.unpaged)

/-- The filters of a key name the columns of the primary key. -/
theorem mem_primaryKey_of_keyFilters {key : List Value} {filters : List Filter}
    (h : keyFilters table key = .ok filters) :
    ∀ f ∈ filters, f.column ∈ table.primaryKey := by
  intro f hf
  obtain ⟨-, -, hFilters⟩ := keyFilters_eq h
  obtain ⟨part, hMem, value, -, rfl⟩ := Result.exists_of_mem_forall₂ hFilters hf
  exact (List.of_mem_zip hMem).1

theorem within_selectByKey {key : List Value}
    (h : selectByKey table key params = .ok s) (hNames : params.Within table)
    (hKey : ∀ name ∈ table.primaryKey, ReadAs (· ∈ table.columnNames) name) :
    s.Within table := by
  obtain ⟨target, hTarget, h⟩ := bind_eq_ok.1 h
  obtain ⟨list, hList, h⟩ := bind_eq_ok.1 h
  obtain ⟨filters, hFilters, h⟩ := bind_eq_ok.1 h
  obtain ⟨wherePart, hWhere, h⟩ := bind_eq_ok.1 h
  rw [← pure_eq_ok.1 h]
  refine (composed_selected hNames hTarget hList).append
    (composed_whereClause hWhere fun f hf => ?_)
  rcases List.mem_append.1 hf with hOwn | hOther
  · exact hKey _ (mem_primaryKey_of_keyFilters hFilters f hOwn)
  · exact hNames.filters f hOther

/-! ## Statements that write -/

/-- A table whose columns are returned has no column that is spelled as a
path. -/
theorem readAs_of_returning {fragment : Fragment}
    (h : returning table = .ok fragment) :
    ∀ name ∈ table.columnNames, ReadAs (· ∈ table.columnNames) name := by
  intro name hName
  have hOwn := isName_of_returning h name hName
  exact readAs_of_column (Identifier.column_text ⟨name, hOwn⟩) hName

theorem batchColumns_subset {records : List Fields} {names : List String}
    (h : batchColumns table records = .ok names) :
    names ⊆ table.columnNames := by
  cases records with
  | nil => exact absurd h refuse_ne_ok
  | cons first rest =>
      unfold batchColumns at h
      dsimp only at h
      obtain ⟨-, h⟩ := of_check_eq_ok h
      obtain ⟨⟨⟩, hKnown, h⟩ := bind_eq_ok.1 h
      obtain ⟨-, -, h⟩ := bind_eq_ok.1 h
      rw [← pure_eq_ok.1 h]
      exact Params.subset_of_checkColumns hKnown

/-- The parts after the rows of an INSERT. -/
theorem composed_inserted (hKey : table.primaryKey ⊆ table.columnNames)
    {upsert : Option Upsert} {names : List String}
    (hNames : names ⊆ table.columnNames) {conflict result : Fragment}
    (hConflict : conflictPart table upsert names = .ok conflict)
    (hResult : returning table = .ok result) :
    Composed table (· ∈ table.columnNames) True conflict ∧
      Composed table (· ∈ table.columnNames) True result :=
  ⟨composed_conflictPart hConflict
      (fun _ _ hTarget => Table.conflictTarget_subset hKey hTarget)
      (fun _ => id) hNames,
    composed_returning hResult fun _ => id⟩

theorem within_insertBatch {records : List Value} {upsert : Option Upsert}
    (h : insertBatch table records upsert = .ok s)
    (hKey : table.primaryKey ⊆ table.columnNames) : s.Within table := by
  obtain ⟨target, hTarget, h⟩ := bind_eq_ok.1 h
  obtain ⟨-, h⟩ := of_check_eq_ok h
  obtain ⟨records, -, h⟩ := bind_eq_ok.1 h
  obtain ⟨columns, hColumns, h⟩ := bind_eq_ok.1 h
  obtain ⟨rows, hRows, h⟩ := bind_eq_ok.1 h
  obtain ⟨names, hNames, h⟩ := bind_eq_ok.1 h
  obtain ⟨conflict, hConflict, h⟩ := bind_eq_ok.1 h
  obtain ⟨result, hResult, h⟩ := bind_eq_ok.1 h
  rw [← pure_eq_ok.1 h]
  have hKnown := batchColumns_subset hColumns
  obtain ⟨hUpsert, hReturned⟩ :=
    composed_inserted hKey hKnown hConflict hResult
  have hInto : Composed table (· ∈ table.columnNames) True
      [.word .insertInto, target, .word .openColumns] :=
    .plain rfl ((composed_tablePiece hTarget).append (.one rfl))
  have hNamed := hInto.append
    (composed_columnList hNames fun name hMem _ _ => hKnown hMem)
  exact ((hNamed.append (.plain rfl (.commaList (.of_mapM hRows
    fun _ _ _ => composed_recordRow)))).append hUpsert).append hReturned

theorem within_insert {record : Fields} {upsert : Option Upsert}
    (h : insert table record upsert = .ok s)
    (hKey : table.primaryKey ⊆ table.columnNames) : s.Within table := by
  unfold insert at h
  split at h
  · obtain ⟨target, hTarget, h⟩ := bind_eq_ok.1 h
    obtain ⟨conflict, hConflict, h⟩ := bind_eq_ok.1 h
    obtain ⟨result, hResult, h⟩ := bind_eq_ok.1 h
    rw [← pure_eq_ok.1 h]
    obtain ⟨hUpsert, hReturned⟩ :=
      composed_inserted hKey (List.nil_subset _) hConflict hResult
    have hInto : Composed table (· ∈ table.columnNames) True
        [.word .insertInto, target, .word .defaultValues] :=
      .plain rfl ((composed_tablePiece hTarget).append (.one rfl))
    exact (hInto.append hUpsert).append hReturned
  · exact within_insertBatch h hKey

/-- The rows that are written are found by columns of the table, whether they
are read as such or are such. -/
theorem composed_written {filters : List Filter}
    (hNames : ∀ f ∈ filters, f.column ∈ table.columnNames ∨
      ReadAs (· ∈ table.columnNames) f.column) {wherePart result : Fragment}
    (hWhere : whereClause filters = .ok wherePart)
    (hResult : returning table = .ok result) :
    Composed table (· ∈ table.columnNames) True (wherePart ++ result) :=
  (composed_whereClause hWhere fun f hf =>
    (hNames f hf).elim (readAs_of_returning hResult f.column) id).append
      (composed_returning hResult fun _ => id)

theorem within_updateWhere {target : Piece}
    (hTarget : tablePiece table = .ok target) {values : Fields}
    {filters : List Filter}
    (h : updateWhere table target values filters = .ok s)
    (hNames : ∀ f ∈ filters, f.column ∈ table.columnNames ∨
      ReadAs (· ∈ table.columnNames) f.column) : s.Within table := by
  unfold updateWhere at h
  obtain ⟨-, h⟩ := of_check_eq_ok h
  obtain ⟨⟨⟩, hKnown, h⟩ := bind_eq_ok.1 h
  obtain ⟨assignments, hAssignments, h⟩ := bind_eq_ok.1 h
  obtain ⟨wherePart, hWhere, h⟩ := bind_eq_ok.1 h
  obtain ⟨result, hResult, h⟩ := bind_eq_ok.1 h
  rw [← pure_eq_ok.1 h]
  have hParts : ∀ part ∈ assignments,
      Composed table (· ∈ table.columnNames) True part :=
    .of_mapM hAssignments fun field hMem part hPart =>
      composed_assignment hPart
        (Params.subset_of_checkColumns hKnown (List.mem_map_of_mem hMem))
  have hSet : Composed table (· ∈ table.columnNames) True
      [.word .update, target, .word .set] :=
    .plain rfl ((composed_tablePiece hTarget).append (.one rfl))
  have hWhole := (hSet.append (.commaList hParts)).append
    (composed_written hNames hWhere hResult)
  rwa [← List.append_assoc] at hWhole

theorem within_deleteWhere {target : Piece}
    (hTarget : tablePiece table = .ok target) {filters : List Filter}
    (h : deleteWhere table target filters = .ok s)
    (hNames : ∀ f ∈ filters, f.column ∈ table.columnNames ∨
      ReadAs (· ∈ table.columnNames) f.column) : s.Within table := by
  obtain ⟨wherePart, hWhere, h⟩ := bind_eq_ok.1 h
  obtain ⟨result, hResult, h⟩ := bind_eq_ok.1 h
  rw [← pure_eq_ok.1 h]
  exact .plain rfl ((composed_tablePiece hTarget).append
    (composed_written hNames hWhere hResult))

theorem within_update {values : Fields}
    (h : update table values params = .ok s) (hNames : params.Within table) :
    s.Within table := by
  obtain ⟨target, hTarget, h⟩ := bind_eq_ok.1 h
  obtain ⟨-, h⟩ := of_check_eq_ok h
  exact within_updateWhere hTarget h fun f hf => .inr (hNames.filters f hf)

theorem within_delete (h : delete table params = .ok s)
    (hNames : params.Within table) : s.Within table := by
  obtain ⟨target, hTarget, h⟩ := bind_eq_ok.1 h
  obtain ⟨-, h⟩ := of_check_eq_ok h
  exact within_deleteWhere hTarget h fun f hf => .inr (hNames.filters f hf)

theorem within_updateByKey {key : List Value} {values : Fields}
    (h : updateByKey table key values = .ok s)
    (hKey : table.primaryKey ⊆ table.columnNames) : s.Within table := by
  obtain ⟨target, hTarget, h⟩ := bind_eq_ok.1 h
  obtain ⟨filters, hFilters, h⟩ := bind_eq_ok.1 h
  exact within_updateWhere hTarget h fun f hf =>
    .inl (hKey (mem_primaryKey_of_keyFilters hFilters f hf))

theorem within_deleteByKey {key : List Value}
    (h : deleteByKey table key = .ok s)
    (hKey : table.primaryKey ⊆ table.columnNames) : s.Within table := by
  obtain ⟨target, hTarget, h⟩ := bind_eq_ok.1 h
  obtain ⟨filters, hFilters, h⟩ := bind_eq_ok.1 h
  exact within_deleteWhere hTarget h fun f hf =>
    .inl (hKey (mem_primaryKey_of_keyFilters hFilters f hf))

end Sql

/-! ## Operations -/

open Sql (PreparedStatement)
open TableGate.Task (Sends)

variable {Q : PreparedStatement → Prop}

/-- What is sent after a check is sent only if the check passes. -/
theorem Task.Sends.of_check {check : Result Unit} {f : Unit → Task δ α}
    (h : check = .ok () → Sends Q (Task.lift check >>= f)) :
    Sends Q (Task.lift check >>= f) := by
  cases hCheck : check with
  | error e => exact Sends.lift_bind fun a ha => by cases ha
  | ok a => exact hCheck ▸ h hCheck

namespace Engine

/-- The names in a statement that is sent are columns of the table, the table
itself, and names given after AS. -/
def Reaches (table : Table) (p : PreparedStatement) : Prop :=
  OnlyColumns table p.sql

/-- The statements of every operation name columns of the table only, if its
primary key has no others. The record with a key needs more: the columns of
the primary key must be read as columns of the table too. -/
theorem operations_reach_columns (engine : Engine δ)
    (hKey : table.primaryKey ⊆ table.columnNames) :
    (∀ params, Sends (Reaches table) (engine.select table params)) ∧
    (∀ body upsert,
      Sends (Reaches table) (engine.insert table body upsert)) ∧
    (∀ key values,
      Sends (Reaches table) (engine.updateByKey table key values)) ∧
    (∀ values params,
      Sends (Reaches table) (engine.update table values params)) ∧
    (∀ key, Sends (Reaches table) (engine.deleteByKey table key)) ∧
    (∀ params, Sends (Reaches table) (engine.delete table params)) ∧
    ((∀ name ∈ table.primaryKey, ReadAs (· ∈ table.columnNames) name) →
      ∀ key params, Sends (Reaches table) (engine.get table key params)) := by
  refine ⟨fun params => .of_check fun hValid => ?_, fun body upsert => ?_,
    fun key values => ?_, fun values params => .of_check fun hValid => ?_,
    fun key => ?_, fun params => .of_check fun hValid => ?_,
    fun hRead key params => ?_⟩
  · have hNames := Params.within_of_validate hValid
    refine engine.select_sends
      (fun s hs => (Sql.within_select hs hNames).onlyColumns)
      fun s hs => hs.elim (fun hs => ?_) fun hs => ?_
    · exact (Sql.within_count hs hNames).onlyColumns
    · exact (Sql.within_explain hs hNames).onlyColumns
  · refine engine.insert_sends fun s hs => ?_
    obtain ⟨-, -, hs⟩ := bind_eq_ok.1 hs
    split at hs
    · exact (Sql.within_insert hs hKey).onlyColumns
    · exact (Sql.within_insertBatch hs hKey).onlyColumns
    · exact absurd hs refuse_ne_ok
  · exact engine.updateByKey_sends fun s hs =>
      (Sql.within_updateByKey hs hKey).onlyColumns
  · exact engine.update_sends fun s hs => (Sql.within_update hs
      (Params.within_of_validate hValid)).onlyColumns
  · exact engine.deleteByKey_sends fun s hs =>
      (Sql.within_deleteByKey hs hKey).onlyColumns
  · exact engine.delete_sends fun s hs => (Sql.within_delete hs
      (Params.within_of_validate hValid)).onlyColumns
  · -- Without a request there is no check, and nothing that is mentioned.
    cases params with
    | none =>
        refine engine.get_sends fun s hs => ?_
        have hNone : ({} : Params).Within table := by
          intro name hName
          exact absurd hName List.not_mem_nil
        exact (Sql.within_selectByKey hs hNone hRead).onlyColumns
    | some params =>
        refine Sends.of_check fun hValid => ?_
        show Sends (Reaches table) (engine.get table key (some params))
        refine engine.get_sends fun s hs => ?_
        exact (Sql.within_selectByKey hs (Params.within_of_validate hValid)
          hRead).onlyColumns

/-- An engine that serves one table from it. -/
def serving (table : Table) : Engine Unit where
  catalog := { tables := [table] }
  config := { projectName := table.name }
  database := rowless

theorem readAs_items : ∀ name ∈ Sql.items.primaryKey,
    ReadAs (· ∈ Sql.items.columnNames) name := by
  intro name hName
  have hId : Sql.column "id" = .ok (.column ⟨"id", by decide⟩) := rfl
  rw [List.mem_singleton.1 hName]
  exact Sql.readAs_of_column hId (by decide)

/-- A page of items and one item are read by columns of items. -/
theorem operations_reach_columns_items :
    Sends (Reaches Sql.items)
      ((serving Sql.items).select Sql.items { count := some .exact }) ∧
    Sends (Reaches Sql.items)
      ((serving Sql.items).get Sql.items (.int 7) none) ∧
    (((serving Sql.items).get Sql.items (.int 7) none).run.run
        ⟨{}, (), []⟩).2.events =
      [.begin, .statement {
        sql := "SELECT * FROM \"public\".\"items\" WHERE \"id\" = :p1"
        params := [("p1", .int 7)] }, .commit] := by
  have hKey : Sql.items.primaryKey ⊆ Sql.items.columnNames := by decide
  obtain ⟨hSelect, -, -, -, -, -, hGet⟩ :=
    operations_reach_columns (serving Sql.items) hKey
  exact ⟨hSelect _, hGet readAs_items _ _, rfl⟩

/-- A table whose key is spelled as a path. -/
def spelledAsPath : Table where
  schema := "public"
  name := "t"
  primaryKey := ["data->x"]
  columns := [{ name := "data->x" }]

/-- The record with a key that is spelled as a path is looked for in the column
that the path starts from, which the table does not have. -/
theorem get_reaches_elsewhere :
    spelledAsPath.primaryKey ⊆ spelledAsPath.columnNames ∧
      ¬Sends (Reaches spelledAsPath)
        ((serving spelledAsPath).get spelledAsPath (.int 5) none) := by
  refine ⟨by decide, fun h => ?_⟩
  obtain ⟨new, hEvents, hSent⟩ := h ⟨{}, (), []⟩
  have hRun : (((serving spelledAsPath).get spelledAsPath (.int 5)
      none).run.run ⟨{}, (), []⟩).2.events = [.begin, .statement {
        sql := "SELECT * FROM \"public\".\"t\" WHERE \"data\"->'x' = :p1"
        params := [("p1", .int 5)] }, .commit] := rfl
  rw [hRun, List.nil_append] at hEvents
  have hOnly := hSent _ (hEvents ▸ List.mem_cons_of_mem _ List.mem_cons_self)
  cases hOnly "SELECT * FROM \"public\".\"t\" WHERE ".toList "data".toList
      "->'x' = :p1".toList ⟨rfl, rfl, by decide⟩ with
  | column h => exact absurd h (by decide)
  | schema hName => exact absurd hName (by decide)
  | table hName => exact absurd hName (by decide)
  | label h => exact absurd h (by decide)

end Engine
end TableGate
