import TableGate.Proofs.Sql.Spacing

/-!
# All statements

A `Command` is one of the ten things a table can be asked for, with everything
the statement is made from. Nothing is assumed about the table or about what a
request brings.

## Main results

* `Command.loose`: the pieces of every statement stand apart.
-/

namespace TableGate.Sql

open Result (bind_eq_ok pure_eq_ok of_check_eq_ok)

/-- What a table can be asked for. -/
inductive Command
  | select (params : Params)
  | count (params : Params)
  | explain (params : Params)
  | selectByKey (key : List Value) (params : Params)
  | insert (record : Fields) (upsert : Option Upsert)
  | insertBatch (records : List Value) (upsert : Option Upsert)
  | update (values : Fields) (params : Params)
  | updateByKey (key : List Value) (values : Fields)
  | delete (params : Params)
  | deleteByKey (key : List Value)

/-- The statement of a command. -/
def Command.statement (table : Table) : Command → Result Statement
  | .select params => Sql.select table params
  | .count params => Sql.count table params
  | .explain params => Sql.explain table params
  | .selectByKey key params => Sql.selectByKey table key params
  | .insert record upsert => Sql.insert table record upsert
  | .insertBatch records upsert => Sql.insertBatch table records upsert
  | .update values params => Sql.update table values params
  | .updateByKey key values => Sql.updateByKey table key values
  | .delete params => Sql.delete table params
  | .deleteByKey key => Sql.deleteByKey table key

/-- A table with a document for each item. -/
def items : Table where
  schema := "public"
  name := "items"
  primaryKey := ["id"]
  columns := [{ name := "id" }, { name := "data", dataType := "jsonb" }]

/-- A page of items, with a filter that would like to be a statement. -/
def pageOfItems : Command :=
  .select {
    select := ["id", "data->tags->0->>name"]
    filters := [{
      column := "data->>size"
      operator := some .gt
      value := .text "1'; DROP TABLE items; --" }]
    order := [{ column := "id", desc := true, nulls := "last" }]
    limit := some 5 }

set_option maxRecDepth 4000 in
example : (pageOfItems.statement items).map Statement.sql = .ok
    ("SELECT \"id\", \"data\"->'tags'->0->>'name' AS \"name\"" ++
      " FROM \"public\".\"items\" WHERE (\"data\"->>'size')::numeric > $1" ++
      " ORDER BY \"id\" DESC NULLS LAST LIMIT $2") := rfl

/-! ## Statements that read -/

variable {table : Table} {s : Statement}

theorem loose_fromTable {w : Word} {columns : Fragment} {target : Piece}
    (hStart : w.start ≠ .operator) (hFinish : w.finish = .other)
    (hColumns : Loose columns) (hTarget : Loose [target]) :
    Loose (.word w :: columns ++ [.word .fromTable, target]) :=
  (hColumns.word hStart hFinish).tail (.word hTarget rfl rfl)

theorem loose_select {params : Params} (h : select table params = .ok s) :
    Loose s.pieces := by
  obtain ⟨target, hTarget, h⟩ := bind_eq_ok.1 h
  obtain ⟨columns, hColumns, h⟩ := bind_eq_ok.1 h
  obtain ⟨filters, -, h⟩ := bind_eq_ok.1 h
  obtain ⟨wherePart, hWhere, h⟩ := bind_eq_ok.1 h
  obtain ⟨groupPart, hGroup, h⟩ := bind_eq_ok.1 h
  obtain ⟨orderPart, hOrder, h⟩ := bind_eq_ok.1 h
  rw [← pure_eq_ok.1 h]
  exact ((((loose_fromTable (by decide) rfl (loose_selectList hColumns)
    (loose_tablePiece hTarget)).tail (tail_whereClause hWhere)).tail
    (tail_groupClause hGroup)).tail (tail_orderClause hOrder)).tail
    (tail_boundClause rfl rfl _) |>.tail (tail_boundClause rfl rfl _)

theorem loose_count {params : Params} (h : count table params = .ok s) :
    Loose s.pieces := by
  obtain ⟨target, hTarget, h⟩ := bind_eq_ok.1 h
  obtain ⟨wherePart, hWhere, h⟩ := bind_eq_ok.1 h
  have hTable := loose_tablePiece hTarget
  have hClause := tail_whereClause hWhere
  split at h
  · rw [← pure_eq_ok.1 h]
    have hFrom : Tail [.word .fromTable, target] := .word hTable rfl rfl
    exact (hFrom.toLoose.word (by decide) rfl).tail hClause
  · obtain ⟨groupPart, hGroup, h⟩ := bind_eq_ok.1 h
    rw [← pure_eq_ok.1 h]
    have hInner : Loose [.word .selectOne, .word .fromTable, target] :=
      Loose.tail (a := [.word .selectOne]) (.bare rfl rfl rfl)
        (.word hTable rfl rfl)
    have hFrom : Tail [.word .fromTable, .word .openParen, .word .selectOne,
        .word .fromTable, target] :=
      .word (hInner.word (by decide) rfl) rfl rfl
    have hLabel : Loose [.label groupedLabel] := .bare rfl rfl rfl
    have hEnd : Tail [.word .closeParen, .word .asName,
        .label groupedLabel] :=
      .word (Tail.word hLabel rfl rfl).toLoose rfl rfl
    exact (((hFrom.toLoose.word (by decide) rfl).tail hClause).tail
      (tail_groupClause hGroup)).tail hEnd

theorem loose_explain {params : Params} (h : explain table params = .ok s) :
    Loose s.pieces := by
  obtain ⟨whole, hWhole, h⟩ := bind_eq_ok.1 h
  rw [← pure_eq_ok.1 h]
  exact (loose_select hWhole).word (by decide) rfl

theorem loose_selectByKey {key : List Value} {params : Params}
    (h : selectByKey table key params = .ok s) : Loose s.pieces := by
  obtain ⟨target, hTarget, h⟩ := bind_eq_ok.1 h
  obtain ⟨columns, hColumns, h⟩ := bind_eq_ok.1 h
  obtain ⟨filters, -, h⟩ := bind_eq_ok.1 h
  obtain ⟨wherePart, hWhere, h⟩ := bind_eq_ok.1 h
  rw [← pure_eq_ok.1 h]
  exact (loose_fromTable (by decide) rfl (loose_selectList hColumns)
    (loose_tablePiece hTarget)).tail (tail_whereClause hWhere)

/-! ## Statements that write -/

theorem tail_returning {fragment : Fragment}
    (h : returning table = .ok fragment) : Tail fragment := by
  unfold returning at h
  split at h
  · rw [← pure_eq_ok.1 h]
    exact .word (.piece (by decide) rfl (by decide)) rfl rfl
  · obtain ⟨names, hNames, h⟩ := bind_eq_ok.1 h
    rw [← pure_eq_ok.1 h]
    exact .word (loose_columnList hNames) rfl rfl

theorem loose_assignExcluded {name : String} {fragment : Fragment}
    (h : assignExcluded name = .ok fragment) : Loose fragment := by
  obtain ⟨quoted, hQuoted, h⟩ := bind_eq_ok.1 h
  rw [← pure_eq_ok.1 h]
  have hName := loose_column hQuoted
  exact hName.tail (.word hName rfl rfl)

theorem loose_assignNull {name : String} {fragment : Fragment}
    (h : assignNull name = .ok fragment) : Loose fragment := by
  obtain ⟨quoted, hQuoted, h⟩ := bind_eq_ok.1 h
  rw [← pure_eq_ok.1 h]
  exact (loose_column hQuoted).tail (.final rfl (by decide))

theorem loose_conflictAssignments {upsert : Upsert}
    {target recordColumns : List String} {parts : List Fragment}
    (h : conflictAssignments table upsert target recordColumns = .ok parts) :
    ∀ part ∈ parts, Loose part := by
  unfold conflictAssignments at h
  split at h
  · refine loose_of_mapM (fun name fragment hName => ?_) h
    split at hName
    · exact loose_assignExcluded hName
    · exact loose_assignNull hName
  · exact loose_of_mapM (fun _ _ => loose_assignExcluded) h

theorem tail_conflictClause {upsert : Upsert} {recordColumns : List String}
    {fragment : Fragment}
    (h : conflictClause table upsert recordColumns = .ok fragment) :
    Tail fragment := by
  obtain ⟨target, -, h⟩ := bind_eq_ok.1 h
  obtain ⟨names, hNames, h⟩ := bind_eq_ok.1 h
  have hLead : Tail (.word .onConflict :: names) :=
    .word (loose_columnList hNames) rfl rfl
  split at h
  · rw [← pure_eq_ok.1 h]
    exact hLead.append (.final rfl (by decide))
  · obtain ⟨assignments, hAssignments, h⟩ := bind_eq_ok.1 h
    split at h
    · rw [← pure_eq_ok.1 h]
      exact hLead.append (.final rfl (by decide))
    · rw [← pure_eq_ok.1 h]
      have hParts := loose_conflictAssignments hAssignments
      exact hLead.append (.word (.commaList hParts) rfl rfl)

theorem tail_conflictPart {upsert : Option Upsert}
    {recordColumns : List String} {fragment : Fragment}
    (h : conflictPart table upsert recordColumns = .ok fragment) :
    Tail fragment := by
  cases upsert with
  | none =>
      rw [← Except.ok.inj h]
      exact .nil
  | some upsert => exact tail_conflictClause h

theorem loose_recordRow {columns : List String} {record : Fields}
    {fragment : Fragment} (h : recordRow table columns record = .ok fragment) :
    Loose fragment := by
  obtain ⟨values, -, h⟩ := bind_eq_ok.1 h
  rw [← pure_eq_ok.1 h]
  have hValues : Loose (commaList (values.map fun value => [.bind value])) := by
    refine .commaList fun part hPart => ?_
    obtain ⟨value, -, rfl⟩ := List.mem_map.1 hPart
    exact .bind value
  exact (hValues.word (by decide) rfl).tail (.final rfl (by decide))

theorem loose_insertInto {target : Piece} (hTarget : Loose [target])
    {rest : Fragment} (hRest : Tail rest) :
    Loose (.word .insertInto :: target :: rest) :=
  (hTarget.tail hRest).word (by decide) rfl

theorem loose_insertBatch {records : List Value} {upsert : Option Upsert}
    (h : insertBatch table records upsert = .ok s) : Loose s.pieces := by
  obtain ⟨target, hTarget, h⟩ := bind_eq_ok.1 h
  obtain ⟨-, h⟩ := of_check_eq_ok h
  obtain ⟨records, -, h⟩ := bind_eq_ok.1 h
  obtain ⟨columns, -, h⟩ := bind_eq_ok.1 h
  obtain ⟨rows, hRows, h⟩ := bind_eq_ok.1 h
  obtain ⟨names, hNames, h⟩ := bind_eq_ok.1 h
  obtain ⟨conflict, hConflict, h⟩ := bind_eq_ok.1 h
  obtain ⟨result, hResult, h⟩ := bind_eq_ok.1 h
  rw [← pure_eq_ok.1 h]
  have hColumns : Tail (.word .openColumns :: names) :=
    .word (loose_columnList hNames) rfl rfl
  have hValues : Tail (.word .values :: commaList rows) :=
    .word (.commaList (loose_of_mapM (fun _ _ => loose_recordRow) hRows)) rfl
      rfl
  exact ((loose_insertInto (loose_tablePiece hTarget) hColumns).tail
    hValues).tail (tail_conflictPart hConflict) |>.tail
    (tail_returning hResult)

theorem loose_insert {record : Fields} {upsert : Option Upsert}
    (h : insert table record upsert = .ok s) : Loose s.pieces := by
  unfold insert at h
  split at h
  · obtain ⟨target, hTarget, h⟩ := bind_eq_ok.1 h
    obtain ⟨conflict, hConflict, h⟩ := bind_eq_ok.1 h
    obtain ⟨result, hResult, h⟩ := bind_eq_ok.1 h
    rw [← pure_eq_ok.1 h]
    have hDefaults : Tail [.word .defaultValues] := .final rfl (by decide)
    exact ((loose_insertInto (loose_tablePiece hTarget) hDefaults).tail
      (tail_conflictPart hConflict)).tail (tail_returning hResult)
  · exact loose_insertBatch h

theorem loose_assignment {field : String × Value} {fragment : Fragment}
    (h : assignment table field = .ok fragment) : Loose fragment := by
  obtain ⟨name, hName, h⟩ := bind_eq_ok.1 h
  obtain ⟨value, -, h⟩ := bind_eq_ok.1 h
  rw [← pure_eq_ok.1 h]
  exact (loose_column hName).tail (.word (.bind value) rfl rfl)

theorem loose_updateWhere {target : Piece} (hTarget : Loose [target])
    {values : Fields} {filters : List Filter}
    (h : updateWhere table target values filters = .ok s) : Loose s.pieces := by
  unfold updateWhere at h
  obtain ⟨-, h⟩ := of_check_eq_ok h
  obtain ⟨-, -, h⟩ := bind_eq_ok.1 h
  obtain ⟨assignments, hAssignments, h⟩ := bind_eq_ok.1 h
  obtain ⟨wherePart, hWhere, h⟩ := bind_eq_ok.1 h
  obtain ⟨result, hResult, h⟩ := bind_eq_ok.1 h
  rw [← pure_eq_ok.1 h]
  have hParts := loose_of_mapM (fun _ _ => loose_assignment) hAssignments
  have hSet : Tail (.word .set :: commaList assignments) :=
    .word (.commaList hParts) rfl rfl
  exact (((hTarget.tail hSet).word (by decide) rfl).tail
    (tail_whereClause hWhere)).tail (tail_returning hResult)

theorem loose_update {values : Fields} {params : Params}
    (h : update table values params = .ok s) : Loose s.pieces := by
  obtain ⟨target, hTarget, h⟩ := bind_eq_ok.1 h
  obtain ⟨-, h⟩ := of_check_eq_ok h
  exact loose_updateWhere (loose_tablePiece hTarget) h

theorem loose_updateByKey {key : List Value} {values : Fields}
    (h : updateByKey table key values = .ok s) : Loose s.pieces := by
  obtain ⟨target, hTarget, h⟩ := bind_eq_ok.1 h
  obtain ⟨filters, -, h⟩ := bind_eq_ok.1 h
  exact loose_updateWhere (loose_tablePiece hTarget) h

theorem loose_deleteWhere {target : Piece} (hTarget : Loose [target])
    {filters : List Filter} (h : deleteWhere table target filters = .ok s) :
    Loose s.pieces := by
  obtain ⟨wherePart, hWhere, h⟩ := bind_eq_ok.1 h
  obtain ⟨result, hResult, h⟩ := bind_eq_ok.1 h
  rw [← pure_eq_ok.1 h]
  exact ((hTarget.word (by decide) rfl).tail (tail_whereClause hWhere)).tail
    (tail_returning hResult)

theorem loose_delete {params : Params} (h : delete table params = .ok s) :
    Loose s.pieces := by
  obtain ⟨target, hTarget, h⟩ := bind_eq_ok.1 h
  obtain ⟨-, h⟩ := of_check_eq_ok h
  exact loose_deleteWhere (loose_tablePiece hTarget) h

theorem loose_deleteByKey {key : List Value}
    (h : deleteByKey table key = .ok s) : Loose s.pieces := by
  obtain ⟨target, hTarget, h⟩ := bind_eq_ok.1 h
  obtain ⟨filters, -, h⟩ := bind_eq_ok.1 h
  exact loose_deleteWhere (loose_tablePiece hTarget) h

/-! ## Every statement -/

theorem Command.loose {command : Command}
    (h : command.statement table = .ok s) : Loose s.pieces := by
  cases command with
  | select params => exact loose_select h
  | count params => exact loose_count h
  | explain params => exact loose_explain h
  | selectByKey key params => exact loose_selectByKey h
  | insert record upsert => exact loose_insert h
  | insertBatch records upsert => exact loose_insertBatch h
  | update values params => exact loose_update h
  | updateByKey key values => exact loose_updateByKey h
  | delete params => exact loose_delete h
  | deleteByKey key => exact loose_deleteByKey h

end TableGate.Sql
