import TableGate.Proofs.Sql.Clauses
import TableGate.Proofs.Sql.Wording

/-!
# Writes have conditions

An UPDATE or DELETE touches every row unless its WHERE clause says otherwise.
`GuardedBy` says that it has such a clause: its conjuncts, read from the
statement itself, are those of a list of filters, none left out, and there is
at least one. `GuardedByKey` says the same of a key, with one test for each
column of the primary key.

A key column whose name may stand in a statement is tested under that name. Any
other name is read as a path, so it is another column that is tested, or a part
of its document. A table that lists its key columns has no such key column, as
the columns it lists are returned.

## Main results

* `update_guarded`, `delete_guarded`: batch writes are guarded by the filters
  of their request.
* `updateByKey_guarded`, `deleteByKey_guarded`: writes to one record are
  guarded by its key.
* `GuardedByKey.testsKey_iff`: when it is the key columns themselves that are
  tested.
-/

namespace TableGate.Sql

open TableGate.Filter (ConjunctsOf conjuncts)
open Result (bind_eq_ok of_check_eq_ok pure_eq_ok refuse_ne_ok)

/-- The conjuncts of a statement are those of a list of filters, each of them
rendered, and there is one. -/
def GuardedBy (filters : List Filter) (s : Statement) : Prop :=
  ∃ rendered found,
    (∀ (i : Nat) (f : Filter), filters[i]? = some f →
      filterFragment f = .ok (rendered i)) ∧
    ConjunctsOf filters found ∧ found ≠ [] ∧
    s.conjuncts? = some (found.map fun c => c.places.map rendered)

/-- The test of a column for a value: equality with the value, which is bound,
or the test for null. -/
inductive Tests (column : Fragment) : Value → Fragment → Prop
  | equal {value : Value} (h : value ≠ .null) :
      Tests column value (column ++ [.word (.compare .eq), .bind value])
  | isNull : Tests column .null (column ++ [.word .isNull])

/-- The test of a key column for a value, under its own name. -/
def KeyTest (part : String × Value) (test : Fragment) : Prop :=
  ∃ name : Identifier, name.text = part.1 ∧ Tests [.column name] part.2 test

/-- What is tested instead of a key column whose name may not stand in a
statement: what the name leads to as a path. -/
def PathTest (part : String × Value) (test : Fragment) : Prop :=
  isName part.1.toList = false ∧ ∃ path column,
    ColumnPath.ofColumn part.1 = .ok path ∧ pathFragment path = .ok column ∧
      Tests column part.2 test

/-- The condition for a key column and a value. -/
def IsKeyTest (part : String × Value) (test : Fragment) : Prop :=
  KeyTest part test ∨ PathTest part test

/-- The conjuncts of a statement are the tests of the primary key columns, one
for each column and in their order, and there is one. -/
def GuardedByKey (table : Table) (key : List Value) (s : Statement) : Prop :=
  table.primaryKey ≠ [] ∧ key.length = table.primaryKey.length ∧
    ∃ tests, List.Forall₂ IsKeyTest (table.primaryKey.zip key) tests ∧
      s.conjuncts? = some (tests.map fun test => [test])

/-- The conjuncts of a statement are the tests of the primary key columns
themselves. -/
def TestsKey (table : Table) (key : List Value) (s : Statement) : Prop :=
  ∃ tests, List.Forall₂ KeyTest (table.primaryKey.zip key) tests ∧
    s.conjuncts? = some (tests.map fun test => [test])

variable {table : Table} {s : Statement}

theorem IsKeyTest.keyTest {part : String × Value} {test : Fragment}
    (h : IsKeyTest part test) (hName : isName part.1.toList = true) :
    KeyTest part test := by
  rcases h with hOwn | ⟨hPath, -⟩
  · exact hOwn
  · rw [hName] at hPath
    exact absurd hPath (by decide)

/-- The key columns are tested under their own names if these may stand in a
statement, and only then. -/
theorem GuardedByKey.testsKey_iff {key : List Value}
    (h : GuardedByKey table key s) :
    TestsKey table key s ↔
      ∀ name ∈ table.primaryKey, isName name.toList = true := by
  obtain ⟨-, hLength, tests, hTests, hConjuncts⟩ := h
  constructor
  · rintro ⟨own, hOwn, -⟩ name hName
    rw [← List.map_fst_zip hLength.ge] at hName
    obtain ⟨part, hPart, rfl⟩ := List.mem_map.1 hName
    obtain ⟨test, -, id, hId, -⟩ :=
      Result.exists_of_mem_forall₂ hOwn.flip hPart
    rw [← hId]
    exact id.isName
  · intro hNames
    have hParts : ∀ part ∈ table.primaryKey.zip key,
        isName part.1.toList = true := fun part hPart =>
      hNames part.1 (List.of_mem_zip hPart).1
    refine ⟨tests, ?_, hConjuncts⟩
    exact ((List.forall₂_and_left _ _).2 ⟨hParts, hTests⟩).imp
      fun part test hBoth => hBoth.2.keyTest hBoth.1

/-! ## The clauses of writes -/

theorem madeOf_returning {fragment : Fragment}
    (h : returning table = .ok fragment) :
    ∃ names, MadeOf fragment [(.returning, names)] := by
  unfold returning at h
  split at h
  · rw [← pure_eq_ok.1 h]
    exact ⟨_, .one rfl (.one rfl)⟩
  · obtain ⟨names, hNames, h⟩ := bind_eq_ok.1 h
    rw [← pure_eq_ok.1 h]
    exact ⟨_, .one rfl (quiet_columnList hNames)⟩

/-- What a statement updates or deletes is said in its WHERE clause. -/
theorem clause?_of_write {lead : List (Word × Fragment)}
    {start wherePart result : Fragment} {filters : List Filter}
    (hStart : MadeOf start lead) (hLead : lead.lookup .whereAll = none)
    (hWhere : whereClause filters = .ok wherePart)
    (hResult : returning table = .ok result) :
    (⟨start ++ wherePart ++ result⟩ : Statement).clause? .whereAll =
      (whereClauses wherePart).lookup .whereAll := by
  obtain ⟨names, hNames⟩ := madeOf_returning hResult
  have hClauses := ((hStart.append (madeOf_whereClause hWhere)).append
    hNames).clausesOf_eq
  rw [Statement.clause?, hClauses, List.lookup_append, List.lookup_append,
    hLead]
  cases (whereClauses wherePart).lookup .whereAll <;> rfl

theorem updateWhere_clause {target : Piece} (hTarget : Quiet [target])
    {values : Fields} {filters : List Filter}
    (h : updateWhere table target values filters = .ok s) :
    ∃ wherePart, whereClause filters = .ok wherePart ∧
      s.clause? .whereAll = (whereClauses wherePart).lookup .whereAll := by
  unfold updateWhere at h
  obtain ⟨-, h⟩ := of_check_eq_ok h
  obtain ⟨-, -, h⟩ := bind_eq_ok.1 h
  obtain ⟨assignments, hAssignments, h⟩ := bind_eq_ok.1 h
  obtain ⟨wherePart, hWhere, h⟩ := bind_eq_ok.1 h
  obtain ⟨result, hResult, h⟩ := bind_eq_ok.1 h
  refine ⟨wherePart, hWhere, ?_⟩
  have hParts : Quiet (commaList assignments) := by
    refine .commaList fun part hPart => ?_
    obtain ⟨field, -, hField⟩ := Result.exists_of_mem_mapM hAssignments hPart
    obtain ⟨name, hName, hField⟩ := bind_eq_ok.1 hField
    obtain ⟨value, -, hField⟩ := bind_eq_ok.1 hField
    obtain ⟨quoted, rfl⟩ := column_eq_ok hName
    rw [← pure_eq_ok.1 hField]
    exact .cons rfl (.cons rfl (.one rfl))
  have hStart : MadeOf ([.word .update, target] ++
      .word .set :: commaList assignments)
        ([(.update, [target])] ++ [(.set, commaList assignments)]) :=
    (MadeOf.one rfl hTarget).append (.one rfl hParts)
  rw [← pure_eq_ok.1 h]
  exact clause?_of_write hStart rfl hWhere hResult

theorem deleteWhere_clause {target : Piece} (hTarget : Quiet [target])
    {filters : List Filter} (h : deleteWhere table target filters = .ok s) :
    ∃ wherePart, whereClause filters = .ok wherePart ∧
      s.clause? .whereAll = (whereClauses wherePart).lookup .whereAll := by
  obtain ⟨wherePart, hWhere, h⟩ := bind_eq_ok.1 h
  obtain ⟨result, hResult, h⟩ := bind_eq_ok.1 h
  refine ⟨wherePart, hWhere, ?_⟩
  have hStart : MadeOf [.word .deleteFrom, target] [(.deleteFrom, [target])] :=
    .one rfl hTarget
  rw [← pure_eq_ok.1 h]
  exact clause?_of_write hStart rfl hWhere hResult

/-! ## Batch writes -/

theorem guardedBy_of_whereClause {filters : List Filter} {part : Fragment}
    (hSome : filters ≠ []) (h : whereClause filters = .ok part)
    (hClause : s.clause? .whereAll = (whereClauses part).lookup .whereAll) :
    GuardedBy filters s := by
  have hFound := Filter.conjunctsOf_conjuncts filters
  refine ⟨_, _, (whereClause_eq_clauseOf h).2, hFound, ?_,
    conjuncts?_of_whereClause h hClause⟩
  rwa [ne_eq, hFound.eq_nil_iff]

/-- A batch update is guarded by the filters of its request. -/
theorem update_guarded {values : Fields} {params : Params}
    (h : update table values params = .ok s) : GuardedBy params.filters s := by
  obtain ⟨target, hTarget, h⟩ := bind_eq_ok.1 h
  obtain ⟨hSome, h⟩ := of_check_eq_ok h
  obtain ⟨part, hPart, hClause⟩ :=
    updateWhere_clause (quiet_tablePiece hTarget) h
  exact guardedBy_of_whereClause (by simpa using hSome) hPart hClause

/-- A batch delete is guarded by the filters of its request. -/
theorem delete_guarded {params : Params} (h : delete table params = .ok s) :
    GuardedBy params.filters s := by
  obtain ⟨target, hTarget, h⟩ := bind_eq_ok.1 h
  obtain ⟨hSome, h⟩ := of_check_eq_ok h
  obtain ⟨part, hPart, hClause⟩ :=
    deleteWhere_clause (quiet_tablePiece hTarget) h
  exact guardedBy_of_whereClause (by simpa using hSome) hPart hClause

/-! ## Writes to one record -/

/-- A filter value without parts stands for the value it was made of. -/
theorem toValue_of_ofValue {raw : Value} {value : FilterValue}
    (h : FilterValue.ofValue raw = .ok value)
    (hPlain : ∀ items, value ≠ .sequence items) : value.toValue = raw := by
  have hItems : ∀ items, FilterValue.ofItems items = .ok value → False := by
    intro items hSequence
    unfold FilterValue.ofItems at hSequence
    split at hSequence
    · exact hPlain _ (Except.ok.inj hSequence).symm
    · exact refuse_ne_ok hSequence
  unfold FilterValue.ofValue at h
  split at h
  case h_7 items => exact (hItems items h).elim
  case h_8 items => exact (hItems items h).elim
  case h_9 => exact absurd h refuse_ne_ok
  all_goals
    rw [← Except.ok.inj h]
    rfl

/-- The test of what a name leads to as a path is the condition for it. -/
theorem IsKeyTest.of_path {name : String} {value : Value} {path : ColumnPath}
    {column test : Fragment} (hPath : ColumnPath.ofColumn name = .ok path)
    (hColumn : pathFragment path = .ok column) (h : Tests column value test) :
    IsKeyTest (name, value) test := by
  by_cases hName : isName name.toList = true
  · obtain rfl := Except.ok.inj
      (hPath.symm.trans (Identifier.ofColumn_text ⟨name, hName⟩))
    obtain rfl := Except.ok.inj
      (hColumn.symm.trans (Identifier.pathFragment_text ⟨name, hName⟩))
    exact .inl ⟨⟨name, hName⟩, rfl, h⟩
  · exact .inr ⟨Bool.eq_false_of_not_eq_true hName, path, column, hPath,
      hColumn, h⟩

/-- The rendering of a key filter tests its column for its value. -/
theorem isKeyTest_of_filterFragment {name : String} {raw : Value}
    {value : FilterValue} (hValue : FilterValue.ofValue raw = .ok value)
    {fragment : Fragment}
    (h : filterFragment { column := name, operator := some .eq, value } =
      .ok fragment) : IsKeyTest (name, raw) fragment := by
  obtain ⟨path, hPath, h⟩ := bind_eq_ok.1 h
  obtain ⟨compared, hCompared, h⟩ := bind_eq_ok.1 h
  obtain ⟨column, hColumn, hCompared⟩ := bind_eq_ok.1 hCompared
  have hCast : (path.extractsText && Operator.eq.isNumeric) = false :=
    Bool.and_false _
  rw [hCast] at hCompared
  obtain rfl : column = compared := pure_eq_ok.1 hCompared
  cases value with
  | null =>
      have hNull : FilterValue.null.toValue = raw :=
        toValue_of_ofValue hValue (by simp)
      rw [← Except.ok.inj h, ← hNull]
      exact .of_path hPath hColumn .isNull
  | sequence items => exact absurd h refuse_ne_ok
  | _ =>
      have hRaw := toValue_of_ofValue hValue (by simp)
      rw [← Except.ok.inj h, ← hRaw]
      exact .of_path hPath hColumn (.equal (by simp [FilterValue.toValue]))

/-- The filter of a key column and a value. -/
def IsKeyFilter (part : String × Value) (f : Filter) : Prop :=
  ∃ value, FilterValue.ofValue part.2 = .ok value ∧
    f = { column := part.1, operator := some .eq, value }

theorem keyFilters_eq {key : List Value} {filters : List Filter}
    (h : keyFilters table key = .ok filters) :
    table.primaryKey ≠ [] ∧ key.length = table.primaryKey.length ∧
      List.Forall₂ IsKeyFilter (table.primaryKey.zip key) filters := by
  unfold keyFilters at h
  split at h
  · exact absurd h refuse_ne_ok
  · next hKey =>
      split at h
      · exact absurd h refuse_ne_ok
      · next hLength =>
          refine ⟨by simpa using hKey, by simpa using hLength,
            (Result.mapM_eq_ok.1 h).imp fun part f hPart => ?_⟩
          obtain ⟨value, hValue, hFilter⟩ := bind_eq_ok.1 hPart
          exact ⟨value, hValue, (pure_eq_ok.1 hFilter).symm⟩

/-- Key filters stand alone, and each is rendered as its test. -/
theorem keyTests_of_keyFilters {parts : List (String × Value)}
    {filters : List Filter} (hParts : List.Forall₂ IsKeyFilter parts filters)
    (hRendered : ∀ f ∈ filters, filterFragment f = .ok (renderedFilter f)) :
    (∀ f ∈ filters, f.isGrouped = false) ∧
      List.Forall₂ IsKeyTest parts (filters.map renderedFilter) := by
  induction hParts with
  | nil => exact ⟨fun f hf => absurd hf List.not_mem_nil, .nil⟩
  | @cons part f parts filters hFirst _ ih =>
      obtain ⟨hAlone, hTests⟩ := ih fun g hg =>
        hRendered g (List.mem_cons_of_mem _ hg)
      obtain ⟨value, hValue, rfl⟩ := hFirst
      have hTest := isKeyTest_of_filterFragment hValue
        (hRendered _ List.mem_cons_self)
      refine ⟨fun g hg => ?_, .cons hTest hTests⟩
      rcases List.mem_cons.1 hg with rfl | hLater
      · rfl
      · exact hAlone g hLater

theorem guardedByKey_of_whereClause {key : List Value} {filters : List Filter}
    (hFilters : keyFilters table key = .ok filters) {part : Fragment}
    (h : whereClause filters = .ok part)
    (hClause : s.clause? .whereAll = (whereClauses part).lookup .whereAll) :
    GuardedByKey table key s := by
  obtain ⟨hKey, hLength, hParts⟩ := keyFilters_eq hFilters
  have hRendered : ∀ f ∈ filters,
      filterFragment f = .ok (renderedFilter f) := by
    intro f hf
    obtain ⟨i, hAt⟩ := List.mem_iff_getElem?.1 hf
    rw [(whereClause_eq_clauseOf h).2 i f hAt, renderedAt_eq hAt]
  obtain ⟨hAlone, hTests⟩ := keyTests_of_keyFilters hParts hRendered
  have hConjuncts : (conjuncts filters).map (fun c =>
      c.places.map (renderedAt filters)) =
        (filters.map renderedFilter).map fun test => [test] := by
    rw [Filter.conjuncts_of_alone hAlone, List.map_map, List.map_map]
    conv_rhs => rw [← List.zipIdx_map_fst 0 filters, List.map_map]
    refine List.map_congr_left fun entry hEntry => ?_
    exact congrArg (fun test => [test])
      (renderedAt_eq (List.mem_zipIdx_iff_getElem?.1 hEntry))
  refine ⟨hKey, hLength, filters.map renderedFilter, hTests, ?_⟩
  rw [conjuncts?_of_whereClause h hClause, hConjuncts]

/-- An update of one record is guarded by its key. -/
theorem updateByKey_guarded {key : List Value} {values : Fields}
    (h : updateByKey table key values = .ok s) : GuardedByKey table key s := by
  obtain ⟨target, hTarget, h⟩ := bind_eq_ok.1 h
  obtain ⟨filters, hFilters, h⟩ := bind_eq_ok.1 h
  obtain ⟨part, hPart, hClause⟩ :=
    updateWhere_clause (quiet_tablePiece hTarget) h
  exact guardedByKey_of_whereClause hFilters hPart hClause

/-- A delete of one record is guarded by its key. -/
theorem deleteByKey_guarded {key : List Value}
    (h : deleteByKey table key = .ok s) : GuardedByKey table key s := by
  obtain ⟨target, hTarget, h⟩ := bind_eq_ok.1 h
  obtain ⟨filters, hFilters, h⟩ := bind_eq_ok.1 h
  obtain ⟨part, hPart, hClause⟩ :=
    deleteWhere_clause (quiet_tablePiece hTarget) h
  exact guardedByKey_of_whereClause hFilters hPart hClause

/-- A table whose records are updated lists columns with names of their own. -/
theorem updateWhere_columns {target : Piece} {values : Fields}
    {filters : List Filter}
    (h : updateWhere table target values filters = .ok s) :
    ∀ name ∈ table.columnNames, isName name.toList = true := by
  unfold updateWhere at h
  obtain ⟨-, h⟩ := of_check_eq_ok h
  obtain ⟨-, -, h⟩ := bind_eq_ok.1 h
  obtain ⟨assignments, -, h⟩ := bind_eq_ok.1 h
  obtain ⟨wherePart, -, h⟩ := bind_eq_ok.1 h
  obtain ⟨result, hResult, -⟩ := bind_eq_ok.1 h
  exact isName_of_returning hResult

theorem deleteWhere_columns {target : Piece} {filters : List Filter}
    (h : deleteWhere table target filters = .ok s) :
    ∀ name ∈ table.columnNames, isName name.toList = true := by
  obtain ⟨wherePart, -, h⟩ := bind_eq_ok.1 h
  obtain ⟨result, hResult, -⟩ := bind_eq_ok.1 h
  exact isName_of_returning hResult

/-- A table of which one record is written lists columns with names of their
own. -/
theorem isName_of_writeByKey {key : List Value} {values : Fields}
    (h : updateByKey table key values = .ok s ∨
      deleteByKey table key = .ok s) :
    ∀ name ∈ table.columnNames, isName name.toList = true := by
  rcases h with hUpdate | hDelete
  · obtain ⟨target, -, hUpdate⟩ := bind_eq_ok.1 hUpdate
    obtain ⟨filters, -, hUpdate⟩ := bind_eq_ok.1 hUpdate
    exact updateWhere_columns hUpdate
  · obtain ⟨target, -, hDelete⟩ := bind_eq_ok.1 hDelete
    obtain ⟨filters, -, hDelete⟩ := bind_eq_ok.1 hDelete
    exact deleteWhere_columns hDelete

end TableGate.Sql
