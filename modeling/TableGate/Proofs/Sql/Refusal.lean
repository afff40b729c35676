import TableGate.Proofs.Refusal
import TableGate.Proofs.Task

/-!
# Why a statement is not built

A statement is built, or the request is not valid. Two other things may go
wrong. A value that is bound as a document may have no document. And a value
that is tested against the keywords after IS, and is none of them, may have no
form that the message about it could show: an integer of too many digits, or a
list that holds one. Nothing else goes wrong before a statement is sent, so no
builder reports that a table or a record is missing.

Each theorem here speaks of any kind of failure that covers these, so that it
serves both where they may happen and where they may not.

## Main results

* `select_failsOnly`, `insert_failsOnly` and the like: a statement fails as the
  tests of its filters and the binding of its values do.
* `select_unbuilt` and the like: that covers all its failures.
-/

namespace TableGate

variable {α β : Type}

open Result (FailsOnly OnlyRefuses bind_eq_ok pure_eq_ok)

/-- Why a statement is not built: the request is not valid, a value has no
document, or a value that is refused cannot be shown. -/
inductive Unbuilt : Error → Prop
  | invalid (cause : Invalid) : Unbuilt (.invalid cause)
  | notWritable (fault : Json.WriteFault) :
      Unbuilt (.unexpected (.notWritable fault))
  | notShowable : Unbuilt (.unexpected .integerTooLong)

/-- The failure of a value that has no document. -/
def Error.IsUnwritable (e : Error) : Prop :=
  ∃ fault, e = .unexpected (.notWritable fault)

/-! ## Names and paths -/

theorem ColumnPath.ofColumn_onlyRefuses (column : String) :
    OnlyRefuses (ofColumn column) := by
  unfold ofColumn
  dsimp only
  split
  · exact .ok _
  · exact .refuse _

theorem baseColumn_onlyRefuses (column : String) :
    OnlyRefuses (baseColumn column) :=
  (ColumnPath.ofColumn_onlyRefuses column).bind fun _ => .ok _

theorem Params.checkColumn_onlyRefuses (table : Table) (column : String) :
    OnlyRefuses (checkColumn table column) := by
  unfold checkColumn
  split
  · exact .ok _
  · exact .refuse _

theorem Params.validate_onlyRefuses (params : Params) (table : Table) :
    OnlyRefuses (params.validate table) := by
  have hOperator : ∀ f, OnlyRefuses (checkOperator f) := by
    intro f
    unfold checkOperator
    split
    · exact .refuse _
    · exact .ok _
  have hPath : ∀ column, OnlyRefuses (checkPath table column) := by
    intro column
    refine (ColumnPath.ofColumn_onlyRefuses column).bind fun path => ?_
    split
    · exact .refuse _
    · exact .ok _
  have hNulls : ∀ entry, OnlyRefuses (checkNulls entry) := by
    intro entry
    unfold checkNulls
    split
    · exact .ok _
    · exact .refuse _
  exact (OnlyRefuses.forM hOperator _).bind fun _ =>
    (OnlyRefuses.mapM baseColumn_onlyRefuses _).bind fun _ =>
    (OnlyRefuses.forM (checkColumn_onlyRefuses table) _).bind fun _ =>
    (OnlyRefuses.forM hPath _).bind fun _ => OnlyRefuses.forM hNulls _

namespace Sql

theorem identifier_onlyRefuses (name : String) :
    OnlyRefuses (identifier name) := by
  unfold identifier
  split
  · exact .ok _
  · exact .refuse _

theorem column_onlyRefuses (name : String) : OnlyRefuses (column name) :=
  (identifier_onlyRefuses name).bind fun _ => .ok _

theorem columnList_onlyRefuses (names : List String) :
    OnlyRefuses (columnList names) :=
  (OnlyRefuses.mapM column_onlyRefuses names).bind fun _ => .ok _

theorem pathFragment_onlyRefuses (path : ColumnPath) :
    OnlyRefuses (pathFragment path) :=
  (column_onlyRefuses path.base).bind fun _ => .ok _

theorem tablePiece_onlyRefuses (table : Table) :
    OnlyRefuses (tablePiece table) :=
  (identifier_onlyRefuses _).bind fun _ =>
    (identifier_onlyRefuses _).bind fun _ => .ok _

/-! ## Conditions -/

/-- A value that cannot be shown is tested against the keywords. -/
def TestsUnshown (filters : List Filter) : Prop :=
  ∃ f ∈ filters, f.operator = some .is ∧ f.value.toValue.isShowable = false

theorem TestsUnshown.mono {filters others : List Filter}
    (h : TestsUnshown filters) (hSubset : filters ⊆ others) :
    TestsUnshown others := by
  obtain ⟨f, hMem, hTest⟩ := h
  exact ⟨f, hSubset hMem, hTest⟩

theorem isWord_failsOnly {P : Error → Prop}
    (hInvalid : ∀ cause, P (.invalid cause)) {value : FilterValue}
    (hUnshown : value.toValue.isShowable = false →
      P (.unexpected .integerTooLong)) : FailsOnly P (isWord value) := by
  have hNone : P (noKeyword value.toValue) := by
    unfold noKeyword
    split
    · exact hInvalid _
    · next hHidden => exact hUnshown (Bool.eq_false_iff.2 hHidden)
  unfold isWord
  split
  case h_4 =>
    split
    · exact .ok _
    · exact .error hNone
  case h_5 => exact .error hNone
  all_goals exact .ok _

theorem comparison_onlyRefuses (f : Filter) (operator : Operator)
    (column : Fragment) : OnlyRefuses (comparison f operator column) := by
  unfold comparison
  split
  · split
    · exact .ok _
    · split
      · exact .ok _
      · exact .refuse _
  · exact .refuse _
  · exact .ok _

theorem comparedColumn_onlyRefuses (path : ColumnPath) (operator : Operator) :
    OnlyRefuses (comparedColumn path operator) :=
  (pathFragment_onlyRefuses path).bind fun _ => by
    split
    · exact .ok _
    · exact .ok _

section Filters

variable {P : Error → Prop} (hInvalid : ∀ cause, P (.invalid cause))

include hInvalid

theorem filterFragment_failsOnly {f : Filter}
    (hUnshown : TestsUnshown [f] → P (.unexpected .integerTooLong)) :
    FailsOnly P (filterFragment f) := by
  unfold filterFragment
  split
  · exact .error (hInvalid _)
  · next operator hOperator =>
    refine ((ColumnPath.ofColumn_onlyRefuses _).failsOnly hInvalid).bind
      fun path => ((comparedColumn_onlyRefuses path _).failsOnly
        hInvalid).bind fun column => ?_
    split
    · refine (isWord_failsOnly hInvalid fun hHidden => hUnshown ?_).bind
        fun _ => .ok _
      exact ⟨f, List.mem_cons_self, hOperator, hHidden⟩
    · split
      · exact .error (hInvalid _)
      · exact .ok _
      · exact .ok _
    · exact (comparison_onlyRefuses f _ column).failsOnly hInvalid

theorem whereClause_failsOnly {filters : List Filter}
    (hUnshown : TestsUnshown filters → P (.unexpected .integerTooLong)) :
    FailsOnly P (whereClause filters) := by
  have hFilter : ∀ f ∈ filters, FailsOnly P (filterFragment f) :=
    fun f hf => filterFragment_failsOnly hInvalid fun hTest =>
      hUnshown (hTest.mono (List.cons_subset.2 ⟨hf, List.nil_subset _⟩))
  have hCondition : ∀ c ∈ Filter.conditions filters,
      FailsOnly P (conditionFragment c) := by
    intro c hc
    have hMembers := Filter.mem_of_mem_conditionsFrom
      (List.Subset.refl filters) hc
    cases c with
    | single f => exact hFilter f (hMembers f List.mem_cons_self)
    | anyOf members =>
        exact (FailsOnly.mapM_of_mem fun f hf =>
          hFilter f (hMembers f hf)).bind fun _ => .ok _
  refine (FailsOnly.mapM_of_mem hCondition).bind fun parts => ?_
  split
  · exact .ok _
  · exact .ok _

end Filters

/-- The tests of a request with a cursor are those of the request. -/
theorem TestsUnshown.of_keysetFilters {params : Params} {filters : List Filter}
    (h : keysetFilters params = .ok filters) (hTest : TestsUnshown filters) :
    TestsUnshown params.filters := by
  unfold keysetFilters at h
  split at h
  · rwa [pure_eq_ok.1 h]
  · obtain ⟨value, -, h⟩ := bind_eq_ok.1 h
    rw [← pure_eq_ok.1 h] at hTest
    obtain ⟨f, hMem, hOperator, hHidden⟩ := hTest
    rcases List.mem_append.1 hMem with hOwn | hAdded
    · exact ⟨f, hOwn, hOperator, hHidden⟩
    · rw [List.mem_singleton.1 hAdded] at hOperator
      dsimp only at hOperator
      split at hOperator <;> cases hOperator

/-- A key is not tested against keywords. -/
theorem not_testsUnshown_of_keyFilters {table : Table} {key : List Value}
    {filters : List Filter} (h : keyFilters table key = .ok filters) :
    ¬TestsUnshown filters := by
  rintro ⟨f, hMem, hOperator, -⟩
  unfold keyFilters at h
  split at h
  · cases h
  split at h
  · cases h
  obtain ⟨part, -, hPart⟩ := Result.exists_of_mem_mapM h hMem
  obtain ⟨value, -, hPart⟩ := bind_eq_ok.1 hPart
  rw [← pure_eq_ok.1 hPart] at hOperator
  cases hOperator

theorem keyFilters_onlyRefuses (table : Table) (key : List Value) :
    OnlyRefuses (keyFilters table key) := by
  unfold keyFilters
  split
  · exact .refuse _
  · split
    · exact .refuse _
    · exact OnlyRefuses.mapM (fun _ =>
        (FilterValue.ofValue_onlyRefuses _).bind fun _ => .ok _) _

/-! ## Statements that read -/

theorem selectList_onlyRefuses (params : Params) :
    OnlyRefuses (selectList params) := by
  have hColumn : ∀ name, OnlyRefuses (selectColumn name) := by
    intro name
    refine (ColumnPath.ofColumn_onlyRefuses name).bind fun path => ?_
    split
    · exact (pathFragment_onlyRefuses path).bind fun _ =>
        (identifier_onlyRefuses _).bind fun _ => .ok _
    · exact (column_onlyRefuses name).bind fun _ => .ok _
  have hAggregate : ∀ a, OnlyRefuses (selectAggregate a) := by
    rintro ⟨function, argument, label⟩
    cases argument with
    | none => exact (identifier_onlyRefuses _).bind fun _ => .ok _
    | some name =>
        exact (column_onlyRefuses name).bind fun _ =>
          (identifier_onlyRefuses _).bind fun _ => .ok _
  refine (OnlyRefuses.mapM hColumn _).bind fun columns =>
    (OnlyRefuses.mapM hAggregate _).bind fun aggregates => ?_
  split
  · exact .ok _
  · exact .ok _

theorem groupClause_onlyRefuses (columns : List String) :
    OnlyRefuses (groupClause columns) := by
  unfold groupClause
  split
  · exact .ok _
  · exact (columnList_onlyRefuses columns).bind fun _ => .ok _

theorem orderClause_onlyRefuses (order : List OrderBy) :
    OnlyRefuses (orderClause order) := by
  have hNulls : ∀ token, OnlyRefuses (nullsWords token) := by
    intro token
    unfold nullsWords
    split
    · exact .ok _
    · split
      · exact .ok _
      · split
        · exact .ok _
        · exact .refuse _
  have hEntry : ∀ entry, OnlyRefuses (orderEntry entry) := fun entry =>
    (hNulls _).bind fun _ => (ColumnPath.ofColumn_onlyRefuses _).bind
      fun path => (pathFragment_onlyRefuses path).bind fun _ => .ok _
  unfold orderClause
  split
  · exact .ok _
  · exact (OnlyRefuses.mapM hEntry order).bind fun _ => .ok _

theorem keysetFilters_onlyRefuses (params : Params) :
    OnlyRefuses (keysetFilters params) := by
  unfold keysetFilters
  split
  · exact .ok _
  · exact (FilterValue.ofValue_onlyRefuses _).bind fun _ => .ok _

theorem returning_onlyRefuses (table : Table) :
    OnlyRefuses (returning table) := by
  unfold returning
  split
  · exact .ok _
  · exact (columnList_onlyRefuses _).bind fun _ => .ok _

section Filters

variable {P : Error → Prop} (hInvalid : ∀ cause, P (.invalid cause))
  (table : Table) {params : Params}

include hInvalid

theorem select_failsOnly
    (hUnshown : TestsUnshown params.filters →
      P (.unexpected .integerTooLong)) : FailsOnly P (select table params) :=
  ((tablePiece_onlyRefuses table).failsOnly hInvalid).bind fun _ =>
    ((selectList_onlyRefuses params).failsOnly hInvalid).bind fun _ =>
    ((keysetFilters_onlyRefuses params).failsOnly hInvalid).bind_of_eq
      fun _ hFilters =>
    (whereClause_failsOnly hInvalid fun hTest =>
      hUnshown (hTest.of_keysetFilters hFilters)).bind fun _ =>
    ((groupClause_onlyRefuses _).failsOnly hInvalid).bind fun _ =>
    ((orderClause_onlyRefuses _).failsOnly hInvalid).bind fun _ => .ok _

theorem count_failsOnly
    (hUnshown : TestsUnshown params.filters →
      P (.unexpected .integerTooLong)) : FailsOnly P (count table params) := by
  refine ((tablePiece_onlyRefuses table).failsOnly hInvalid).bind fun _ =>
    (whereClause_failsOnly hInvalid hUnshown).bind fun _ => ?_
  split
  · exact .ok _
  · exact ((groupClause_onlyRefuses _).failsOnly hInvalid).bind fun _ => .ok _

theorem explain_failsOnly
    (hUnshown : TestsUnshown params.filters →
      P (.unexpected .integerTooLong)) :
    FailsOnly P (explain table params) := by
  have hUnpaged : FailsOnly P (select table params.unpaged) :=
    select_failsOnly hInvalid table hUnshown
  exact hUnpaged.bind fun _ => .ok _

theorem selectByKey_failsOnly (key : List Value)
    (hUnshown : TestsUnshown params.filters →
      P (.unexpected .integerTooLong)) :
    FailsOnly P (selectByKey table key params) := by
  refine ((tablePiece_onlyRefuses table).failsOnly hInvalid).bind fun _ =>
    ((selectList_onlyRefuses params).failsOnly hInvalid).bind fun _ =>
    ((keyFilters_onlyRefuses table key).failsOnly hInvalid).bind_of_eq
      fun filters hFilters =>
    (whereClause_failsOnly hInvalid fun hTest => ?_).bind fun _ => .ok _
  obtain ⟨f, hMem, hRest⟩ := hTest
  rcases List.mem_append.1 hMem with hKey | hOwn
  · exact absurd ⟨f, hKey, hRest⟩ (not_testsUnshown_of_keyFilters hFilters)
  · exact hUnshown ⟨f, hOwn, hRest⟩

/-! ## Statements that delete -/

theorem deleteWhere_failsOnly (target : Piece) {filters : List Filter}
    (hUnshown : TestsUnshown filters → P (.unexpected .integerTooLong)) :
    FailsOnly P (deleteWhere table target filters) :=
  (whereClause_failsOnly hInvalid hUnshown).bind fun _ =>
    ((returning_onlyRefuses table).failsOnly hInvalid).bind fun _ => .ok _

theorem delete_failsOnly
    (hUnshown : TestsUnshown params.filters →
      P (.unexpected .integerTooLong)) : FailsOnly P (delete table params) :=
  ((tablePiece_onlyRefuses table).failsOnly hInvalid).bind fun _ =>
    .check (hInvalid _) fun _ =>
      deleteWhere_failsOnly hInvalid table _ hUnshown

theorem deleteByKey_failsOnly (key : List Value) :
    FailsOnly P (deleteByKey table key) :=
  ((tablePiece_onlyRefuses table).failsOnly hInvalid).bind fun _ =>
    ((keyFilters_onlyRefuses table key).failsOnly hInvalid).bind_of_eq
      fun _ hFilters => deleteWhere_failsOnly hInvalid table _ fun hTest =>
        absurd hTest (not_testsUnshown_of_keyFilters hFilters)

end Filters

/-! ## Statements with values -/

/-- A value is bound, unless it is bound as a document and has none. -/
theorem boundValue_unwritable (table : Table) (column : String)
    (value : Value) :
    FailsOnly Error.IsUnwritable (boundValue table column value) := by
  have hDocument : ∀ value, FailsOnly Error.IsUnwritable (document value) := by
    intro value
    refine FailsOnly.bind ?_ fun _ => .ok _
    unfold encodeDocument
    split
    · exact .ok _
    · exact .error ⟨_, rfl⟩
  unfold boundValue
  split
  · exact hDocument _
  · split
    · exact hDocument _
    · exact .ok _
  · exact .ok _

theorem boundValue_unbuilt (table : Table) (column : String) (value : Value) :
    FailsOnly Unbuilt (boundValue table column value) := by
  refine (boundValue_unwritable table column value).mono ?_
  rintro e ⟨fault, rfl⟩
  exact .notWritable fault

/-- A value with a document is bound. -/
theorem exists_boundValue {value : Value}
    (h : value.writeFault? .spaced = none) (table : Table) (column : String) :
    ∃ bound, boundValue table column value = .ok bound := by
  have hDocument : ∃ bound, document value = .ok bound := by
    refine ⟨.text (Json.write .spaced value), ?_⟩
    rw [document, encodeDocument, Json.encode_eq_ok_iff.2 ⟨h, rfl⟩]
    rfl
  unfold boundValue
  split
  · exact hDocument
  · split
    · exact hDocument
    · exact ⟨_, rfl⟩
  · exact ⟨_, rfl⟩

/-- In whatever column they are bound, the values of a record fail only in a
certain way. -/
def BindsIn (P : Error → Prop) (table : Table) (record : Fields) : Prop :=
  ∀ field ∈ record, ∀ column, FailsOnly P (boundValue table column field.2)

theorem BindsIn.unbuilt (table : Table) (record : Fields) :
    BindsIn Unbuilt table record :=
  fun _ _ column => boundValue_unbuilt table column _

/-- Values with a document do not fail. -/
theorem BindsIn.of_fieldsFault? {P : Error → Prop} {record : Fields}
    (h : ∀ field ∈ record, field.2.writeFault? .spaced = none)
    (table : Table) : BindsIn P table record := by
  intro field hField column
  obtain ⟨bound, hBound⟩ := exists_boundValue (h field hField) table column
  rw [hBound]
  exact .ok bound

theorem conflictPart_onlyRefuses (table : Table) (upsert : Option Upsert)
    (recordColumns : List String) :
    OnlyRefuses (conflictPart table upsert recordColumns) := by
  have hTarget : ∀ names, OnlyRefuses (table.conflictTarget names) := by
    intro names
    unfold Table.conflictTarget
    split
    · split
      · exact .refuse _
      · exact .ok _
    · split
      · exact .refuse _
      · exact .ok _
  have hExcluded : ∀ name, OnlyRefuses (assignExcluded name) := fun name =>
    (column_onlyRefuses name).bind fun _ => .ok _
  have hNull : ∀ name, OnlyRefuses (assignNull name) := fun name =>
    (column_onlyRefuses name).bind fun _ => .ok _
  have hAssignments : ∀ upsert target,
      OnlyRefuses (conflictAssignments table upsert target recordColumns) := by
    intro upsert target
    unfold conflictAssignments
    dsimp only
    split
    · refine OnlyRefuses.mapM (fun name => ?_) _
      split
      · exact hExcluded name
      · exact hNull name
    · exact OnlyRefuses.mapM hExcluded _
  cases upsert with
  | none => exact .ok _
  | some upsert =>
      refine (hTarget _).bind fun target =>
        (columnList_onlyRefuses target).bind fun names => ?_
      split
      · exact .ok _
      · refine (hAssignments upsert target).bind fun parts => ?_
        split
        · exact .ok _
        · exact .ok _

theorem batchColumns_onlyRefuses (table : Table) (records : List Fields) :
    OnlyRefuses (batchColumns table records) := by
  have hRecord : ∀ columns index record,
      OnlyRefuses (checkRecord table columns index record) := by
    intro columns index record
    unfold checkRecord
    split
    · exact .ok _
    · split
      · exact .refuse _
      · exact .refuse _
  cases records with
  | nil => exact .refuse _
  | cons first rest =>
      unfold batchColumns
      exact .check _ fun _ =>
        (OnlyRefuses.forM (Params.checkColumn_onlyRefuses table) _).bind
          fun _ => (OnlyRefuses.forM (fun _ => hRecord _ _ _) _).bind
            fun _ => .ok _

theorem recordRow_failsOnly {P : Error → Prop} {table : Table}
    {record : Fields} (h : BindsIn P table record) (columns : List String) :
    FailsOnly P (recordRow table columns record) := by
  refine (FailsOnly.mapM (fun name => ?_) columns).bind fun _ => .ok _
  cases hField : record.get? name with
  | none => exact .ok Value.null
  | some value =>
      obtain ⟨field, hFound, rfl⟩ := Option.map_eq_some_iff.1 hField
      exact h field (List.mem_of_find?_eq_some hFound) name

theorem recordFields_onlyRefuses (records : List Value) :
    OnlyRefuses (recordFields records) := by
  refine OnlyRefuses.mapM (fun record => ?_) records
  split
  · exact .ok _
  · exact .refuse _

/-- The fields of a batch are those of its objects. -/
theorem object_mem_of_recordFields {records : List Value}
    {found : List Fields} (h : recordFields records = .ok found)
    {record : Fields} (hRecord : record ∈ found) :
    .object record ∈ records := by
  obtain ⟨value, hValue, hFields⟩ := Result.exists_of_mem_mapM h hRecord
  split at hFields
  · rwa [← Except.ok.inj hFields]
  · exact absurd hFields Result.refuse_ne_ok

section Values

variable {P : Error → Prop} {table : Table}
  (hInvalid : ∀ cause, P (.invalid cause))

include hInvalid

theorem insertBatch_failsOnly {records : List Value}
    (h : ∀ record, .object record ∈ records → BindsIn P table record)
    (upsert : Option Upsert) :
    FailsOnly P (insertBatch table records upsert) := by
  refine ((tablePiece_onlyRefuses table).failsOnly hInvalid).bind fun _ =>
    .check (hInvalid .emptyBatch) fun _ =>
    ((recordFields_onlyRefuses records).failsOnly hInvalid).bind_of_eq
      fun found hFound => ?_
  have hRows : ∀ columns, FailsOnly P (found.mapM (recordRow table columns)) :=
    fun columns => FailsOnly.mapM_of_mem fun record hRecord =>
      recordRow_failsOnly (h record (object_mem_of_recordFields hFound hRecord))
        columns
  exact ((batchColumns_onlyRefuses table found).failsOnly hInvalid).bind
    fun columns => (hRows columns).bind fun _ =>
    ((columnList_onlyRefuses columns).failsOnly hInvalid).bind fun _ =>
    ((conflictPart_onlyRefuses table upsert columns).failsOnly hInvalid).bind
      fun _ => ((returning_onlyRefuses table).failsOnly hInvalid).bind
        fun _ => .ok _

theorem insert_failsOnly {record : Fields} (h : BindsIn P table record)
    (upsert : Option Upsert) : FailsOnly P (insert table record upsert) := by
  unfold insert
  split
  · exact ((tablePiece_onlyRefuses table).bind fun _ =>
      (conflictPart_onlyRefuses table upsert []).bind fun _ =>
      (returning_onlyRefuses table).bind fun _ => .ok _).failsOnly hInvalid
  · refine insertBatch_failsOnly hInvalid (fun other hOther => ?_) upsert
    obtain rfl := Value.object.inj (List.mem_singleton.1 hOther)
    exact h

theorem updateWhere_failsOnly {values : Fields} (h : BindsIn P table values)
    (target : Piece) {filters : List Filter}
    (hUnshown : TestsUnshown filters → P (.unexpected .integerTooLong)) :
    FailsOnly P (updateWhere table target values filters) := by
  have hAssignment : ∀ field ∈ values,
      FailsOnly P (assignment table field) := fun field hField =>
    ((column_onlyRefuses field.1).failsOnly hInvalid).bind fun _ =>
      (h field hField field.1).bind fun _ => .ok _
  unfold updateWhere
  exact .check (hInvalid .noFields) fun _ =>
    ((OnlyRefuses.forM (Params.checkColumn_onlyRefuses table) _).failsOnly
      hInvalid).bind fun _ => (FailsOnly.mapM_of_mem hAssignment).bind fun _ =>
      (whereClause_failsOnly hInvalid hUnshown).bind fun _ =>
      ((returning_onlyRefuses table).failsOnly hInvalid).bind fun _ => .ok _

theorem update_failsOnly {values : Fields} (h : BindsIn P table values)
    {params : Params}
    (hUnshown : TestsUnshown params.filters →
      P (.unexpected .integerTooLong)) :
    FailsOnly P (update table values params) :=
  ((tablePiece_onlyRefuses table).failsOnly hInvalid).bind fun _ =>
    .check (hInvalid .updateWithoutFilter) fun _ =>
      updateWhere_failsOnly hInvalid h _ hUnshown

theorem updateByKey_failsOnly {values : Fields} (h : BindsIn P table values)
    (key : List Value) : FailsOnly P (updateByKey table key values) :=
  ((tablePiece_onlyRefuses table).failsOnly hInvalid).bind fun _ =>
    ((keyFilters_onlyRefuses table key).failsOnly hInvalid).bind_of_eq
      fun _ hFilters => updateWhere_failsOnly hInvalid h _ fun hTest =>
        absurd hTest (not_testsUnshown_of_keyFilters hFilters)

end Values

/-! ## All failures -/

theorem select_unbuilt (table : Table) (params : Params) :
    FailsOnly Unbuilt (select table params) :=
  select_failsOnly .invalid table fun _ => .notShowable

theorem selectByKey_unbuilt (table : Table) (key : List Value)
    (params : Params) : FailsOnly Unbuilt (selectByKey table key params) :=
  selectByKey_failsOnly .invalid table key fun _ => .notShowable

theorem update_unbuilt (table : Table) (values : Fields) (params : Params) :
    FailsOnly Unbuilt (update table values params) :=
  update_failsOnly .invalid (.unbuilt table values) fun _ => .notShowable

theorem updateByKey_unbuilt (table : Table) (key : List Value)
    (values : Fields) : FailsOnly Unbuilt (updateByKey table key values) :=
  updateByKey_failsOnly .invalid (.unbuilt table values) key

theorem delete_unbuilt (table : Table) (params : Params) :
    FailsOnly Unbuilt (delete table params) :=
  delete_failsOnly .invalid table fun _ => .notShowable

theorem deleteByKey_unbuilt (table : Table) (key : List Value) :
    FailsOnly Unbuilt (deleteByKey table key) :=
  deleteByKey_failsOnly .invalid table key

end Sql

/-! ## The statements of an operation -/

namespace Engine

open Sql (Builder TestsUnshown)

section Values

variable {P : Error → Prop} (hInvalid : ∀ cause, P (.invalid cause))
  (table : Table)

include hInvalid

theorem countPlan_failsOnly {params : Params}
    (hUnshown : TestsUnshown params.filters →
      P (.unexpected .integerTooLong)) (count : CountType) :
    FailsOnly P (countPlan table params count) := by
  have hCount : FailsOnly P (Builder.count table params) := by
    rw [Builder.count_eq]
    exact (Sql.count_failsOnly hInvalid table hUnshown).map _
  have hExplain : FailsOnly P (Builder.explain table params) := by
    rw [Builder.explain_eq]
    exact (Sql.explain_failsOnly hInvalid table hUnshown).map _
  cases count with
  | exact => exact hCount.bind fun _ => .ok _
  | planned => exact hExplain.bind fun _ => .ok _
  | estimated => exact hCount.bind fun _ => hExplain.bind fun _ => .ok _

theorem insertion_failsOnly {body : Value}
    (hObject : ∀ record, body = .object record → Sql.BindsIn P table record)
    (hList : ∀ records record, body = .list records →
      .object record ∈ records → Sql.BindsIn P table record)
    (upsert : Option Upsert) :
    FailsOnly P (insertion table body upsert) := by
  refine ((Sql.tablePiece_onlyRefuses table).failsOnly hInvalid).bind
    fun _ => ?_
  split
  · exact Sql.insert_failsOnly hInvalid (hObject _ rfl) upsert
  · exact Sql.insertBatch_failsOnly hInvalid
      (fun record hRecord => hList _ record rfl hRecord) upsert
  · exact .error (hInvalid _)

end Values

theorem insertion_unbuilt (table : Table) (body : Value)
    (upsert : Option Upsert) :
    FailsOnly Unbuilt (insertion table body upsert) :=
  insertion_failsOnly .invalid table (fun _ _ => .unbuilt table _)
    (fun _ _ _ _ => .unbuilt table _) upsert

end Engine
end TableGate
