import TableGate.Proofs.Sql.Clause
import TableGate.Proofs.Sql.Keyset
import TableGate.Proofs.Sql.Refusal
import TableGate.Proofs.Sql.Totals
import TableGate.Proofs.Sql.Wording

/-!
# Which requests are selected

A request is checked against the table first, and its SELECT is built after
that. The check settles which names and which operators may be used. What is
left to the builder are the names that are quoted as they are written, the
values that operators are given, and the position of a cursor. `Selectable`
lists what it asks of them; it asks nothing else.

Where something else was asked for, the request is not valid. Only a value that
is tested against the keywords of IS and holds an integer with too many digits
goes wrong in another way: the refusal quotes it.

## Main results

* `exists_filterFragment_iff`: a filter is rendered exactly when its value fits
  its operator.
* `exists_selectList_iff`, `exists_groupClause_iff`: which lists of columns are
  rendered.
* `selects_exactly`: a request that passes the check is selected exactly when it
  is selectable, and is not valid otherwise.
* `selects_not_exactly`: a test that is not refused in that way, and a keyword
  that is one only without regard to case.
-/

namespace TableGate

open Result (OnlyRefuses bind_eq_ok pure_eq_ok refuse_ne_ok)

variable {table : Table} {params : Params}

/-! ## What the builder asks for -/

/-- The values that IS tests for: null, a truth value, or a text that names one
of them, with or without a negation. -/
inductive FilterValue.IsTested : FilterValue → Prop
  | null : IsTested .null
  | bool (b : Bool) : IsTested (.bool b)
  | word {s : String} (h : Text.lower (Text.trim s) ∈
      ["null", "notnull", "not_null", "true", "false"]) : IsTested (.text s)

/-- Whether a value may stand after an operator. -/
def FilterValue.Fits (value : FilterValue) : Operator → Prop
  | .is => value.IsTested
  | .in => value.kind ≠ "null"
  | .eq | .neq => value.kind ≠ "sequence"
  | _ => value.kind ≠ "null" ∧ value.kind ≠ "sequence"

/-- A text, a number or a truth value. -/
def Value.IsSingle : Value → Prop
  | .scalar (.text _) | .scalar (.int _) | .scalar (.float _)
  | .scalar (.decimal _) | .scalar (.bool _) => True
  | _ => False

/-- A column that is written without steps. -/
def ColumnPath.IsPlain (name : String) : Prop :=
  ∃ base, ofColumn name = .ok ⟨base, []⟩

/-- What the SELECT of a request is built from, as far as the check of the
request leaves it open. -/
structure Params.Selectable (params : Params) : Prop where
  aggregates : ∀ a ∈ params.aggregations, ∀ name, a.column = some name →
    ColumnPath.IsPlain name
  groups : ∀ name ∈ params.groupBy, ColumnPath.IsPlain name
  labels : ∀ a ∈ params.aggregations,
    a.label = "" ∨ isName a.label.toList = true
  values : ∀ f ∈ params.filters, ∀ operator, f.operator = some operator →
    f.value.Fits operator
  position : ∀ cursor, params.cursor = some cursor → cursor.value.IsSingle

/-! ## Columns that passed the check -/

/-- A column that may stand in a statement: it starts from a name. -/
def ColumnPath.IsNamed (name : String) : Prop :=
  ∃ path, ofColumn name = .ok path ∧ isName path.base.toList = true

/-- Where a column is mentioned. -/
theorem Params.mem_mentioned_iff {name : String} :
    name ∈ params.mentioned ↔
      name ∈ params.select.filter (· != "*") ∨
      (∃ a ∈ params.aggregations, a.column = some name) ∨
      (∃ f ∈ params.filters, f.column = name) ∨
      (∃ entry ∈ params.order, entry.column = name) ∨
      name ∈ params.groupBy ∨ params.keysetColumn = some name := by
  simp only [mentioned, List.mem_append, List.mem_filterMap, List.mem_map,
    Option.mem_toList, or_assoc]

/-- The columns of a request that passes the check start from names. -/
theorem Params.isNamed_of_validate (hTable : table.IsNamed)
    (h : params.validate table = .ok ()) :
    ∀ name ∈ params.mentioned, ColumnPath.IsNamed name := by
  intro name hName
  have hWithin := within_of_validate h name hName
  obtain ⟨-, -, h⟩ := bind_eq_ok.1 h
  obtain ⟨columns, hColumns, -⟩ := bind_eq_ok.1 h
  obtain ⟨base, -, hBase⟩ :=
    Result.exists_of_mem_forall₂ (Result.mapM_eq_ok.1 hColumns).flip hName
  have hKnown := hWithin base hBase
  obtain ⟨path, hPath, hSame⟩ := bind_eq_ok.1 hBase
  refine ⟨path, hPath, hTable.columns _ ?_⟩
  rwa [pure_eq_ok.1 hSame]

/-- The filters of a request that passes the check have operators. -/
theorem Params.exists_operator_of_validate
    (h : params.validate table = .ok ()) :
    ∀ f ∈ params.filters, ∃ operator, f.operator = some operator := by
  intro f hf
  obtain ⟨⟨⟩, hOperators, -⟩ := bind_eq_ok.1 h
  have hCheck := Result.forM_eq_ok.1 hOperators f hf
  unfold checkOperator at hCheck
  split at hCheck
  · exact absurd hCheck refuse_ne_ok
  · next hSome => exact Option.ne_none_iff_exists'.1 (by simpa using hSome)

/-- The words for nulls of a request that passes the check have a meaning. -/
theorem Params.isNullsOrdering_of_validate
    (h : params.validate table = .ok ()) :
    ∀ entry ∈ params.order, isNullsOrdering entry.nulls = true := by
  intro entry hEntry
  obtain ⟨-, -, h⟩ := bind_eq_ok.1 h
  obtain ⟨columns, -, h⟩ := bind_eq_ok.1 h
  obtain ⟨-, -, h⟩ := bind_eq_ok.1 h
  obtain ⟨-, -, h⟩ := bind_eq_ok.1 h
  have hCheck := Result.forM_eq_ok.1 h entry hEntry
  unfold checkNulls at hCheck
  split at hCheck
  · next hNulls => exact hNulls
  · exact absurd hCheck refuse_ne_ok

namespace Sql

/-! ## Names and paths -/

theorem exists_identifier_iff {name : String} :
    (∃ id, identifier name = .ok id) ↔ isName name.toList = true := by
  constructor
  · rintro ⟨id, h⟩
    exact isName_of_identifier h
  · intro h
    exact ⟨⟨name, h⟩, Identifier.identifier_text ⟨name, h⟩⟩

theorem exists_column_iff {name : String} :
    (∃ piece, column name = .ok piece) ↔ isName name.toList = true := by
  rw [← exists_identifier_iff]
  constructor
  · rintro ⟨piece, h⟩
    obtain ⟨id, hId, -⟩ := bind_eq_ok.1 h
    exact ⟨id, hId⟩
  · rintro ⟨id, hId⟩
    exact ⟨_, bind_eq_ok.2 ⟨id, hId, rfl⟩⟩

/-- A column that is written without blanks around it is a name exactly when it
has no steps. -/
theorem isName_iff_isPlain {name : String} (h : ColumnPath.IsNamed name)
    (hTrim : Text.trim name = name) :
    isName name.toList = true ↔ ColumnPath.IsPlain name := by
  constructor
  · intro hName
    exact ⟨name, Identifier.ofColumn_text ⟨name, hName⟩⟩
  · rintro ⟨base, hPlain⟩
    obtain ⟨path, hPath, hBase⟩ := h
    obtain rfl := Except.ok.inj (hPlain.symm.trans hPath)
    have hWhole := ColumnPath.eq_of_isPath_eq_false hPath rfl
    rw [hTrim] at hWhole
    rwa [(ColumnPath.mk.inj hWhole).1] at hBase

theorem exists_pathFragment {path : ColumnPath}
    (h : isName path.base.toList = true) :
    ∃ fragment, pathFragment path = .ok fragment := by
  obtain ⟨piece, hPiece⟩ := exists_column_iff.2 h
  exact ⟨_, bind_eq_ok.2 ⟨piece, hPiece, rfl⟩⟩

/-- The last field of a path is a name, and so is its column. -/
theorem isName_outputName {path : ColumnPath}
    (h : isName path.base.toList = true) :
    isName path.outputName.toList = true := by
  have hLast : ∀ fields : List String,
      (∀ name ∈ fields, isName name.toList = true) →
        isName (fields.getLast?.getD path.base).toList = true := by
    intro fields hFields
    cases hSome : fields.getLast? with
    | none => exact h
    | some name => exact hFields name (List.mem_of_getLast? hSome)
  refine hLast _ fun name hName => ?_
  obtain ⟨step, -, hStep⟩ := List.mem_filterMap.1 hName
  split at hStep
  · next id _ =>
      cases hStep
      exact id.isName
  · cases hStep

/-! ## The select list -/

theorem exists_selectColumn {name : String} (h : ColumnPath.IsNamed name)
    (hTrim : Text.trim name = name) :
    ∃ fragment, selectColumn name = .ok fragment := by
  obtain ⟨path, hPath, hBase⟩ := h
  obtain ⟨fragment, hFragment⟩ := exists_pathFragment hBase
  obtain ⟨label, hLabel⟩ := exists_identifier_iff.2 (isName_outputName hBase)
  unfold selectColumn
  rw [hPath]
  cases hSteps : path.isPath with
  | true =>
      refine ⟨fragment ++ [.word .asName, .label label], ?_⟩
      show (if path.isPath then _ else _) = _
      rw [if_pos hSteps, hFragment, hLabel]
      rfl
  | false =>
      have hPlain : ColumnPath.IsPlain name :=
        ⟨path.base, by rw [hPath, ← ColumnPath.isPath_eq_false_iff.1 hSteps]⟩
      obtain ⟨piece, hPiece⟩ := exists_column_iff.2
        ((isName_iff_isPlain ⟨path, hPath, hBase⟩ hTrim).2 hPlain)
      refine ⟨[piece], ?_⟩
      show (if path.isPath then _ else _) = _
      rw [if_neg (by simp [hSteps]), hPiece]
      rfl

/-- The name of a result column that is made of a function and a column. -/
theorem isName_function_append (function : AggregateFunction) {name : String}
    (h : isName name.toList = true) :
    isName (function.name ++ "_" ++ name).toList = true := by
  have hParts : ∀ c ∈ name.toList, isNamePart c = true :=
    isNamePart_of_mem_isName h
  have hRest : name.toList.all isNamePart = true := List.all_eq_true.2 hParts
  cases function <;> simp [AggregateFunction.name, isName, hRest] <;> decide

/-- An aggregate has a name for its result column exactly when its label is
empty or a name. -/
theorem isName_outputName_iff {a : Aggregation}
    (h : ∀ name, a.column = some name → isName name.toList = true) :
    isName a.outputName.toList = true ↔
      a.label = "" ∨ isName a.label.toList = true := by
  unfold Aggregation.outputName
  split
  · next hLabel => exact ⟨.inr, fun h => h.resolve_left hLabel⟩
  · next hLabel =>
      refine iff_of_true ?_ (.inl (by simpa using hLabel))
      cases hColumn : a.column with
      | none => cases a.function <;> decide
      | some name => exact isName_function_append _ (h name hColumn)

/-- An aggregate is rendered exactly when its column is a name, and its label
one or empty. -/
theorem exists_selectAggregate_iff {a : Aggregation} :
    (∃ fragment, selectAggregate a = .ok fragment) ↔
      (∀ name, a.column = some name → isName name.toList = true) ∧
        (a.label = "" ∨ isName a.label.toList = true) := by
  -- What follows the argument only asks for a name of the result column.
  have hRest : ∀ x : Result Piece, (∃ fragment, (do
        let argument ← x
        let label ← identifier a.outputName
        return [.word (.function a.function), argument, .word .closeParen,
          .word .asName, .label label] : Result Fragment) = .ok fragment) ↔
      (∃ argument, x = .ok argument) ∧
        isName a.outputName.toList = true := by
    intro x
    rw [← exists_identifier_iff]
    constructor
    · rintro ⟨fragment, h⟩
      obtain ⟨argument, hArgument, h⟩ := bind_eq_ok.1 h
      obtain ⟨id, hId, -⟩ := bind_eq_ok.1 h
      exact ⟨⟨argument, hArgument⟩, id, hId⟩
    · rintro ⟨⟨argument, hArgument⟩, id, hId⟩
      exact ⟨_, bind_eq_ok.2 ⟨argument, hArgument,
        bind_eq_ok.2 ⟨id, hId, rfl⟩⟩⟩
  have hArgument : (∃ fragment, selectAggregate a = .ok fragment) ↔
      (∀ name, a.column = some name → isName name.toList = true) ∧
        isName a.outputName.toList = true := by
    unfold selectAggregate
    cases a.column with
    | none => exact (hRest (.ok (.word .star))).trans (by simp)
    | some name =>
        refine (hRest (column name)).trans ?_
        rw [exists_column_iff]
        simp
  rw [hArgument]
  exact and_congr_right isName_outputName_iff

/-- The select list is rendered exactly when each aggregate is. -/
theorem exists_selectList_iff
    (hColumns : ∀ name ∈ params.select.filter (· != "*"),
      ∃ fragment, selectColumn name = .ok fragment) :
    (∃ list, selectList params = .ok list) ↔ ∀ a ∈ params.aggregations,
      ∃ fragment, selectAggregate a = .ok fragment := by
  rw [← Result.exists_mapM_eq_ok_iff]
  unfold selectList
  constructor
  · rintro ⟨list, h⟩
    obtain ⟨columns, -, h⟩ := bind_eq_ok.1 h
    obtain ⟨aggregates, hAggregates, -⟩ := bind_eq_ok.1 h
    exact ⟨aggregates, hAggregates⟩
  · rintro ⟨aggregates, hAggregates⟩
    obtain ⟨columns, hColumns⟩ := Result.exists_mapM_eq_ok hColumns
    rw [hColumns, hAggregates]
    dsimp only [bind, Except.bind]
    split
    · exact ⟨_, rfl⟩
    · exact ⟨_, rfl⟩

theorem exists_groupClause_iff {names : List String} :
    (∃ clause, groupClause names = .ok clause) ↔
      ∀ name ∈ names, isName name.toList = true := by
  unfold groupClause
  split
  · next hEmpty =>
      rw [List.isEmpty_iff.1 hEmpty]
      exact iff_of_true ⟨_, rfl⟩ (List.forall_mem_nil _)
  · simp only [← exists_column_iff]
    rw [← Result.exists_mapM_eq_ok_iff]
    constructor
    · rintro ⟨clause, h⟩
      obtain ⟨list, hList, -⟩ := bind_eq_ok.1 h
      obtain ⟨pieces, hPieces, -⟩ := bind_eq_ok.1 hList
      exact ⟨pieces, hPieces⟩
    · rintro ⟨pieces, hPieces⟩
      exact ⟨_, bind_eq_ok.2 ⟨_, bind_eq_ok.2 ⟨pieces, hPieces, rfl⟩, rfl⟩⟩

/-! ## The order -/

theorem exists_orderClause {order : List OrderBy}
    (hNulls : ∀ entry ∈ order, Params.isNullsOrdering entry.nulls = true)
    (h : ∀ entry ∈ order, ColumnPath.IsNamed entry.column) :
    ∃ clause, orderClause order = .ok clause := by
  have hEntry : ∀ entry ∈ order, ∃ part, orderEntry entry = .ok part := by
    intro entry hEntry
    obtain ⟨nulls, hWords⟩ : ∃ words, nullsWords entry.nulls = .ok words := by
      have hKnown := hNulls entry hEntry
      unfold Params.isNullsOrdering at hKnown
      unfold nullsWords
      split_ifs with hNone hFirst hLast
      · exact ⟨_, rfl⟩
      · exact ⟨_, rfl⟩
      · exact ⟨_, rfl⟩
      · simp [hNone, hFirst, hLast] at hKnown
    obtain ⟨path, hPath, hBase⟩ := h entry hEntry
    obtain ⟨fragment, hFragment⟩ := exists_pathFragment hBase
    exact ⟨_, bind_eq_ok.2 ⟨nulls, hWords, bind_eq_ok.2 ⟨path, hPath,
      bind_eq_ok.2 ⟨fragment, hFragment, rfl⟩⟩⟩⟩
  unfold orderClause
  split
  · exact ⟨_, rfl⟩
  · obtain ⟨parts, hParts⟩ := Result.exists_mapM_eq_ok hEntry
    exact ⟨_, bind_eq_ok.2 ⟨parts, hParts, rfl⟩⟩

/-- The entry that pagination adds has no word for nulls. -/
theorem isNullsOrdering_keysetOrder
    (h : ∀ entry ∈ params.order, Params.isNullsOrdering entry.nulls = true) :
    ∀ entry ∈ keysetOrder params,
      Params.isNullsOrdering entry.nulls = true := by
  unfold keysetOrder
  split
  · exact h
  · split
    · exact h
    · intro entry hEntry
      rcases List.mem_append.1 hEntry with hMem | hAdded
      · exact h entry hMem
      · rw [List.mem_singleton.1 hAdded]
        rfl

/-! ## Filters -/

theorem exists_isWord_iff {value : FilterValue} :
    (∃ word, isWord value = .ok word) ↔ value.IsTested := by
  have hKeyword : ∀ word : String, (∃ w, isKeyword? word = some w) ↔
      word ∈ ["null", "notnull", "not_null", "true", "false"] := by
    intro word
    unfold isKeyword?
    simp only [List.mem_cons, List.not_mem_nil, or_false]
    split_ifs <;> simp <;> tauto
  constructor
  · rintro ⟨word, h⟩
    unfold isWord at h
    split at h
    · exact .null
    · exact .bool true
    · exact .bool false
    · split at h
      · next w hWord => exact .word ((hKeyword _).1 ⟨w, hWord⟩)
      · cases h
    · cases h
  · intro h
    cases h with
    | null => exact ⟨_, rfl⟩
    | bool b => cases b <;> exact ⟨_, rfl⟩
    | @word s h =>
        obtain ⟨w, hWord⟩ := (hKeyword _).2 h
        exact ⟨w, by rw [isWord, hWord]⟩

/-- A value is compared with, unless it is a list, or null and the operator no
equality. -/
theorem exists_comparison_iff {f : Filter} {operator : Operator}
    {column : Fragment} :
    (∃ fragment, comparison f operator column = .ok fragment) ↔
      f.value.kind ≠ "sequence" ∧
        (f.value.kind = "null" → operator = .eq ∨ operator = .neq) := by
  unfold comparison
  cases f.value with
  | null =>
      simp only [FilterValue.kind]
      split_ifs with hEq hNeq
      · simp [hEq]
      · simp [hNeq]
      · simp [hEq, hNeq, refuse]
  | sequence items => simp [FilterValue.kind, refuse]
  | _ => simp [FilterValue.kind]

/-- What follows the column of a filter. -/
def testFragment (f : Filter) (column : Fragment) : Operator → Result Fragment
  | .is => do return column ++ [.word (← isWord f.value)]
  | .in =>
      match f.value with
      | .null => refuse (.listRequired .in f.column)
      | .sequence items => return membership column (items.map .scalar)
      | value => return membership column [value.toValue]
  | operator => comparison f operator column

theorem filterFragment_eq {f : Filter} {operator : Operator}
    {path : ColumnPath} {column : Fragment}
    (hOperator : f.operator = some operator)
    (hPath : ColumnPath.ofColumn f.column = .ok path)
    (hColumn : comparedColumn path operator = .ok column) :
    filterFragment f = testFragment f column operator := by
  rw [filterFragment, hOperator]
  dsimp only
  rw [hPath]
  show (comparedColumn path operator >>= _) = _
  rw [hColumn]
  cases operator <;> rfl

theorem exists_comparedColumn {path : ColumnPath} (operator : Operator)
    (h : isName path.base.toList = true) :
    ∃ column, comparedColumn path operator = .ok column := by
  obtain ⟨fragment, hFragment⟩ := exists_pathFragment h
  unfold comparedColumn
  rw [hFragment]
  show ∃ column, (if path.extractsText && operator.isNumeric then
    (return .word .openParen :: fragment ++ [.word .asNumeric] :
      Result Fragment) else return fragment) = .ok column
  split
  · exact ⟨_, rfl⟩
  · exact ⟨_, rfl⟩

/-- A filter is rendered exactly when its value fits its operator. -/
theorem exists_filterFragment_iff {f : Filter} {operator : Operator}
    (hOperator : f.operator = some operator)
    (hColumn : ColumnPath.IsNamed f.column) :
    (∃ fragment, filterFragment f = .ok fragment) ↔
      f.value.Fits operator := by
  obtain ⟨path, hPath, hBase⟩ := hColumn
  obtain ⟨column, hCompared⟩ := exists_comparedColumn operator hBase
  rw [filterFragment_eq hOperator hPath hCompared]
  cases operator with
  | is =>
      refine Iff.trans ?_ exists_isWord_iff
      constructor
      · rintro ⟨fragment, h⟩
        obtain ⟨word, hWord, -⟩ := bind_eq_ok.1 h
        exact ⟨word, hWord⟩
      · rintro ⟨word, hWord⟩
        exact ⟨_, bind_eq_ok.2 ⟨word, hWord, rfl⟩⟩
  | «in» =>
      unfold testFragment
      cases f.value with
      | null => simp [FilterValue.Fits, FilterValue.kind, refuse]
      | _ =>
          exact iff_of_true ⟨_, rfl⟩
            (by simp [FilterValue.Fits, FilterValue.kind])
  | eq | neq =>
      refine exists_comparison_iff.trans ?_
      simp [FilterValue.Fits]
  | _ =>
      refine exists_comparison_iff.trans ?_
      simp [FilterValue.Fits, and_comm]

/-! ## The cursor -/

/-- Of all values, the single ones may be compared with by size. -/
theorem isSingle_iff_exists_fits {raw : Value} {operator : Operator}
    (hOperator : operator = .lt ∨ operator = .gt) :
    raw.IsSingle ↔ ∃ value, FilterValue.ofValue raw = .ok value ∧
      value.Fits operator := by
  have hItems : ∀ items, ¬ ∃ value, FilterValue.ofItems items = .ok value ∧
      value.Fits operator := by
    rintro items ⟨value, hValue, hFits⟩
    unfold FilterValue.ofItems at hValue
    split at hValue
    · rw [← Except.ok.inj hValue] at hFits
      rcases hOperator with rfl | rfl
      · exact hFits.2 rfl
      · exact hFits.2 rfl
    · exact absurd hValue refuse_ne_ok
  cases raw with
  | scalar s =>
      rcases hOperator with rfl | rfl <;>
        cases s <;>
          simp [Value.IsSingle, FilterValue.ofValue, FilterValue.Fits,
            FilterValue.kind, refuse]
  | list items => exact iff_of_false id (hItems items)
  | tuple items => exact iff_of_false id (hItems items)
  | object fields =>
      refine iff_of_false id ?_
      rintro ⟨value, hValue, -⟩
      exact absurd hValue refuse_ne_ok

/-- The filters of a request, with the comparison of its cursor, are rendered
exactly when its own filters are and the position is a single value. -/
theorem exists_keysetFilters_iff
    (hKeyset : ∀ name, params.keysetColumn = some name →
      ColumnPath.IsNamed name) :
    (∃ filters, keysetFilters params = .ok filters ∧
        ∃ clause, whereClause filters = .ok clause) ↔
      (∀ f ∈ params.filters, ∃ fragment, filterFragment f = .ok fragment) ∧
        ∀ cursor, params.cursor = some cursor → cursor.value.IsSingle := by
  cases hCursor : params.cursor with
  | none =>
      have hNone : keysetFilters params = .ok params.filters := by
        rw [keysetFilters, hCursor]
        rfl
      simp [hNone, exists_whereClause_iff]
  | some cursor =>
      obtain ⟨name, hName⟩ := Option.ne_none_iff_exists'.1
        (params.keysetColumn_ne_none hCursor)
      have hSize : (if params.keysetDesc then Operator.lt else .gt) = .lt ∨
          (if params.keysetDesc then Operator.lt else .gt) = .gt := by
        cases params.keysetDesc
        · exact .inr rfl
        · exact .inl rfl
      have hFits := fun value => exists_filterFragment_iff (f := {
        column := params.keysetColumn.getD cursor.column
        operator := some (if params.keysetDesc then .lt else .gt)
        value }) rfl (by rw [hName]; exact hKeyset name hName)
      have hSingle : (∀ c, some cursor = some c → c.value.IsSingle) ↔
          cursor.value.IsSingle := by simp
      rw [hSingle, isSingle_iff_exists_fits hSize, keysetFilters, hCursor]
      constructor
      · rintro ⟨filters, h, hClause⟩
        obtain ⟨value, hValue, h⟩ := bind_eq_ok.1 h
        rw [← pure_eq_ok.1 h, exists_whereClause_iff] at hClause
        exact ⟨fun f hf => hClause f (List.mem_append_left _ hf), value,
          hValue, (hFits value).1 (hClause _ (by simp))⟩
      · rintro ⟨hOwn, value, hValue, hValueFits⟩
        refine ⟨_, bind_eq_ok.2 ⟨value, hValue, rfl⟩,
          exists_whereClause_iff.2 fun f hf => ?_⟩
        rcases List.mem_append.1 hf with hMem | hAdded
        · exact hOwn f hMem
        · rw [List.mem_singleton.1 hAdded]
          exact (hFits value).2 hValueFits

/-! ## The whole request -/

theorem exists_select_iff :
    (∃ s, select table params = .ok s) ↔
      (∃ target, tablePiece table = .ok target) ∧
        (∃ list, selectList params = .ok list) ∧
        (∃ filters, keysetFilters params = .ok filters ∧
          ∃ clause, whereClause filters = .ok clause) ∧
        (∃ clause, groupClause params.groupBy = .ok clause) ∧
        ∃ clause, orderClause (keysetOrder params) = .ok clause := by
  constructor
  · rintro ⟨s, h⟩
    obtain ⟨parts, -⟩ := SelectParts.exists_of_select h
    exact ⟨⟨_, parts.target_eq⟩, ⟨_, parts.list_eq⟩,
      ⟨_, parts.filters_eq, _, parts.where_eq⟩, ⟨_, parts.group_eq⟩,
      ⟨_, parts.order_eq⟩⟩
  · rintro ⟨⟨target, hTarget⟩, ⟨list, hList⟩, ⟨filters, hFilters, wherePart,
      hWhere⟩, ⟨groupPart, hGroup⟩, ⟨orderPart, hOrder⟩⟩
    exact ⟨_, SelectParts.select_eq ⟨target, list, filters, wherePart,
      groupPart, orderPart, hTarget, hList, hFilters, hWhere, hGroup, hOrder⟩⟩

section Named

variable (hNamed : ∀ name ∈ params.mentioned, ColumnPath.IsNamed name)

include hNamed

theorem isNamed_keyset : ∀ name, params.keysetColumn = some name →
    ColumnPath.IsNamed name :=
  fun name hName => hNamed name
    (Params.mem_mentioned_iff.2 (by simp [hName]))

/-- The order of a request that passes the check is rendered. -/
theorem exists_orderClause_keysetOrder
    (hValid : params.validate table = .ok ()) :
    ∃ clause, orderClause (keysetOrder params) = .ok clause :=
  exists_orderClause
    (isNullsOrdering_keysetOrder (Params.isNullsOrdering_of_validate hValid))
    (columns_keysetOrder (fun entry hEntry => hNamed _
      (Params.mem_mentioned_iff.2
        (.inr (.inr (.inr (.inl ⟨entry, hEntry, rfl⟩))))))
      (isNamed_keyset hNamed))

/-- The filters of a request that passes the check are rendered exactly when
their values fit their operators. -/
theorem exists_filterFragments_iff (hValid : params.validate table = .ok ()) :
    (∀ f ∈ params.filters, ∃ fragment, filterFragment f = .ok fragment) ↔
      ∀ f ∈ params.filters, ∀ operator, f.operator = some operator →
        f.value.Fits operator := by
  refine forall₂_congr fun f hf => ?_
  obtain ⟨operator, hOperator⟩ :=
    Params.exists_operator_of_validate hValid f hf
  have hColumn := hNamed f.column
    (Params.mem_mentioned_iff.2 (.inr (.inr (.inl ⟨f, hf, rfl⟩))))
  rw [exists_filterFragment_iff hOperator hColumn, hOperator]
  simp

variable (hTrim : ∀ name ∈ params.mentioned, Text.trim name = name)

include hTrim

theorem isName_iff_isPlain_of_mentioned {name : String}
    (h : name ∈ params.mentioned) :
    isName name.toList = true ↔ ColumnPath.IsPlain name :=
  isName_iff_isPlain (hNamed name h) (hTrim name h)

/-- The select list is rendered exactly when its aggregates have plain columns,
and names as labels or none. -/
theorem exists_selectList_iff_isPlain :
    (∃ list, selectList params = .ok list) ↔ ∀ a ∈ params.aggregations,
      (∀ name, a.column = some name → ColumnPath.IsPlain name) ∧
        (a.label = "" ∨ isName a.label.toList = true) := by
  rw [exists_selectList_iff fun name hName => exists_selectColumn
    (hNamed name (Params.mem_mentioned_iff.2 (.inl hName)))
    (hTrim name (Params.mem_mentioned_iff.2 (.inl hName)))]
  refine forall₂_congr fun a ha => exists_selectAggregate_iff.trans ?_
  refine and_congr_left' (forall₂_congr fun name hColumn => ?_)
  exact isName_iff_isPlain_of_mentioned hNamed hTrim
    (Params.mem_mentioned_iff.2 (.inr (.inl ⟨a, ha, hColumn⟩)))

/-- The columns that rows are grouped by are rendered exactly when they are
plain. -/
theorem exists_groupClause_iff_isPlain :
    (∃ clause, groupClause params.groupBy = .ok clause) ↔
      ∀ name ∈ params.groupBy, ColumnPath.IsPlain name :=
  exists_groupClause_iff.trans (forall₂_congr fun name hName =>
    isName_iff_isPlain_of_mentioned hNamed hTrim
      (Params.mem_mentioned_iff.2 (by simp [hName])))

end Named

/-- A request that passes the check is selected exactly when it is selectable.
Otherwise it is not valid, if what is tested against keywords can be shown. -/
theorem selects_exactly (hTable : table.IsNamed)
    (hTrim : ∀ name ∈ params.mentioned, Text.trim name = name)
    (hValid : params.validate table = .ok ()) :
    ((∃ s, select table params = .ok s) ↔ params.Selectable) ∧
      (¬ params.Selectable → ¬ TestsUnshown params.filters → ∃ cause,
        select table params = .error (.invalid cause)) := by
  have hNamed := Params.isNamed_of_validate hTable hValid
  have hIff : (∃ s, select table params = .ok s) ↔ params.Selectable := by
    rw [exists_select_iff, exists_selectList_iff_isPlain hNamed hTrim,
      exists_keysetFilters_iff (isNamed_keyset hNamed),
      exists_filterFragments_iff hNamed hValid,
      exists_groupClause_iff_isPlain hNamed hTrim]
    constructor
    · rintro ⟨-, hAggregates, ⟨hValues, hPosition⟩, hGroupBy, -⟩
      exact {
        aggregates := fun a ha => (hAggregates a ha).1
        groups := hGroupBy
        labels := fun a ha => (hAggregates a ha).2
        values := hValues
        position := hPosition }
    · rintro ⟨hColumns, hGroupBy, hLabels, hValues, hPosition⟩
      obtain ⟨target, hTarget, -⟩ := exists_tablePiece hTable
      exact ⟨⟨target, hTarget⟩, fun a ha => ⟨hColumns a ha, hLabels a ha⟩,
        ⟨hValues, hPosition⟩, hGroupBy,
        exists_orderClause_keysetOrder hNamed hValid⟩
  refine ⟨hIff, fun hNot hShown => ?_⟩
  have hRefuses : OnlyRefuses (select table params) :=
    select_failsOnly (fun cause => ⟨cause, rfl⟩) table
      fun hTests => absurd hTests hShown
  exact hRefuses.exists_invalid fun s hSelect => hNot (hIff.1 ⟨s, hSelect⟩)

/-- Items that are grouped, past a position. -/
def itemsGrouped : Params where
  select := ["data->>name"]
  aggregations := [{ function := .count, label := "n" },
    { function := .max, column := some "id" }]
  filters := [
    { column := "id", operator := some .is, value := .text " Not_Null " },
    { column := "id", operator := some .neq },
    { column := "data->>size", operator := some .in, value := .text "small" }]
  order := [{ column := "id", nulls := "last" }]
  groupBy := ["data"]
  cursor := some { column := "id", value := .int 5 }

/-- The same items, grouped by a path. -/
def itemsGroupedByPath : Params :=
  { itemsGrouped with groupBy := ["data->>size"] }

/-- Items are grouped by a column that is selected, and may not be grouped by a
path. -/
theorem selects_exactly_items :
    items.IsNamed ∧
      (∀ name ∈ itemsGrouped.mentioned, Text.trim name = name) ∧
      (∀ name ∈ itemsGroupedByPath.mentioned, Text.trim name = name) ∧
      itemsGrouped.validate items = .ok () ∧
      itemsGroupedByPath.validate items = .ok () ∧
      (∃ s, select items itemsGrouped = .ok s) ∧
      ¬ TestsUnshown itemsGroupedByPath.filters ∧
      ∃ cause, select items itemsGroupedByPath = .error (.invalid cause) := by
  have hTable : items.IsNamed := by decide
  have hTrim : ∀ name ∈ itemsGrouped.mentioned, Text.trim name = name := by
    decide +kernel
  have hTrimByPath : ∀ name ∈ itemsGroupedByPath.mentioned,
      Text.trim name = name := by
    decide +kernel
  have hValid : itemsGrouped.validate items = .ok () := rfl
  have hValidByPath : itemsGroupedByPath.validate items = .ok () := rfl
  have hSelectable : itemsGrouped.Selectable := {
    aggregates := by
      simp [itemsGrouped]
      exact ⟨"id", rfl⟩
    groups := by
      simp [itemsGrouped]
      exact ⟨"data", rfl⟩
    labels := by decide
    values := by
      simp [itemsGrouped, FilterValue.Fits]
      exact ⟨.word (by decide +kernel), by decide, by decide⟩
    position := by
      simp [itemsGrouped]
      trivial }
  have hNot : ¬ itemsGroupedByPath.Selectable := by
    intro h
    obtain ⟨base, hPlain⟩ := h.groups "data->>size" List.mem_cons_self
    have hPath : (ColumnPath.ofColumn "data->>size").map (·.steps.length) =
        .ok 1 := rfl
    rw [hPlain] at hPath
    cases hPath
  have hShown : ¬ TestsUnshown itemsGroupedByPath.filters := by
    rintro ⟨f, hf, -, hHidden⟩
    simp only [itemsGroupedByPath, itemsGrouped, List.mem_cons,
      List.not_mem_nil, or_false] at hf
    rcases hf with rfl | rfl | rfl <;> cases hHidden
  exact ⟨hTable, hTrim, hTrimByPath, hValid, hValidByPath,
    (selects_exactly hTable hTrim hValid).1.2 hSelectable, hShown,
    (selects_exactly hTable hTrimByPath hValidByPath).2 hNot hShown⟩

/-- The items whose number is tested against a keyword. -/
def itemsTested (value : FilterValue) : Params where
  filters := [{ column := "id", operator := some .is, value }]

/-- A number is no keyword. -/
theorem select_itemsTested_int (n : Int) :
    select items (itemsTested (.int n)) = .error (noKeyword (.int n)) := by
  have hColumn := Identifier.ofColumn_text ⟨"id", by decide⟩
  have hFilter : filterFragment
      { column := "id", operator := some .is, value := .int n } =
        .error (noKeyword (.int n)) := by
    unfold filterFragment
    dsimp only
    rw [hColumn]
    rfl
  have hWhere : whereClause (itemsTested (.int n)).filters =
      .error (noKeyword (.int n)) := by
    show (List.mapM conditionFragment [.single
      { column := "id", operator := some .is, value := .int n }] >>= _) = _
    rw [List.mapM_cons, conditionFragment, hFilter]
    rfl
  show (tablePiece items >>= fun target =>
    selectList (itemsTested (.int n)) >>= fun columns =>
      whereClause (itemsTested (.int n)).filters >>= _) = _
  rw [hWhere]
  rfl

/-- An integer with too many digits is no keyword, but the request for it is not
refused as one that is not valid. And a keyword in which a long s stands for
the small one, of which it has the capital, is refused: what is compared is the
lower case, and both letters are that. -/
theorem selects_not_exactly :
    items.IsNamed ∧
      (∀ value ∈ [.int (10 ^ Text.maxIntegerDigits), .text "fal\u017fe"],
        (∀ name ∈ (itemsTested value).mentioned, Text.trim name = name) ∧
          (itemsTested value).validate items = .ok ()) ∧
      ¬ (itemsTested (.int (10 ^ Text.maxIntegerDigits))).Selectable ∧
      select items (itemsTested (.int (10 ^ Text.maxIntegerDigits))) =
        .error (.unexpected .integerTooLong) ∧
      ∃ cause, select items (itemsTested (.text "fal\u017fe")) =
        .error (.invalid cause) := by
  have hAccepted : ∀ value ∈ [FilterValue.int (10 ^ Text.maxIntegerDigits),
      .text "fal\u017fe"],
      (∀ name ∈ (itemsTested value).mentioned, Text.trim name = name) ∧
        (itemsTested value).validate items = .ok () := by
    intro value hMem
    have hMentioned : (itemsTested value).mentioned = ["id"] := rfl
    refine ⟨by rw [hMentioned]; decide +kernel, Result.toOption_eq_some.1 ?_⟩
    simp only [List.mem_cons, List.not_mem_nil, or_false] at hMem
    rcases hMem with rfl | rfl
    · decide +kernel
    · decide +kernel
  have hNot :
      ¬ (itemsTested (.int (10 ^ Text.maxIntegerDigits))).Selectable := by
    intro h
    cases h.values _ List.mem_cons_self .is rfl
  have hLong : select items (itemsTested (.int (10 ^ Text.maxIntegerDigits))) =
      .error (.unexpected .integerTooLong) := by
    rw [select_itemsTested_int, noKeyword, if_neg]
    decide +kernel
  exact ⟨by decide, hAccepted, hNot, hLong, _, rfl⟩

end Sql
end TableGate
