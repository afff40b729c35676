import TableGate.Proofs.Identifier
import TableGate.Proofs.Sql.Query
import TableGate.Sql.Write

/-!
# What fragments are made of

A fragment is put together from words, keys, the table, columns, names given
after AS, and values. `Composed` says so of a fragment, with a condition on
the columns that may occur, and says whether values may occur. It is closed
under the ways in which fragments are put together, so each builder needs no
more than its own parts.

The parts of a request that name columns are composed without values; only
filters, page bounds and records hold some.

## Main results

* `composed_selectList` and the like: the parts without values.
* `composed_whereClause`: a WHERE clause reaches the columns that its filters
  name.
-/

namespace TableGate

/-- The filters of a condition. -/
def Condition.filters : Condition → List Filter
  | single f => [f]
  | anyOf members => members

/-- The filters of the conditions are filters of the list. -/
theorem Filter.mem_of_mem_conditionsFrom {all rest : List Filter}
    (hRest : rest ⊆ all) {settled : List Int} {c : Condition}
    (hMem : c ∈ conditionsFrom all settled rest) :
    ∀ f ∈ c.filters, f ∈ all := by
  induction rest generalizing settled with
  | nil => exact absurd hMem List.not_mem_nil
  | cons g rest ih =>
      obtain ⟨hFirst, hOthers⟩ := List.cons_subset.1 hRest
      rw [conditionsFrom] at hMem
      split_ifs at hMem
      · exact ih hOthers hMem
      · rcases List.mem_cons.1 hMem with rfl | hLater
        · exact fun f hf => List.mem_of_mem_filter hf
        · exact ih hOthers hLater
      · rcases List.mem_cons.1 hMem with rfl | hLater
        · intro f hf
          rwa [List.mem_singleton.1 hf]
        · exact ih hOthers hLater

/-- A request without page bounds and cursor, for which a plan is asked. -/
def Params.unpaged (params : Params) : Params :=
  { params with limit := none, offset := none, cursor := none }

/-- A request with a cursor has a keyset column. -/
theorem Params.keysetColumn_ne_none (params : Params) {c : Cursor}
    (h : params.cursor = some c) : params.keysetColumn ≠ none := by
  unfold keysetColumn
  rw [h]
  split
  · split
    · exact Option.some_ne_none _
    · exact Option.some_ne_none _
  · exact Option.some_ne_none _

namespace Sql

open Result (bind_eq_ok pure_eq_ok)

variable {table other : Table} {columns : String → Prop} {values : Prop}

/-- A piece that is no column, name or value, and after which no name is
given. -/
def Piece.isPlain : Piece → Bool
  | .word w => w != .asName
  | .field _ | .index _ => true
  | _ => false

/-- What a fragment is made of: columns of a kind, and values if there may be
any. -/
inductive Composed (table : Table) (columns : String → Prop) (values : Prop) :
    Fragment → Prop
  | nil : Composed table columns values []
  | plain {piece : Piece} {rest : Fragment} (h : piece.isPlain = true)
      (hRest : Composed table columns values rest) :
      Composed table columns values (piece :: rest)
  | target {schema name : Identifier} {rest : Fragment}
      (hSchema : schema.text = table.schema) (hName : name.text = table.name)
      (hRest : Composed table columns values rest) :
      Composed table columns values (.table schema name :: rest)
  | column {name : Identifier} {rest : Fragment} (h : columns name.text)
      (hRest : Composed table columns values rest) :
      Composed table columns values (.column name :: rest)
  | named {name : Identifier} {rest : Fragment}
      (hRest : Composed table columns values rest) :
      Composed table columns values (.word .asName :: .label name :: rest)
  | bind {value : Value} {rest : Fragment} (h : values)
      (hRest : Composed table columns values rest) :
      Composed table columns values (.bind value :: rest)

namespace Composed

variable {a b : Fragment}

theorem append (ha : Composed table columns values a)
    (hb : Composed table columns values b) :
    Composed table columns values (a ++ b) := by
  induction ha with
  | nil => exact hb
  | plain h _ ih => exact .plain h ih
  | target hSchema hName _ ih => exact .target hSchema hName ih
  | column h _ ih => exact .column h ih
  | named _ ih => exact .named ih
  | bind h _ ih => exact .bind h ih

theorem one {piece : Piece} (h : piece.isPlain = true) :
    Composed table columns values [piece] :=
  .plain h .nil

theorem all {fragment : Fragment}
    (h : ∀ piece ∈ fragment, piece.isPlain = true) :
    Composed table columns values fragment := by
  induction fragment with
  | nil => exact .nil
  | cons piece rest ih =>
      exact .plain (h piece List.mem_cons_self)
        (ih fun other hOther => h other (List.mem_cons_of_mem _ hOther))

theorem join {word : Word} (hWord : (Piece.word word).isPlain = true)
    {parts : List Fragment}
    (h : ∀ part ∈ parts, Composed table columns values part) :
    Composed table columns values (joinFragments word parts) := by
  induction parts with
  | nil => exact .nil
  | cons part rest ih =>
      have hFirst := h part List.mem_cons_self
      have hOthers := ih fun other hOther =>
        h other (List.mem_cons_of_mem _ hOther)
      cases rest with
      | nil => exact hFirst
      | cons next rest => exact hFirst.append (.plain hWord hOthers)

theorem commaList {parts : List Fragment}
    (h : ∀ part ∈ parts, Composed table columns values part) :
    Composed table columns values (commaList parts) :=
  join rfl h

/-- What is built item by item. -/
theorem of_mapM {α : Type} {build : α → Result Fragment} {xs : List α}
    {parts : List Fragment} (h : xs.mapM build = .ok parts)
    (hBuild : ∀ x ∈ xs, ∀ part, build x = .ok part →
      Composed table columns values part) :
    ∀ part ∈ parts, Composed table columns values part := by
  intro part hPart
  obtain ⟨x, hMem, hx⟩ := Result.exists_of_mem_mapM h hPart
  exact hBuild x hMem part hx

end Composed

/-! ## Columns -/

/-- The column that a name is read as, if it is read as one, is of a kind. -/
def ReadAs (columns : String → Prop) (name : String) : Prop :=
  ∀ base, baseColumn name = .ok base → columns base

/-- A name that may be quoted is read as itself. -/
theorem ReadAs.of_column {name : String} {piece : Piece}
    (h : ReadAs columns name) (hPiece : column name = .ok piece) :
    columns name := by
  obtain ⟨id, hId, -⟩ := bind_eq_ok.1 hPiece
  obtain rfl := identifier_eq_ok hId
  refine h _ (bind_eq_ok.2 ⟨_, id.ofColumn_text, rfl⟩)

/-- A name that is quoted is read as itself. -/
theorem readAs_of_column {name : String} {piece : Piece}
    (h : column name = .ok piece) (hName : columns name) :
    ReadAs columns name := by
  intro base hBase
  obtain ⟨id, hId, -⟩ := bind_eq_ok.1 h
  obtain rfl := identifier_eq_ok hId
  obtain ⟨path, hPath, hBase⟩ := bind_eq_ok.1 hBase
  rw [id.ofColumn_text] at hPath
  rwa [← pure_eq_ok.1 hBase, ← Except.ok.inj hPath]

theorem composed_tablePiece {piece : Piece} (h : tablePiece table = .ok piece) :
    Composed table columns values [piece] := by
  obtain ⟨schema, hSchema, h⟩ := bind_eq_ok.1 h
  obtain ⟨name, hName, h⟩ := bind_eq_ok.1 h
  rw [← pure_eq_ok.1 h]
  exact .target (identifier_eq_ok hSchema) (identifier_eq_ok hName) .nil

theorem composed_column {name : String} {piece : Piece}
    (h : column name = .ok piece) (hName : columns name) :
    Composed table columns values [piece] := by
  obtain ⟨id, hId, h⟩ := bind_eq_ok.1 h
  rw [← pure_eq_ok.1 h]
  obtain rfl := identifier_eq_ok hId
  exact .column hName .nil

theorem composed_columnList {names : List String} {fragment : Fragment}
    (h : columnList names = .ok fragment) (hNames : ∀ name ∈ names,
      ∀ piece, column name = .ok piece → columns name) :
    Composed table columns values fragment := by
  obtain ⟨pieces, hPieces, h⟩ := bind_eq_ok.1 h
  rw [← pure_eq_ok.1 h]
  refine .commaList fun part hPart => ?_
  obtain ⟨piece, hPiece, rfl⟩ := List.mem_map.1 hPart
  obtain ⟨name, hMem, hName⟩ := Result.exists_of_mem_mapM hPieces hPiece
  exact composed_column hName (hNames name hMem piece hName)

theorem composed_pathFragment {path : ColumnPath} {fragment : Fragment}
    (h : pathFragment path = .ok fragment) (hBase : columns path.base) :
    Composed table columns values fragment := by
  obtain ⟨piece, hPiece, h⟩ := bind_eq_ok.1 h
  rw [← pure_eq_ok.1 h]
  refine (composed_column hPiece hBase).append (.all fun step hStep => ?_)
  obtain ⟨⟨arrow, key⟩, -, hKey⟩ := List.mem_flatMap.1 hStep
  cases key with
  | field name =>
      simp only [stepPieces, List.mem_cons, List.not_mem_nil, or_false] at hKey
      rcases hKey with rfl | rfl <;> rfl
  | index digits =>
      simp only [stepPieces, List.mem_cons, List.not_mem_nil, or_false] at hKey
      rcases hKey with rfl | rfl <;> rfl

theorem composed_comparedColumn {path : ColumnPath} {operator : Operator}
    {fragment : Fragment} (h : comparedColumn path operator = .ok fragment)
    (hBase : columns path.base) : Composed table columns values fragment := by
  obtain ⟨column, hColumn, h⟩ := bind_eq_ok.1 h
  have hPath : Composed table columns values column :=
    composed_pathFragment hColumn hBase
  split at h
  · rw [← pure_eq_ok.1 h]
    exact .plain rfl (hPath.append (.one rfl))
  · rw [← pure_eq_ok.1 h]
    exact hPath

/-! ## Clauses that name columns -/

theorem composed_selectColumn {name : String} {fragment : Fragment}
    (h : selectColumn name = .ok fragment) (hName : ReadAs columns name) :
    Composed table columns values fragment := by
  obtain ⟨path, hPath, h⟩ := bind_eq_ok.1 h
  split at h
  · obtain ⟨pathPart, hPart, h⟩ := bind_eq_ok.1 h
    obtain ⟨label, -, h⟩ := bind_eq_ok.1 h
    rw [← pure_eq_ok.1 h]
    have hBase := hName path.base (bind_eq_ok.2 ⟨path, hPath, rfl⟩)
    exact (composed_pathFragment hPart hBase).append (.named .nil)
  · obtain ⟨piece, hPiece, h⟩ := bind_eq_ok.1 h
    rw [← pure_eq_ok.1 h]
    exact composed_column hPiece (hName.of_column hPiece)

theorem composed_selectAggregate {a : Aggregation} {fragment : Fragment}
    (h : selectAggregate a = .ok fragment)
    (hName : ∀ name, a.column = some name → ReadAs columns name) :
    Composed table columns values fragment := by
  have hCall : ∀ (argument : Piece) (label : Identifier),
      Composed table columns values [argument] →
      Composed table columns values ([.word (.function a.function), argument,
        .word .closeParen, .word .asName, .label label]) :=
    fun argument label hArgument => .plain rfl
      (hArgument.append (.plain rfl (.named .nil)))
  unfold selectAggregate at h
  split at h
  · obtain ⟨argument, hArgument, h⟩ := bind_eq_ok.1 h
    obtain ⟨label, -, h⟩ := bind_eq_ok.1 h
    rw [← pure_eq_ok.1 h, ← Except.ok.inj hArgument]
    exact hCall _ label (.one rfl)
  · next name hSome =>
      obtain ⟨argument, hArgument, h⟩ := bind_eq_ok.1 h
      obtain ⟨label, -, h⟩ := bind_eq_ok.1 h
      rw [← pure_eq_ok.1 h]
      exact hCall argument label (composed_column hArgument
        ((hName name hSome).of_column hArgument))

theorem composed_selectList {params : Params} {fragment : Fragment}
    (h : selectList params = .ok fragment)
    (hNames : ∀ name ∈ params.select.filter (· != "*") ++
      params.aggregations.filterMap (·.column), ReadAs columns name) :
    Composed table columns values fragment := by
  obtain ⟨parts, hParts, h⟩ := bind_eq_ok.1 h
  obtain ⟨aggregates, hAggregates, h⟩ := bind_eq_ok.1 h
  have hColumns : ∀ part ∈ parts, Composed table columns values part :=
    .of_mapM hParts fun name hMem part hPart =>
      composed_selectColumn hPart (hNames name (List.mem_append_left _ hMem))
  have hCalls : ∀ part ∈ aggregates, Composed table columns values part :=
    .of_mapM hAggregates fun a hMem part hPart =>
      composed_selectAggregate hPart fun name hName =>
        hNames name (List.mem_append_right _
          (List.mem_filterMap.2 ⟨a, hMem, hName⟩))
  split at h
  · rw [← pure_eq_ok.1 h]
    exact .one rfl
  · rw [← pure_eq_ok.1 h]
    exact .commaList fun part hPart =>
      (List.mem_append.1 hPart).elim (hColumns part) (hCalls part)

theorem composed_groupClause {names : List String} {fragment : Fragment}
    (h : groupClause names = .ok fragment)
    (hNames : ∀ name ∈ names, ReadAs columns name) :
    Composed table columns values fragment := by
  unfold groupClause at h
  split at h
  · rw [← pure_eq_ok.1 h]
    exact .nil
  · obtain ⟨list, hList, h⟩ := bind_eq_ok.1 h
    rw [← pure_eq_ok.1 h]
    exact .plain rfl (composed_columnList hList fun name hMem _ hPiece =>
      (hNames name hMem).of_column hPiece)

theorem composed_nullsWords {token : String} {fragment : Fragment}
    (h : nullsWords token = .ok fragment) :
    Composed table columns values fragment := by
  refine .all fun piece hPiece => ?_
  rcases nullsWords_shape h piece hPiece with rfl | rfl
  · rfl
  · rfl

theorem composed_orderEntry {entry : OrderBy} {fragment : Fragment}
    (h : orderEntry entry = .ok fragment)
    (hName : ReadAs columns entry.column) :
    Composed table columns values fragment := by
  obtain ⟨nulls, hNulls, h⟩ := bind_eq_ok.1 h
  obtain ⟨path, hPath, h⟩ := bind_eq_ok.1 h
  obtain ⟨column, hColumn, h⟩ := bind_eq_ok.1 h
  rw [← pure_eq_ok.1 h]
  have hBase := hName path.base (bind_eq_ok.2 ⟨path, hPath, rfl⟩)
  have hDirection : (Piece.word (if entry.desc then Word.desc
      else Word.asc)).isPlain = true := by
    split <;> rfl
  exact (composed_pathFragment hColumn hBase).append
    (.plain hDirection (composed_nullsWords hNulls))

theorem composed_orderClause {order : List OrderBy} {fragment : Fragment}
    (h : orderClause order = .ok fragment)
    (hNames : ∀ entry ∈ order, ReadAs columns entry.column) :
    Composed table columns values fragment := by
  unfold orderClause at h
  split at h
  · rw [← pure_eq_ok.1 h]
    exact .nil
  · obtain ⟨parts, hParts, h⟩ := bind_eq_ok.1 h
    rw [← pure_eq_ok.1 h]
    exact .plain rfl (.commaList (.of_mapM hParts fun entry hMem part hPart =>
      composed_orderEntry hPart (hNames entry hMem)))

theorem composed_returning {fragment : Fragment}
    (h : returning table = .ok fragment)
    (hNames : ∀ name ∈ table.columnNames, columns name) :
    Composed other columns values fragment := by
  unfold returning at h
  split at h
  · rw [← pure_eq_ok.1 h]
    exact .plain rfl (.one rfl)
  · obtain ⟨list, hList, h⟩ := bind_eq_ok.1 h
    rw [← pure_eq_ok.1 h]
    exact .plain rfl (composed_columnList hList fun name hMem _ _ =>
      hNames name hMem)

/-! ## Conflicts -/

theorem composed_assignExcluded {name : String} {fragment : Fragment}
    (h : assignExcluded name = .ok fragment) (hName : columns name) :
    Composed table columns values fragment := by
  obtain ⟨quoted, hQuoted, h⟩ := bind_eq_ok.1 h
  rw [← pure_eq_ok.1 h]
  have hColumn : Composed table columns values [quoted] :=
    composed_column hQuoted hName
  exact hColumn.append (.plain rfl hColumn)

theorem composed_assignNull {name : String} {fragment : Fragment}
    (h : assignNull name = .ok fragment) (hName : columns name) :
    Composed table columns values fragment := by
  obtain ⟨quoted, hQuoted, h⟩ := bind_eq_ok.1 h
  rw [← pure_eq_ok.1 h]
  exact (composed_column hQuoted hName).append (.one rfl)

theorem composed_conflictAssignments {upsert : Upsert}
    {target recordColumns : List String} {parts : List Fragment}
    (h : conflictAssignments table upsert target recordColumns = .ok parts)
    (hTable : ∀ name ∈ table.columnNames, columns name)
    (hRecord : ∀ name ∈ recordColumns, columns name) :
    ∀ part ∈ parts, Composed other columns values part := by
  unfold conflictAssignments at h
  split at h
  · refine Composed.of_mapM h fun name hMem part hPart => ?_
    have hName := hTable name (List.mem_of_mem_filter hMem)
    split at hPart
    · exact composed_assignExcluded hPart hName
    · exact composed_assignNull hPart hName
  · exact Composed.of_mapM h fun name hMem part hPart =>
      composed_assignExcluded hPart (hRecord name (List.mem_of_mem_filter hMem))

theorem composed_conflictPart {upsert : Option Upsert}
    {recordColumns : List String} {fragment : Fragment}
    (h : conflictPart table upsert recordColumns = .ok fragment)
    (hTarget : ∀ names target, table.conflictTarget names = .ok target →
      ∀ name ∈ target, columns name)
    (hTable : ∀ name ∈ table.columnNames, columns name)
    (hRecord : ∀ name ∈ recordColumns, columns name) :
    Composed other columns values fragment := by
  cases upsert with
  | none =>
      rw [← Except.ok.inj h]
      exact .nil
  | some upsert =>
      obtain ⟨target, hNames, h⟩ := bind_eq_ok.1 h
      obtain ⟨list, hList, h⟩ := bind_eq_ok.1 h
      have hLead : Composed other columns values (.word .onConflict :: list) :=
        .plain rfl (composed_columnList hList fun name hMem _ _ =>
          hTarget _ target hNames name hMem)
      split at h
      · rw [← pure_eq_ok.1 h]
        exact hLead.append (.one rfl)
      · obtain ⟨parts, hParts, h⟩ := bind_eq_ok.1 h
        split at h
        · rw [← pure_eq_ok.1 h]
          exact hLead.append (.one rfl)
        · rw [← pure_eq_ok.1 h]
          exact hLead.append (.plain rfl (.commaList
            (composed_conflictAssignments hParts hTable hRecord)))

/-! ## Filters -/

theorem composed_membership {column : Fragment}
    (h : Composed table columns True column) (items : List Value) :
    Composed table columns True (membership column items) := by
  unfold membership
  split
  · exact .one rfl
  · refine (h.append (.plain rfl (.commaList fun part hPart => ?_))).append
      (.one rfl)
    obtain ⟨item, -, rfl⟩ := List.mem_map.1 hPart
    exact .bind trivial .nil

theorem composed_comparison {f : Filter} {operator : Operator}
    {column fragment : Fragment} (hColumn : Composed table columns True column)
    (h : comparison f operator column = .ok fragment) :
    Composed table columns True fragment := by
  unfold comparison at h
  split at h
  · split_ifs at h
    · rw [← Except.ok.inj h]
      exact hColumn.append (.one rfl)
    · rw [← Except.ok.inj h]
      exact hColumn.append (.one rfl)
    · exact absurd h Result.refuse_ne_ok
  · exact absurd h Result.refuse_ne_ok
  · rw [← Except.ok.inj h]
    exact hColumn.append (.plain rfl (.bind trivial .nil))

theorem composed_filterFragment {f : Filter} {fragment : Fragment}
    (h : filterFragment f = .ok fragment) (hName : ReadAs columns f.column) :
    Composed table columns True fragment := by
  unfold filterFragment at h
  split at h
  · exact absurd h Result.refuse_ne_ok
  · obtain ⟨path, hPath, h⟩ := bind_eq_ok.1 h
    obtain ⟨column, hCompared, h⟩ := bind_eq_ok.1 h
    have hColumn : Composed table columns True column :=
      composed_comparedColumn hCompared
        (hName path.base (bind_eq_ok.2 ⟨path, hPath, rfl⟩))
    split at h
    · obtain ⟨word, hWord, h⟩ := bind_eq_ok.1 h
      rw [← pure_eq_ok.1 h]
      refine hColumn.append (.one (bne_iff_ne.2 ?_))
      rintro rfl
      exact absurd (isWord_isTest hWord) (by decide)
    · split at h
      · exact absurd h Result.refuse_ne_ok
      · rw [← pure_eq_ok.1 h]
        exact composed_membership hColumn _
      · rw [← pure_eq_ok.1 h]
        exact composed_membership hColumn _
    · exact composed_comparison hColumn h

theorem composed_conditionFragment {c : Condition} {fragment : Fragment}
    (h : conditionFragment c = .ok fragment)
    (hNames : ∀ f ∈ c.filters, ReadAs columns f.column) :
    Composed table columns True fragment := by
  cases c with
  | single f =>
      exact composed_filterFragment h (hNames f List.mem_cons_self)
  | anyOf members =>
      obtain ⟨parts, hParts, h⟩ := bind_eq_ok.1 h
      rw [← pure_eq_ok.1 h]
      have hAll : ∀ part ∈ parts, Composed table columns True part :=
        .of_mapM hParts fun f hMem part hPart =>
          composed_filterFragment hPart (hNames f hMem)
      exact .plain rfl ((Composed.join rfl hAll).append (.one rfl))

/-- A WHERE clause reaches the columns that its filters name. -/
theorem composed_whereClause {filters : List Filter} {fragment : Fragment}
    (h : whereClause filters = .ok fragment)
    (hNames : ∀ f ∈ filters, ReadAs columns f.column) :
    Composed table columns True fragment := by
  obtain ⟨parts, hParts, h⟩ := bind_eq_ok.1 h
  have hAll : ∀ part ∈ parts, Composed table columns True part := by
    refine .of_mapM hParts fun c hMem part hPart => ?_
    refine composed_conditionFragment hPart fun f hf => hNames f ?_
    exact Filter.mem_of_mem_conditionsFrom (List.Subset.refl filters) hMem f hf
  cases parts with
  | nil =>
      rw [← pure_eq_ok.1 h]
      exact .nil
  | cons part others =>
      rw [← pure_eq_ok.1 h]
      exact .plain rfl (.join rfl hAll)

/-! ## Page bounds, rows and assignments -/

theorem composed_boundClause {w : Word} (h : (Piece.word w).isPlain = true)
    (bound : Option Int) :
    Composed table columns True (boundClause w bound) := by
  cases bound with
  | none => exact .nil
  | some n => exact .plain h (.bind trivial .nil)

theorem composed_recordRow {names : List String} {record : Fields}
    {fragment : Fragment} (h : recordRow table names record = .ok fragment) :
    Composed other columns True fragment := by
  obtain ⟨values, -, h⟩ := bind_eq_ok.1 h
  rw [← pure_eq_ok.1 h]
  refine .plain rfl ((Composed.commaList fun part hPart => ?_).append
    (.one rfl))
  obtain ⟨value, -, rfl⟩ := List.mem_map.1 hPart
  exact .bind trivial .nil

theorem composed_assignment {field : String × Value} {fragment : Fragment}
    (h : assignment table field = .ok fragment) (hName : columns field.1) :
    Composed other columns True fragment := by
  obtain ⟨name, hColumn, h⟩ := bind_eq_ok.1 h
  obtain ⟨value, -, h⟩ := bind_eq_ok.1 h
  rw [← pure_eq_ok.1 h]
  exact (composed_column hColumn hName).append
    (.plain rfl (.bind trivial .nil))

end Sql
end TableGate
