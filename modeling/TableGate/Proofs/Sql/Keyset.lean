import TableGate.Proofs.Columns
import TableGate.Proofs.Query.Requested
import TableGate.Proofs.Sql.Paths
import TableGate.Proofs.Sql.Selection

/-!
# Paths and the keyset column

A list request is checked before its SELECT is made: the paths that it selects,
filters by and orders by start from columns that hold JSON documents. The
column of a keyset is no part of that check. Beside a token it has to be a
name; the column in a token itself may be any text, so a token that was not
written here may spell a path, and then the SELECT goes on after that path.

## Main results

* `select_paths`: unless a token spells a path, all paths in the text of a
  SELECT start from columns that hold documents, and the keyset column is
  compared and ordered by as it is.
* `select_follows_token`: a token that spells a path is followed into a column
  of texts.
-/

namespace TableGate

open Result (bind_eq_ok of_check_eq_ok pure_eq_ok refuse_ne_ok)

variable {table : Table} {params : Params}

namespace ColumnPath

/-- A text that is not cut is whole. -/
theorem fst_cutArrows {cs : List Char} (h : (cutArrows cs).2 = []) :
    (cutArrows cs).1 = cs := by
  induction cs using cutArrows.induct with
  | case1 rest text others hCut ih =>
      rw [cutArrows, hCut] at h
      cases h
  | case2 rest hOther text others hCut ih =>
      rw [cutArrows.eq_2 rest hOther, hCut] at h
      cases h
  | case3 c rest hText hJson text others hCut ih =>
      rw [cutArrows.eq_3 c rest hText hJson, hCut] at h ⊢
      rw [hCut] at ih
      exact congrArg (c :: ·) (ih h)
  | case4 => rfl

/-- Without steps a column is what is written, less the blanks around it. -/
theorem eq_of_isPath_eq_false {column : String} {path : ColumnPath}
    (h : ofColumn column = .ok path) (hPlain : path.isPath = false) :
    path = ⟨Text.trim column, []⟩ := by
  unfold ofColumn at h
  dsimp only at h
  split at h
  · next steps hSteps =>
      rw [← Except.ok.inj h] at hPlain ⊢
      obtain rfl : steps = [] := isPath_eq_false_iff.1 hPlain
      have hWhole : (cutArrows (Text.trimChars column.toList)).2 = [] := by
        cases hPieces : (cutArrows (Text.trimChars column.toList)).2 with
        | nil => rfl
        | cons piece others =>
            rw [hPieces, List.mapM_cons] at hSteps
            simp [Option.bind_eq_some_iff] at hSteps
      rw [fst_cutArrows hWhole, Text.trimChars_trimChars, Text.trim]
  · exact absurd h refuse_ne_ok

end ColumnPath

/-! ## The keyset column -/

namespace Params

/-- Whether an entry of an order list orders by the keyset column. -/
def isKeyset (params : Params) (entry : OrderBy) : Bool :=
  some entry.column == params.keysetColumn

/-- Where no other column is named beside it, the column in a token is no
path. -/
def TokenIsPlain (params : Params) : Prop :=
  params.cursorColumn = none → ∀ cursor, params.cursor = some cursor →
    ∀ path, ColumnPath.ofColumn cursor.column = .ok path → path.isPath = false

/-- Then the keyset column is read as it is. -/
theorem Requested.ofColumn_keyset (h : params.Requested)
    (hToken : params.TokenIsPlain) {column : String}
    (hColumn : params.keysetColumn = some column) {path : ColumnPath}
    (hPath : ColumnPath.ofColumn column = .ok path) : path = ⟨column, []⟩ := by
  rcases h.keysetColumn_cases hColumn with
    hName | ⟨hNone, -, read, -, hCursor, rfl⟩
  · have hWhole := Identifier.ofColumn_text
      ⟨column, h.cursorColumn_isName hName⟩
    rw [hPath] at hWhole
    exact Except.ok.inj hWhole
  · have hPlain := hToken hNone read hCursor path hPath
    rw [ColumnPath.eq_of_isPath_eq_false hPath hPlain,
      (h.keysetColumn_visible hColumn).1]

end Params

namespace Sql

variable {s : Statement}

/-- The SELECT goes on after its cursor by a column that is read as it is, and
is ordered by it. -/
structure KeyedOn (params : Params) (name : Identifier) (s : Statement) :
    Prop where
  past : ∀ cursor, params.cursor = some cursor → ∃ conditions,
    s.conjuncts? = some conditions ∧ conditions.getLast? = some
      [[.column name, .word (.compare (if params.keysetDesc then .lt else .gt)),
        .bind cursor.value]]
  order : ∃ keys, order? (s.clause? .orderBy) = some keys ∧
    ∃ key ∈ keys, key.expression = [.column name] ∧
      key.desc = params.keysetDesc

/-- The order of a request is that up to its keyset column, the entry of that
column, and what the request orders by after it. -/
theorem keysetOrder_eq {column : String}
    (h : params.keysetColumn = some column) :
    ∃ entry, keysetOrder params =
        params.order.takeWhile (fun entry => !params.isKeyset entry) ++ entry ::
          (params.order.dropWhile fun entry => !params.isKeyset entry).tail ∧
      entry.column = column ∧ entry.desc = params.keysetDesc := by
  have hAny : (params.order.any fun entry => entry.column == column) =
      params.order.any params.isKeyset := by
    refine congrArg params.order.any (funext fun entry => ?_)
    rw [Params.isKeyset, h, Option.some_beq_some]
  cases hFirst : params.order.find? params.isKeyset with
  | none =>
      have hOther : ∀ entry ∈ params.order,
          params.isKeyset entry = false := fun entry hEntry =>
        Bool.eq_false_iff.2 (List.find?_eq_none.1 hFirst entry hEntry)
      refine ⟨{ column, desc := params.keysetDesc }, ?_, rfl, rfl⟩
      rw [List.takeWhile_eq_self_iff.2 (by simpa using hOther),
        List.dropWhile_eq_nil_iff.2 (by simpa using hOther)]
      simp only [keysetOrder, h, hAny, List.any_eq_false.2 (by simpa using
        hOther), Bool.false_eq_true, if_false, List.tail_nil]
  | some entry =>
      obtain ⟨hSame, front, back, hSplit, hOther⟩ :=
        List.find?_eq_some_iff_append.1 hFirst
      have hMem : entry ∈ params.order := List.mem_of_find?_eq_some hFirst
      have hTake : params.order.takeWhile
          (fun entry => !params.isKeyset entry) = front := by
        rw [hSplit, List.takeWhile_append_of_pos hOther,
          List.takeWhile_cons_of_neg (by simpa using hSame), List.append_nil]
      have hDrop : params.order.dropWhile
          (fun entry => !params.isKeyset entry) = entry :: back := by
        rw [hSplit, List.dropWhile_append_of_pos hOther,
          List.dropWhile_cons_of_neg (by simpa using hSame)]
      refine ⟨entry, ?_, ?_, ?_⟩
      · rw [hTake, hDrop, List.tail_cons, ← hSplit]
        simp only [keysetOrder, h, hAny,
          List.any_eq_true.2 ⟨entry, hMem, hSame⟩, if_true]
      · exact Option.some.inj ((beq_iff_eq.1 hSame).trans h)
      · have hKeyset : params.order.find? (fun entry =>
            some entry.column == params.keysetColumn) = some entry := hFirst
        rw [Params.keysetDesc, hKeyset]

/-- Some entry of the order is by the keyset column, in its direction. -/
theorem exists_mem_keysetOrder {column : String}
    (h : params.keysetColumn = some column) :
    ∃ entry ∈ keysetOrder params, entry.column = column ∧
      entry.desc = params.keysetDesc := by
  obtain ⟨entry, hSplit, hColumn, hDesc⟩ := keysetOrder_eq h
  exact ⟨entry, by simp [hSplit], hColumn, hDesc⟩

/-- A column is compared with a position as it is. -/
theorem filterFragment_position (name : Identifier) (desc : Bool) {raw : Value}
    (hPosition : Cursor.isPosition raw = true) {value : FilterValue}
    (hValue : FilterValue.ofValue raw = .ok value) :
    filterFragment {
        column := name.text
        operator := some (if desc then .lt else .gt)
        value } =
      .ok [.column name, .word (.compare (if desc then .lt else .gt)),
        .bind raw] := by
  have hCompared : ∀ operator,
      comparedColumn ⟨name.text, []⟩ operator = .ok [.column name] := by
    intro operator
    rw [comparedColumn, name.pathFragment_text]
    rfl
  unfold Cursor.isPosition at hPosition
  split at hPosition
  case h_5 => exact absurd hPosition Bool.false_ne_true
  all_goals
    rw [← Except.ok.inj hValue]
    cases desc <;>
      exact bind_eq_ok.2
        ⟨_, name.ofColumn_text, bind_eq_ok.2 ⟨_, hCompared _, rfl⟩⟩

/-- The keyset column of a SELECT is a name, and a sort key. -/
theorem exists_sortKey (hRequested : params.Requested)
    (hToken : params.TokenIsPlain) {column : String}
    (hColumn : params.keysetColumn = some column) {keys : List SortKey}
    (hKeys : List.Forall₂ SortKeyOf (keysetOrder params) keys) :
    ∃ name : Identifier, name.text = column ∧ ∃ key ∈ keys,
      key.expression = [.column name] ∧ key.desc = params.keysetDesc := by
  obtain ⟨entry, hEntry, rfl, hDesc⟩ := exists_mem_keysetOrder hColumn
  obtain ⟨key, hKey, hKeyDesc, path, hPath, hFragment⟩ :=
    Result.exists_of_mem_forall₂ hKeys.flip hEntry
  obtain rfl := hRequested.ofColumn_keyset hToken hColumn hPath
  obtain ⟨piece, hPiece, hExpression⟩ := bind_eq_ok.1 hFragment
  obtain ⟨name, hName, hPiece⟩ := bind_eq_ok.1 hPiece
  rw [← pure_eq_ok.1 hPiece] at hExpression
  exact ⟨name, identifier_eq_ok hName, key, hKey,
    (pure_eq_ok.1 hExpression).symm, hKeyDesc.trans hDesc⟩

/-- What the SELECT of a request says about its keyset column. -/
theorem keyedOn_select (hRequested : params.Requested)
    (hToken : params.TokenIsPlain) (h : select table params = .ok s)
    {column : String} (hColumn : params.keysetColumn = some column) :
    ∃ name : Identifier, name.text = column ∧ KeyedOn params name s := by
  obtain ⟨-, ⟨filters, hFilters, hConjuncts, hRendered⟩, keys, hKeys, hOrder⟩ :=
    selectClauses h
  obtain ⟨name, rfl, hKey⟩ := exists_sortKey hRequested hToken hColumn hOrder
  refine ⟨name, rfl, ⟨fun cursor hCursor => ?_, keys, hKeys, hKey⟩⟩
  simp only [keysetFilters, hCursor, hColumn, Option.getD_some] at hFilters
  obtain ⟨value, hValue, hFilters⟩ := bind_eq_ok.1 hFilters
  rw [← pure_eq_ok.1 hFilters] at hConjuncts hRendered
  obtain ⟨token, read, hRead, hIs⟩ := hRequested.cursor_eq hCursor
  have hPosition : Cursor.isPosition cursor.value = true := by
    rw [hIs]
    exact (Cursor.of_ofToken hRead).2
  have hLast := filterFragment_position name params.keysetDesc hPosition hValue
  rw [hRendered params.filters.length _ List.getElem?_concat_length] at hLast
  refine ⟨_, hConjuncts, ?_⟩
  rw [List.getLast?_map, Filter.getLast?_conjuncts_concat _ rfl,
    ← Except.ok.inj hLast]
  rfl

/-! ## Paths -/

/-- A column that passes the check starts its path from one that holds
documents. -/
theorem rootedAt_of_checkPath {column : String}
    (h : Params.checkPath table column = .ok ()) :
    RootedAt (fun base => table.isJsonColumn base = true) column := by
  intro path hPath hSteps
  obtain ⟨read, hRead, h⟩ := bind_eq_ok.1 h
  obtain rfl := Except.ok.inj (hRead.symm.trans hPath)
  by_contra hOther
  rw [hSteps, Bool.eq_false_iff.2 hOther] at h
  exact refuse_ne_ok h

/-- A column that is read as it is starts no path. -/
theorem rootedAt_of_plain {roots : String → Prop} {column : String}
    (h : ∀ path, ColumnPath.ofColumn column = .ok path →
      path = ⟨column, []⟩) : RootedAt roots column := by
  intro path hPath hSteps
  rw [h path hPath] at hSteps
  exact absurd hSteps Bool.false_ne_true

/-- The paths of a request that passes the check start from columns that hold
documents. -/
theorem rootedAt_of_validate (h : params.validate table = .ok ()) :
    ∀ column ∈ params.pathColumns,
      RootedAt (fun base => table.isJsonColumn base = true) column := by
  obtain ⟨-, -, h⟩ := bind_eq_ok.1 h
  obtain ⟨columns, -, h⟩ := bind_eq_ok.1 h
  obtain ⟨-, -, h⟩ := bind_eq_ok.1 h
  obtain ⟨⟨⟩, hPaths, -⟩ := bind_eq_ok.1 h
  exact fun column hMem =>
    rootedAt_of_checkPath (Result.forM_eq_ok.1 hPaths column hMem)

/-- So do those of its SELECT, unless its token spells one. -/
theorem rooted_select (hRequested : params.Requested)
    (hToken : params.TokenIsPlain) (hValid : params.validate table = .ok ())
    (h : select table params = .ok s) :
    Rooted (fun base => table.isJsonColumn base = true) s.pieces := by
  have hPaths := rootedAt_of_validate hValid
  have hKeyset : ∀ column, params.keysetColumn = some column →
      RootedAt (fun base => table.isJsonColumn base = true) column :=
    fun column hColumn =>
      rootedAt_of_plain fun _ => hRequested.ofColumn_keyset hToken hColumn
  have hFiltered : ∀ f ∈ params.filters,
      RootedAt (fun base => table.isJsonColumn base = true) f.column :=
    fun f hf => hPaths _ (List.mem_append_left _
      (List.mem_append_right _ (List.mem_map_of_mem hf)))
  have hOrdered : ∀ entry ∈ params.order,
      RootedAt (fun base => table.isJsonColumn base = true) entry.column :=
    fun entry hEntry =>
      hPaths _ (List.mem_append_right _ (List.mem_map_of_mem hEntry))
  obtain ⟨target, hTarget, h⟩ := bind_eq_ok.1 h
  obtain ⟨list, hList, h⟩ := bind_eq_ok.1 h
  obtain ⟨filters, hFilters, h⟩ := bind_eq_ok.1 h
  obtain ⟨wherePart, hWhere, h⟩ := bind_eq_ok.1 h
  obtain ⟨groupPart, hGroup, h⟩ := bind_eq_ok.1 h
  obtain ⟨orderPart, hOrder, h⟩ := bind_eq_ok.1 h
  rw [← pure_eq_ok.1 h]
  have hSelected := rooted_selectList hList fun name hName =>
    hPaths name (List.mem_append_left _ (List.mem_append_left _ hName))
  have hLead : Rooted (fun base => table.isJsonColumn base = true)
      (.word .select :: list ++ [.word .fromTable, target]) :=
    .piece rfl (hSelected.append (.piece rfl (rooted_tablePiece hTarget)))
  have hRows := rooted_whereClause hWhere
    (columns_keysetFilters hFiltered hKeyset hFilters)
  have hSorted := rooted_orderClause hOrder
    (columns_keysetOrder hOrdered hKeyset)
  exact ((((hLead.append hRows).append (rooted_groupClause hGroup)).append
    hSorted).append (rooted_boundClause rfl _)).append
      (rooted_boundClause rfl _)

/-- Paths in the SELECT of a checked request start from columns that hold
documents, and its keyset column is compared and ordered by as it is, if the
token of the request does not spell a path of its own. -/
theorem select_paths (hRequested : params.Requested)
    (hToken : params.TokenIsPlain) (hValid : params.validate table = .ok ())
    (h : select table params = .ok s) :
    PathsFrom (fun base => table.isJsonColumn base = true) s.sql.toList ∧
      ∀ column, params.keysetColumn = some column →
        ∃ name : Identifier, name.text = column ∧ KeyedOn params name s := by
  refine ⟨?_, fun column => keyedOn_select hRequested hToken h⟩
  rw [Statement.sql, toList_textFrom]
  refine (rooted_select hRequested hToken hValid h).pathsFrom
    (fun n hMem => ?_) (fun n hMem => ?_) 0
  · simp [dollar, notMem_natDigits (c := '-') (by decide) n] at hMem
  · simp [dollar, notMem_natDigits (c := '\x22') (by decide) n] at hMem

/-- Paths in every clause that may have them, past a position of a column. -/
def pathItems : Params where
  select := ["id", "data->tags->0"]
  filters := [{
    column := "data->>size"
    operator := some .gt
    value := .text "1" }]
  order := [{ column := "data->rank", desc := true }]
  cursor := some ⟨"id", .int 3, false⟩

theorem select_paths_items :
    Items.compile [("select", "id,data->tags->0"), ("data->>size", "gt.1"),
      ("order", "data->rank.desc"), ("cursor", "eyJjIjoiaWQiLCJ2IjozfQ==")] =
        .ok pathItems ∧
      pathItems.TokenIsPlain ∧ pathItems.validate items = .ok () ∧
      ∃ s, select items pathItems = .ok s ∧
        PathsFrom (fun base => items.isJsonColumn base = true) s.sql.toList ∧
        ∀ column, pathItems.keysetColumn = some column →
          ∃ name : Identifier, name.text = column ∧
            KeyedOn pathItems name s := by
  have hCompile : Items.compile [("select", "id,data->tags->0"),
      ("data->>size", "gt.1"), ("order", "data->rank.desc"),
      ("cursor", "eyJjIjoiaWQiLCJ2IjozfQ==")] = .ok pathItems :=
    Result.toOption_eq_some.1 (by decide +kernel)
  have hToken : pathItems.TokenIsPlain := by
    intro _ cursor hCursor path hPath
    obtain rfl := Option.some.inj hCursor
    rw [Identifier.ofColumn_text ⟨"id", by decide⟩] at hPath
    rw [← Except.ok.inj hPath]
    rfl
  have hValid : pathItems.validate items = .ok () :=
    Result.toOption_eq_some.1 (by decide +kernel)
  have hSelect : (select items pathItems).toOption.isSome = true := by
    decide +kernel
  obtain ⟨s, hs⟩ := Option.isSome_iff_exists.1 hSelect
  have h := Result.toOption_eq_some.1 hs
  exact ⟨hCompile, hToken, hValid, s, h,
    select_paths (.items hCompile) hToken hValid h⟩

/-- A table without documents. -/
def namedItems : Table where
  schema := "public"
  name := "items"
  primaryKey := ["id"]
  columns := [{ name := "id", dataType := "integer" }, { name := "name" }]

theorem isJsonColumn_namedItems (name : String) :
    namedItems.isJsonColumn name = false := by
  have hAll : ∀ column ∈ namedItems.columns, column.isJson = false := by
    decide +kernel
  rw [Table.isJsonColumn]
  cases hFound : namedItems.column? name with
  | none => rfl
  | some column => exact hAll column (List.mem_of_find?_eq_some hFound)

/-- A request whose token spells a path. -/
def pastPath : Params where
  cursor := some ⟨"name->x", .int 1, false⟩

/-- A token that spells a path is followed into a column that holds no
documents. -/
theorem select_follows_token :
    Items.compile [("cursor", "eyJjIjoibmFtZS0-eCIsInYiOjF9")] =
        .ok pastPath ∧
      pastPath.validate namedItems = .ok () ∧
      ∃ s, select namedItems pastPath = .ok s ∧
        s.sql = "SELECT * FROM \"public\".\"items\" WHERE \"name\"->'x' > $1" ++
          " ORDER BY \"name\"->'x' ASC" ∧
        ¬PathsFrom (fun base => namedItems.isJsonColumn base = true)
          s.sql.toList := by
  have hCompile : Items.compile
      [("cursor", "eyJjIjoibmFtZS0-eCIsInYiOjF9")] = .ok pastPath :=
    Result.toOption_eq_some.1 (by decide +kernel)
  have hValid : pastPath.validate namedItems = .ok () :=
    Result.toOption_eq_some.1 (by decide +kernel)
  have hSelect : ((select namedItems pastPath).toOption.map (·.sql)) = some
      ("SELECT * FROM \"public\".\"items\" WHERE \"name\"->'x' > $1" ++
        " ORDER BY \"name\"->'x' ASC") := by
    decide +kernel
  obtain ⟨s, hs, hText⟩ := Option.map_eq_some_iff.1 hSelect
  refine ⟨hCompile, hValid, s, Result.toOption_eq_some.1 hs, hText,
    fun hPaths => ?_⟩
  have hArrow : s.sql.toList =
      "SELECT * FROM \"public\".\"items\" WHERE \"name\"".toList ++
        '-' :: '>' :: "'x' > $1 ORDER BY \"name\"->'x' ASC".toList := by
    rw [hText]
    decide +kernel
  obtain ⟨lead, name, steps, hAt, hRoot⟩ := hPaths _ _ hArrow
  rw [isJsonColumn_namedItems] at hRoot
  exact absurd hRoot Bool.false_ne_true

end Sql
end TableGate
