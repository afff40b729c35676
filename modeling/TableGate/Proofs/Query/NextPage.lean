import TableGate.Proofs.Sql.Keyset
import TableGate.Proofs.Sql.Source
import TableGate.Query.NextPage

/-!
# Pages that link to the next one

The link of a page is read from its last row, by the name of the keyset
column. The names of a row are those of the select list, and a later name
takes the place of an earlier one. So a full page links to the next one if the
select list shows the keyset column under its own name and nothing after it
takes the name; if not, the walk of a client ends at the first page. The
column that a token spells as a path is no name of a row at all.

## Main results

* `exists_shown`: where the keyset column is shown, it is the last column of
  its name.
* `get?_decodeRow`: a row holds the cell of the last column of a name.
* `nextCursor_of_notMem`: rows without a column of the name link to nothing.
* `full_page_links`: a short page does not link to another, and a full page
  does if its rows show a keyset column with a value.
* `full_page_unlinked`: a full page that leaves the keyset column out does not
  link to the next.
-/

namespace TableGate

open Sql (ColumnsOf Makes ResultColumn resultColumns? Shows)

/-! ## Names of a row -/

/-- The select list shows a column under its name: it names the column, or
nothing at all, and what comes after it has another name. -/
structure Params.ShowsColumn (params : Params) (column : String) : Prop where
  selected : Shows column params.select
  alone : params.select.filter (· != "*") = [] → params.aggregations = []
  kept : ∀ a ∈ params.aggregations, a.outputName ≠ column

theorem exists_last_of_mem {α : Type} {x : α} {xs : List α} (h : x ∈ xs) :
    ∃ before after, xs = before ++ x :: after ∧ x ∉ after := by
  obtain ⟨after, before, hReverse, hNew⟩ :=
    List.eq_append_cons_of_mem (List.mem_reverse.2 h)
  refine ⟨before.reverse, after.reverse, ?_,
    fun hMem => hNew (List.mem_reverse.1 hMem)⟩
  have hBack := congrArg List.reverse hReverse
  simpa using hBack

/-- Where a column is shown, it is the last of its name in the result. -/
theorem Sql.ColumnsOf.exists_shown {table : Table} {params : Params}
    {columns : List ResultColumn} {k : Identifier}
    (h : ColumnsOf table params columns) (hShown : params.ShowsColumn k.text)
    (hColumn : k.text ∈ table.columnNames) :
    ∃ before after, columns = before ++ ⟨k.text, some k.text⟩ :: after ∧
      ∀ later ∈ after, later.name ≠ k.text := by
  cases h with
  | all =>
      obtain ⟨before, after, hNames, hLast⟩ := exists_last_of_mem hColumn
      refine ⟨before.map fun name => ⟨name, some name⟩,
        after.map fun name => ⟨name, some name⟩, ?_, fun later hLater => ?_⟩
      · rw [hNames, List.map_append, List.map_cons]
      · obtain ⟨name, hName, rfl⟩ := List.mem_map.1 hLater
        rintro rfl
        exact hLast hName
  | items hSome hItems =>
      obtain ⟨hSelected, hAlone, hKept⟩ := hShown
      generalize params.select = select at hSome hItems hSelected hAlone
      cases hSelected with
      | all hNone =>
          exact absurd (hAlone hNone) (hSome.resolve_left fun h => h hNone)
      | @item before after hLater =>
          have hNamed : (k.text :: after).filter (· != "*") =
              k.text :: after.filter (· != "*") :=
            List.filter_cons_of_pos (bne_iff_ne.2 k.text_ne_star)
          rw [List.filter_append, hNamed] at hItems
          obtain ⟨found, c, others, rfl, -, ⟨path, hPath, rfl⟩, hAfter⟩ :=
            Result.exists_split_forall₂ hItems
          rw [k.ofColumn_text] at hPath
          obtain rfl := Except.ok.inj hPath
          refine ⟨found, others ++
            params.aggregations.map ResultColumn.ofAggregation, ?_,
            fun later hMem => ?_⟩
          · rw [List.append_assoc]
            rfl
          · rcases List.mem_append.1 hMem with hItem | hCall
            · obtain ⟨item, hMade, path, hPath, rfl⟩ :=
                Result.exists_of_mem_forall₂ hAfter hItem
              exact hLater item (List.mem_filter.1 hMade).1 path hPath
            · obtain ⟨a, ha, rfl⟩ := List.mem_map.1 hCall
              exact hKept a ha

/-! ## Pages of a table -/

/-- A row of a table: what stands in its columns. -/
abbrev Record := String → Value

/-- The cells of a result show a row of a table: where a column of the result
is one of the table, the cell is what stands there. -/
def Record.ShownIn (record : Record) (columns : List ResultColumn)
    (cells : List Value) : Prop :=
  List.Forall₂ (fun column cell => ∀ name, column.shows = some name →
    cell = record name) columns cells

/-- A row holds the cell of the last column of a name. -/
theorem Record.get?_decodeRow {record : Record}
    {before after : List ResultColumn} {name : String} {cells : List Value}
    (h : record.ShownIn (before ++ ⟨name, some name⟩ :: after) cells)
    (hAfter : ∀ later ∈ after, later.name ≠ name) :
    Fields.get? (decodeRow
      ((before ++ ⟨name, some name⟩ :: after).map (·.name)) cells) name =
        some (decodeValue (record name)) := by
  obtain ⟨front, cell, back, rfl, hFront, hCell, -⟩ :=
    Result.exists_split_forall₂ h
  have hLength : (before.map (·.name)).length =
      (front.map decodeValue).length := by
    rw [List.length_map, List.length_map, List.Forall₂.length_eq hFront]
  rw [← hCell name rfl, decodeRow, List.map_append, List.map_append,
    List.zip_append hLength]
  refine Fields.get?_ofPairs_append fun later hLater => ?_
  obtain ⟨c, hc, hName⟩ := List.mem_map.1 (List.of_mem_zip hLater).1
  rw [← hName]
  exact hAfter c hc

/-- A name that is no column of the result is none of a row. -/
theorem get?_decodeRow_of_notMem {keys : List String} {name : String}
    (h : name ∉ keys) (cells : List Value) :
    Fields.get? (decodeRow keys cells) name = none := by
  cases hHeld : Fields.get? (decodeRow keys cells) name with
  | none => rfl
  | some value =>
      exact absurd (List.of_mem_zip (Fields.mem_of_get?_ofPairs hHeld)).1 h

/-- The result of a SELECT shows rows of a table: it has the columns of the
select list, and in its rows stands what stands in those of the table. -/
def QueryResult.ShowsRecords (result : QueryResult) (table : Table)
    (s : Sql.Statement) (records : List Record) : Prop :=
  ∃ columns, (s.clause? .select).bind (resultColumns? table) = some columns ∧
    result.keys = columns.map (·.name) ∧
    List.Forall₂ (fun record cells => record.ShownIn columns cells)
      records result.rows

/-! ## Links -/

namespace Params

variable {table : Table} {params : Params} {s : Sql.Statement}
  {column : String}

/-- A keyset column that is read as it is is a column of the table. -/
theorem Requested.exists_keyset (hRequested : params.Requested)
    (hToken : params.TokenIsPlain) (hValid : params.validate table = .ok ())
    (hSelect : Sql.select table params = .ok s)
    (hColumn : params.keysetColumn = some column) :
    ∃ k : Identifier, k.text = column ∧ column ∈ table.columnNames := by
  obtain ⟨k, rfl, -⟩ :=
    Sql.keyedOn_select hRequested hToken hSelect hColumn
  refine ⟨k, rfl, ?_⟩
  have hRead := (within_of_validate hValid).keysetColumn hColumn
  refine hRead k.text ?_
  rw [baseColumn, k.ofColumn_text]
  rfl

/-- A page whose rows have no column of the name of the keyset column links to
nothing. -/
theorem nextCursor_of_notMem {result : QueryResult} {rows : List Row}
    (hRows : result.decodeRows = .ok rows)
    (hColumn : params.keysetColumn = some column) (hKeys : column ∉ result.keys)
    (limit : Option Int) : params.nextCursor rows limit = none := by
  cases hNext : params.nextCursor rows limit with
  | none => rfl
  | some cursor =>
      obtain ⟨name, row, value, hName, hLast, hHeld, -, -⟩ :=
        of_nextCursor hNext
      obtain rfl := Option.some.inj (hColumn.symm.trans hName)
      have hRow := List.mem_of_getLast? hLast
      rw [result.eq_of_decodeRows hRows] at hRow
      obtain ⟨cells, -, rfl⟩ := List.mem_map.1 hRow
      rw [get?_decodeRow_of_notMem hKeys] at hHeld
      cases hHeld

/-- A short page does not link to another. A full page links to the next one,
if its rows show the keyset column under its own name, the column is no path
of a token and what it holds is not nothing and can be written. -/
theorem full_page_links (hRequested : params.Requested)
    (hValid : params.validate table = .ok ())
    (hSelect : Sql.select table params = .ok s)
    (hColumn : params.keysetColumn = some column) {n : Int}
    (hLimit : params.limit = some n) (hPos : 1 ≤ n) {result : QueryResult}
    {records : List Record} (hRecords : result.ShowsRecords table s records)
    {rows : List Row} (hRows : result.decodeRows = .ok rows) :
    ((rows.length : Int) < n → params.nextCursor rows params.limit = none) ∧
    ((rows.length : Int) = n → params.TokenIsPlain →
      params.ShowsColumn column →
      (∀ record ∈ records, decodeValue (record column) ≠ .null ∧
        (decodeValue (record column)).writeFault? .compactAscii = none) →
      ∃ record ∈ records, ∃ token,
        params.nextCursor rows params.limit =
          some ⟨column, decodeValue (record column), params.keysetDesc⟩ ∧
        Cursor.token
          ⟨column, decodeValue (record column), params.keysetDesc⟩ =
            .ok token) := by
  refine ⟨fun hShort => ?_, fun hFull hToken hShown hValues => ?_⟩
  · rw [hLimit]
    exact nextCursor_of_lt hShort params
  · obtain ⟨k, rfl, hTable⟩ :=
      hRequested.exists_keyset hToken hValid hSelect hColumn
    obtain ⟨columns, hColumns, hKeys, hShows⟩ := hRecords
    obtain rfl := result.eq_of_decodeRows hRows
    have hSome : result.rows ≠ [] := by
      rintro hNone
      rw [hNone] at hFull
      simp at hFull
      omega
    have hLast := List.getLast?_eq_some_getLast hSome
    obtain ⟨record, hRecord, hCells⟩ :=
      Result.exists_of_mem_forall₂ hShows (List.mem_of_getLast? hLast)
    obtain ⟨made, hMade, hOf⟩ := (Sql.selectClauses hSelect).columns
    obtain rfl := Option.some.inj (hMade.symm.trans hColumns)
    obtain ⟨before, after, rfl, hAfter⟩ := hOf.exists_shown hShown hTable
    have hHeld := Record.get?_decodeRow hCells hAfter
    rw [← hKeys] at hHeld
    obtain ⟨hValue, hFault⟩ := hValues record hRecord
    have hRow : (result.rows.map (decodeRow result.keys)).getLast? =
        some (decodeRow result.keys (result.rows.getLast hSome)) := by
      rw [List.getLast?_map, hLast, Option.map_some]
    refine ⟨record, hRecord, Cursor.tokenText
      ⟨k.text, decodeValue (record k.text), params.keysetDesc⟩, ?_,
      Cursor.token_eq_ok_iff.2 ⟨hFault, rfl⟩⟩
    rw [hLimit]
    exact nextCursor_of_getLast? hColumn hRow (by omega) hHeld hValue

/-- Columns selected from a table, one row at a time. -/
def oneById (select : List String) : Params where
  select := select
  limit := some 1
  cursorColumn := some "id"

/-- A row of the table. -/
def firstRecord : Record := fun name =>
  if name = "id" then .int 1 else .text "a"

/-- The results of SELECTs that list columns show a row by its cells. -/
theorem showsRecords_oneById {select : List String} {s : Sql.Statement}
    (hColumns : (s.clause? .select).bind (resultColumns? Sql.namedItems) =
      some (select.map fun name => ⟨name, some name⟩)) :
    QueryResult.ShowsRecords
      { keys := select, rows := [select.map firstRecord] } Sql.namedItems s
        [firstRecord] := by
  refine ⟨_, hColumns, ?_, .cons ?_ .nil⟩
  · rw [List.map_map]
    exact (List.map_id select).symm
  · rw [Record.ShownIn, List.forall₂_map_left_iff,
      List.forall₂_map_right_iff, List.forall₂_same]
    intro name _ shown hShown
    rw [← Option.some.inj hShown]

theorem full_page_links_items :
    Items.compile [("select", "name,id"), ("cursor_column", "id"),
      ("limit", "1")] = .ok (oneById ["name", "id"]) ∧
    (oneById ["name", "id"]).validate Sql.namedItems = .ok () ∧
    ∃ s, Sql.select Sql.namedItems (oneById ["name", "id"]) = .ok s ∧
      QueryResult.ShowsRecords
        { keys := ["name", "id"], rows := [[.text "a", .int 1]] }
        Sql.namedItems s [firstRecord] ∧
      (oneById ["name", "id"]).ShowsColumn "id" ∧
      ∃ token, (oneById ["name", "id"]).nextCursor
          [[("name", .text "a"), ("id", .int 1)]] (some 1) =
            some ⟨"id", .int 1, false⟩ ∧
        Cursor.token ⟨"id", .int 1, false⟩ = .ok token := by
  have hCompile : Items.compile [("select", "name,id"), ("cursor_column", "id"),
      ("limit", "1")] = .ok (oneById ["name", "id"]) :=
    Result.toOption_eq_some.1 (by decide +kernel)
  have hValid : (oneById ["name", "id"]).validate Sql.namedItems = .ok () :=
    Result.toOption_eq_some.1 (by decide +kernel)
  have hShown : (oneById ["name", "id"]).ShowsColumn "id" := by
    refine ⟨@Shows.item "id" ["name"] [] fun item hItem => ?_,
      fun hNone => ?_, fun a ha => absurd ha List.not_mem_nil⟩
    · exact absurd hItem List.not_mem_nil
    · exact absurd hNone (by decide)
  have hToken : (oneById ["name", "id"]).TokenIsPlain := by
    intro hNone
    cases hNone
  have hSelect : ((Sql.select Sql.namedItems
      (oneById ["name", "id"])).toOption.bind fun s =>
        (s.clause? .select).bind (resultColumns? Sql.namedItems)) =
      some (["name", "id"].map fun name => ⟨name, some name⟩) := by
    decide +kernel
  obtain ⟨s, hs, hColumns⟩ := Option.bind_eq_some_iff.1 hSelect
  have hStatement := Result.toOption_eq_some.1 hs
  have hRecords := showsRecords_oneById hColumns
  have hValues : ∀ record ∈ [firstRecord],
      decodeValue (record "id") ≠ .null ∧
        (decodeValue (record "id")).writeFault? .compactAscii = none := by
    intro record hRecord
    rw [List.mem_singleton.1 hRecord]
    decide +kernel
  obtain ⟨record, hRecord, token, hLink, hWritten⟩ :=
    (full_page_links (.items hCompile) hValid hStatement rfl rfl le_rfl
      hRecords rfl).2 rfl hToken hShown hValues
  obtain rfl := List.mem_singleton.1 hRecord
  exact ⟨hCompile, hValid, s, hStatement, hRecords, hShown, token, hLink,
    hWritten⟩

/-- A full page whose select list leaves the keyset column out does not link
to the next one. -/
theorem full_page_unlinked :
    Items.compile [("select", "name"), ("cursor_column", "id"),
      ("limit", "1")] = .ok (oneById ["name"]) ∧
    (oneById ["name"]).validate Sql.namedItems = .ok () ∧
    ∃ s, Sql.select Sql.namedItems (oneById ["name"]) = .ok s ∧
      QueryResult.ShowsRecords { keys := ["name"], rows := [[.text "a"]] }
        Sql.namedItems s [firstRecord] ∧
      firstRecord "id" = .int 1 ∧
      ∃ rows, QueryResult.decodeRows
          { keys := ["name"], rows := [[.text "a"]] } = .ok rows ∧
        (rows.length : Int) = 1 ∧
        (oneById ["name"]).nextCursor rows (some 1) = none := by
  have hCompile : Items.compile [("select", "name"), ("cursor_column", "id"),
      ("limit", "1")] = .ok (oneById ["name"]) :=
    Result.toOption_eq_some.1 (by decide +kernel)
  have hValid : (oneById ["name"]).validate Sql.namedItems = .ok () :=
    Result.toOption_eq_some.1 (by decide +kernel)
  have hSelect : ((Sql.select Sql.namedItems
      (oneById ["name"])).toOption.bind fun s =>
        (s.clause? .select).bind (resultColumns? Sql.namedItems)) =
      some (["name"].map fun name => ⟨name, some name⟩) := by
    decide +kernel
  obtain ⟨s, hs, hColumns⟩ := Option.bind_eq_some_iff.1 hSelect
  have hRows : QueryResult.decodeRows
      { keys := ["name"], rows := [[.text "a"]] } =
        .ok [[("name", .text "a")]] := rfl
  have hKeys : "id" ∉ ["name"] := by decide
  exact ⟨hCompile, hValid, s, Result.toOption_eq_some.1 hs,
    showsRecords_oneById hColumns, rfl, _, hRows, rfl,
    nextCursor_of_notMem hRows rfl hKeys _⟩

end Params
end TableGate
