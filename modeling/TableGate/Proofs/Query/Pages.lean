import TableGate.Proofs.Cursor
import TableGate.Proofs.Sql.Source
import TableGate.Query.NextPage

/-!
# The pages of a list

A request that names a keyset column and a limit is answered page by page: the
same request is sent again, each time with the position of the last row so
far. The direction travels in the token, so it has to come out the same on
every page; the keyset column is compared with the position and begins the
order, so a page starts where the one before it ended.

## Main results

* `exists_select_past`: if the first page has a statement, so has every page.
* `Rest.later`: past the last row of a page, the rows after it are left.
* `gives_past_iff`: the rows of a page are the first of those past its
  position.
* `WalksBy.nextCursor_past`: a full page links to the position of its last row.
-/

namespace TableGate.Params

open Sql (Source Precedes Target Selects)
open Result (bind_eq_ok pure_eq_ok)

/-- A request walks by a column, so many rows at a time: it names the column,
orders by it first or by nothing, and starts at the beginning. -/
structure WalksBy (params : Params) (k : Identifier) (n : Nat) : Prop where
  cursorColumn : params.cursorColumn = some k.text
  cursor : params.cursor = none
  aggregations : params.aggregations = []
  groupBy : params.groupBy = []
  offset : params.offset = none
  limit : params.limit = some (n : Int)
  limit_pos : 0 < n
  order : ∀ first ∈ params.order.head?, first.column = k.text

/-- The request for the rows past a position of a column. -/
def past (params : Params) (k : Identifier) (position : Option Int) : Params :=
  { params with
    cursor := position.map fun n => ⟨k.text, .int n, params.keysetDesc⟩ }

/-- The comparison of the column with a position. -/
def bound (params : Params) (k : Identifier) (n : Int) : Filter where
  column := k.text
  operator := some (if params.keysetDesc then .lt else .gt)
  value := .int n

variable {params : Params} {k : Identifier} {n : Nat} {position : Option Int}

theorem past_none (h : params.cursor = none) : params.past k none = params := by
  rw [past, Option.map_none, ← h]

/-! ## Direction and order -/

theorem keysetDesc_of_first {first : OrderBy} {others : List OrderBy}
    (hColumn : params.keysetColumn = some k.text)
    (hOrder : params.order = first :: others) (hFirst : first.column = k.text) :
    params.keysetDesc = first.desc := by
  simp [keysetDesc, hOrder, hColumn, hFirst]

namespace WalksBy

theorem keysetColumn_past (h : params.WalksBy k n) (position : Option Int) :
    (params.past k position).keysetColumn = some k.text := by
  simp [keysetColumn, past, h.cursorColumn, k.text_ne_empty]

theorem keysetColumn_eq (h : params.WalksBy k n) :
    params.keysetColumn = some k.text := by
  have hFirst := h.keysetColumn_past none
  rwa [past_none h.cursor] at hFirst

/-- The direction is the same on every page: it is read from the order or else
from the token, where it was put. -/
theorem keysetDesc_past (h : params.WalksBy k n) (position : Option Int) :
    (params.past k position).keysetDesc = params.keysetDesc := by
  cases hOrder : params.order with
  | nil =>
      have hNone : params.keysetDesc = false := by
        simp [keysetDesc, hOrder, h.cursor]
      have hEmpty : (params.past k position).order = [] := hOrder
      rw [keysetDesc, hEmpty, List.find?_nil, past]
      cases position with
      | none => exact hNone.symm
      | some => rfl
  | cons first others =>
      have hFirst : first.column = k.text := h.order first (by simp [hOrder])
      rw [keysetDesc_of_first (h.keysetColumn_past position) hOrder hFirst,
        keysetDesc_of_first h.keysetColumn_eq hOrder hFirst]

/-- The order is the same on every page. -/
theorem keysetOrder_past (h : params.WalksBy k n) (position : Option Int) :
    Sql.keysetOrder (params.past k position) = Sql.keysetOrder params := by
  rw [Sql.keysetOrder, Sql.keysetOrder, h.keysetColumn_past, h.keysetColumn_eq,
    h.keysetDesc_past]
  rfl

/-- The keyset column begins the order, in the direction of the walk. -/
theorem exists_keysetOrder (h : params.WalksBy k n) :
    ∃ first others, Sql.keysetOrder params = first :: others ∧
      first.column = k.text ∧ first.desc = params.keysetDesc := by
  have hColumn := h.keysetColumn_eq
  cases hOrder : params.order with
  | nil =>
      refine ⟨{ column := k.text, desc := params.keysetDesc }, [], ?_, rfl, rfl⟩
      simp [Sql.keysetOrder, hColumn, hOrder]
  | cons first others =>
      have hFirst : first.column = k.text := h.order first (by simp [hOrder])
      refine ⟨first, others, ?_, hFirst,
        (keysetDesc_of_first hColumn hOrder hFirst).symm⟩
      simp [Sql.keysetOrder, hColumn, hOrder, hFirst]

end WalksBy

/-! ## The filter a position adds -/

/-- A position adds its comparison to the filters. -/
theorem WalksBy.keysetFilters_past (h : params.WalksBy k n)
    (position : Option Int) :
    Sql.keysetFilters (params.past k position) =
      .ok (params.filters ++ position.toList.map (params.bound k)) := by
  have hColumn := h.keysetColumn_past position
  have hDesc := h.keysetDesc_past position
  cases position with
  | none =>
      show Except.ok params.filters = _
      rw [Option.toList_none, List.map_nil, List.append_nil]
  | some m =>
      rw [Sql.keysetFilters, hColumn, hDesc]
      rfl

theorem filterFragment_bound (params : Params) (k : Identifier) (m : Int) :
    Sql.filterFragment (params.bound k m) = .ok [.column k,
      .word (.compare (if params.keysetDesc then .lt else .gt)),
      .bind (.int m)] := by
  have hColumn : ∀ operator : Operator,
      Sql.comparedColumn ⟨k.text, []⟩ operator = .ok [.column k] := by
    intro operator
    rw [Sql.comparedColumn, k.pathFragment_text]
    rfl
  rw [Sql.filterFragment, bound, k.ofColumn_text]
  cases params.keysetDesc
  all_goals
    show (do let column ← Sql.comparedColumn ⟨k.text, []⟩ _; _) = _
    rw [hColumn]
    rfl

/-- If the first page has a statement, so has every page. -/
theorem exists_select_past (h : params.WalksBy k n) {table : Table}
    {s : Sql.Statement} (hSelect : Sql.select table params = .ok s)
    (position : Option Int) :
    ∃ later, Sql.select table (params.past k position) = .ok later := by
  obtain ⟨target, hTarget, hSelect⟩ := bind_eq_ok.1 hSelect
  obtain ⟨list, hList, hSelect⟩ := bind_eq_ok.1 hSelect
  obtain ⟨filters, hFilters, hSelect⟩ := bind_eq_ok.1 hSelect
  obtain ⟨wherePart, hWhere, hSelect⟩ := bind_eq_ok.1 hSelect
  obtain ⟨groupPart, hGroup, hSelect⟩ := bind_eq_ok.1 hSelect
  obtain ⟨orderPart, hOrder, -⟩ := bind_eq_ok.1 hSelect
  have hFirst := h.keysetFilters_past none
  rw [past_none h.cursor, hFilters] at hFirst
  obtain rfl : filters = params.filters := by
    simpa using Except.ok.inj hFirst
  have hRendered := Sql.exists_whereClause_iff.1 ⟨wherePart, hWhere⟩
  have hAll : ∀ f ∈ params.filters ++ position.toList.map (params.bound k),
      ∃ fragment, Sql.filterFragment f = .ok fragment := by
    intro f hf
    rcases List.mem_append.1 hf with hFilter | hBound
    · exact hRendered f hFilter
    · obtain ⟨m, -, rfl⟩ := List.mem_map.1 hBound
      exact ⟨_, filterFragment_bound params k m⟩
  obtain ⟨laterWhere, hLater⟩ := Sql.exists_whereClause_iff.2 hAll
  refine ⟨_, bind_eq_ok.2 ⟨target, hTarget, bind_eq_ok.2 ⟨list, hList,
    bind_eq_ok.2 ⟨_, h.keysetFilters_past position, bind_eq_ok.2 ⟨laterWhere,
      hLater, bind_eq_ok.2 ⟨groupPart, hGroup, bind_eq_ok.2 ⟨orderPart, ?_,
        rfl⟩⟩⟩⟩⟩⟩⟩
  rw [h.keysetOrder_past]
  exact hOrder

/-! ## The rows that are left -/

variable {ρ : Type} {source : Source ρ} {key : ρ → Int}

/-- A row matches a request past a position exactly when it matches the
request and comes after the position. -/
theorem matches_past (hKeyed : source.KeyedBy k key) {r : ρ}
    (hr : r ∈ source.rows) (params : Params) (position : Option Int) :
    source.Matches (params.filters ++ position.toList.map (params.bound k)) r ↔
      source.Matches params.filters r ∧
        ∀ m ∈ position, Precedes params.keysetDesc m (key r) := by
  cases position with
  | none => simp
  | some m =>
      have hRendered := Sql.renderedFilter_eq (filterFragment_bound params k m)
      rw [Option.toList_some, List.map_singleton,
        source.matches_concat (f := params.bound k m) rfl, hRendered,
        hKeyed.holds_bound hr]
      simp

/-- The rows that are left past a position, in the order of the walk: those
that match the request and come after the position. -/
structure Rest (source : Source ρ) (key : ρ → Int) (params : Params)
    (position : Option Int) (rest : List ρ) : Prop where
  sorted : rest.Pairwise fun a b =>
    Precedes params.keysetDesc (key a) (key b)
  mem_iff : ∀ r, r ∈ rest ↔ r ∈ source.rows ∧
    source.Matches params.filters r ∧
      ∀ m ∈ position, Precedes params.keysetDesc m (key r)

/-- Past the last row of a page, the rows after it are left. -/
theorem Rest.later {before after : List ρ} {last : ρ}
    (h : Rest source key params position (before ++ last :: after)) :
    Rest source key params (some (key last)) after := by
  have hAll := List.pairwise_append.1 h.sorted
  have hLast := List.pairwise_cons.1 hAll.2.1
  refine ⟨hLast.2, fun r => ⟨fun hr => ?_, ?_⟩⟩
  · obtain ⟨hRow, hMatches, -⟩ := (h.mem_iff r).1 (by simp [hr])
    refine ⟨hRow, hMatches, fun m hm => ?_⟩
    rw [← Option.some.inj hm]
    exact hLast.1 r hr
  · rintro ⟨hRow, hMatches, hPast⟩
    have hAfter : Precedes params.keysetDesc (key last) (key r) := hPast _ rfl
    have hSeen := (h.mem_iff last).1 (by simp)
    have hMem : r ∈ before ++ last :: after := (h.mem_iff r).2
      ⟨hRow, hMatches, fun m hm => (hSeen.2.2 m hm).trans hAfter⟩
    -- A row up to the last one does not come after it.
    rcases List.mem_append.1 hMem with hBefore | hLater
    · exact absurd hAfter (hAll.2.2 r hBefore last List.mem_cons_self).asymm
    · rcases List.mem_cons.1 hLater with rfl | hMem
      · exact absurd rfl hAfter.ne
      · exact hMem

/-- The matching rows can be put in the order of the walk. -/
theorem exists_rest (hKeyed : source.KeyedBy k key) (params : Params) :
    ∃ sorted, Rest source key params none sorted := by
  let matching := source.rows.filter (source.meets
    ((Filter.conjuncts params.filters).map fun c =>
      c.places.map (Sql.renderedAt params.filters)))
  have hKeys : (matching.map key).Nodup :=
    hKeyed.distinct.sublist (List.filter_sublist.map key)
  obtain ⟨sorted, hPerm, hSorted⟩ :=
    Precedes.exists_sorted params.keysetDesc hKeys
  refine ⟨sorted, hSorted, fun r => ?_⟩
  rw [hPerm.mem_iff, List.mem_filter, source.meets_iff]
  simp

/-! ## The rows of a page -/

/-- The answers to the statement of a page show the first of the rows past its
position. -/
theorem gives_past_iff (h : params.WalksBy k n)
    (hKeyed : source.KeyedBy k key) {table : Table} {s : Sql.Statement}
    (hSelect : Sql.select table (params.past k position) = .ok s)
    {targets : Option (List Target)} (hTargets : Selects params targets)
    {rest : List ρ} (hRest : Rest source key params position rest)
    {result : QueryResult} :
    source.Gives table s result ↔ ∃ scalar, result =
      { keys := source.labels targets
        rows := (rest.take n).map (source.cells targets)
        scalar } := by
  obtain ⟨filters, q, hFilters, hQuery, hAsks⟩ :=
    Sql.ofStatement?_select hSelect h.aggregations h.groupBy h.offset
  obtain rfl := Except.ok.inj ((h.keysetFilters_past position).symm.trans
    hFilters)
  obtain ⟨first, others, hOrder, hFirst, hDesc⟩ := h.exists_keysetOrder
  have hKeys := hAsks.order
  rw [h.keysetOrder_past, hOrder] at hKeys
  obtain ⟨sortKey, sortKeys, hSortKey, -, hSortKeys⟩ :=
    List.forall₂_cons_left_iff.1 hKeys
  obtain ⟨hSortDesc, path, hPath, hExpression⟩ := hSortKey
  rw [hFirst, k.ofColumn_text] at hPath
  rw [← Except.ok.inj hPath, k.pathFragment_text] at hExpression
  have hLimit : q.limit = some (n : Int) := hAsks.limit.trans h.limit
  have hSame : q.targets = targets := hAsks.selects.unique hTargets
  have hSorted : rest.Pairwise fun a b =>
      Precedes sortKey.desc (key a) (key b) := by
    rw [hSortDesc, hDesc]
    exact hRest.sorted
  have hMem : ∀ r, r ∈ rest ↔
      r ∈ source.rows ∧ source.meets q.conditions r = true := by
    intro r
    rw [hRest.mem_iff, hAsks.conditions, source.meets_iff]
    exact and_congr_right fun hr => (matches_past hKeyed hr _ _).symm
  have hAnswers : source.Answers q result ↔ _ := hKeyed.answers_iff hSortKeys
    (Except.ok.inj hExpression).symm (by simp [hLimit]) hSorted hMem
  have hCut : Source.limited q.limit rest = rest.take n := by
    rw [hLimit]
    rfl
  rw [hCut, hSame] at hAnswers
  rw [← hAnswers]
  obtain ⟨target, hTarget, hTable⟩ := hAsks.table
  constructor
  · rintro ⟨q', -, hQuery', -, -, hGiven⟩
    rwa [Option.some.inj (hQuery.symm.trans hQuery')]
  · exact fun hGiven => ⟨q, target, hQuery, hTarget, hTable, hGiven⟩

/-! ## The link to the next page -/

/-- A full page links to the position of its last row. -/
theorem WalksBy.nextCursor_past (h : params.WalksBy k n) {rows : List Row}
    (hLength : rows.length = n) {last : Row} (hLast : rows.getLast? = some last)
    {m : Int} (hValue : Fields.get? last k.text = some (.int m)) :
    (params.past k position).nextCursor rows (some (n : Int)) =
      some ⟨k.text, .int m, params.keysetDesc⟩ := by
  have hLink := nextCursor_of_getLast? (h.keysetColumn_past position) hLast
    (by omega : ¬(rows.length : Int) < n) hValue (by simp)
  rwa [h.keysetDesc_past] at hLink

end TableGate.Params
