import TableGate.Proofs.Query.Pages
import TableGate.Proofs.Sql.Command

/-!
# Walking through a list

A client reads a list page by page: it sends the request, and as long as the
answer links to a next page it sends the same request again with the token of
the link. `Walk` is such a run against a database, from the request to the
page that links to nothing.

A walk sees every matching row exactly once and in order, whatever the table
holds, as long as the keyset column shows in the result under its own name.
Where a later item of the select list has the same name, the link is made from
the value of that item.

## Main results

* `Walk.covers`: there is one walk, and its pages are the matching rows.
* `Walk.twins_not_covered`: a field that takes the name of the keyset column
  breaks the walk.
-/

namespace TableGate

open Sql (Source Shows Precedes Target TargetsOf Selects)
open Params (WalksBy Rest)

/-- The rows that a request is answered with. -/
def Serves {ρ : Type} (source : Source ρ) (table : Table) (params : Params)
    (page : List Row) : Prop :=
  ∃ s result, Sql.select table params = .ok s ∧ source.Gives table s result ∧
    result.decodeRows = .ok page

/-- The pages of a request that is sent again with the token of every link. -/
inductive Walk {ρ : Type} (source : Source ρ) (table : Table) :
    Params → List (List Row) → Prop
  | last {params : Params} {page : List Row}
      (hPage : Serves source table params page)
      (hNext : params.nextCursor page params.limit = none) :
      Walk source table params [page]
  | more {params : Params} {page : List Row} {cursor : Cursor} {token : String}
      {resolved : Option Cursor} {pages : List (List Row)}
      (hPage : Serves source table params page)
      (hNext : params.nextCursor page params.limit = some cursor)
      (hToken : cursor.token = .ok token)
      (hCursor : Cursor.resolve (some token) params.cursorColumn = .ok resolved)
      (hRest : Walk source table { params with cursor := resolved } pages) :
      Walk source table params (page :: pages)

namespace Walk

variable {ρ : Type} {source : Source ρ} {table : Table} {params : Params}
  {k : Identifier} {key : ρ → Int} {n : Nat}

/-! ## One step -/

/-- From a page that is known and links to nothing, there is no other walk. -/
theorem iff_of_last {known : List Row}
    (hPage : ∀ page, Serves source table params page ↔ page = known)
    (hNext : params.nextCursor known params.limit = none)
    (found : List (List Row)) :
    Walk source table params found ↔ found = [known] := by
  constructor
  · intro hWalk
    cases hWalk with
    | last hServed => rw [(hPage _).1 hServed]
    | more hServed hLink =>
        rw [(hPage _).1 hServed, hNext] at hLink
        cases hLink
  · rintro rfl
    exact .last ((hPage known).2 rfl) hNext

/-- From a page that is known, a walk goes where its link leads. -/
theorem iff_of_more {known : List Row} {cursor : Cursor} {token : String}
    {resolved : Option Cursor} {pages : List (List Row)}
    (hPage : ∀ page, Serves source table params page ↔ page = known)
    (hNext : params.nextCursor known params.limit = some cursor)
    (hToken : cursor.token = .ok token)
    (hCursor : Cursor.resolve (some token) params.cursorColumn = .ok resolved)
    (hRest : ∀ found,
      Walk source table { params with cursor := resolved } found ↔
        found = pages)
    (found : List (List Row)) :
    Walk source table params found ↔ found = known :: pages := by
  constructor
  · intro hWalk
    cases hWalk with
    | last hServed hNone =>
        rw [(hPage _).1 hServed, hNext] at hNone
        cases hNone
    | more hServed hLink hText hRead hLater =>
        obtain rfl := (hPage _).1 hServed
        obtain rfl := Option.some.inj (hNext.symm.trans hLink)
        obtain rfl := Except.ok.inj (hToken.symm.trans hText)
        obtain rfl := Except.ok.inj (hCursor.symm.trans hRead)
        rw [(hRest _).1 hLater]
  · rintro rfl
    exact .more ((hPage known).2 rfl) hNext hToken hCursor ((hRest pages).2 rfl)

/-- A page holds the first of the rows past its position. -/
theorem serves_past_iff (h : params.WalksBy k n)
    (hKeyed : source.KeyedBy k key) {s : Sql.Statement}
    (hSelect : Sql.select table params = .ok s)
    {targets : Option (List Target)} (hTargets : Selects params targets)
    {position : Option Int} {rest : List ρ}
    (hRest : Rest source key params position rest) (page : List Row) :
    Serves source table (params.past k position) page ↔
      page = (rest.take n).map (source.row targets) := by
  obtain ⟨later, hLater⟩ := Params.exists_select_past h hSelect position
  have hDecoded := source.decodeRows_answer targets (rest.take n)
  constructor
  · rintro ⟨s', result, hSelect', hGives, hPage⟩
    obtain ⟨scalar, rfl⟩ := (Params.gives_past_iff h hKeyed hSelect' hTargets
      hRest).1 hGives
    exact Except.ok.inj (hPage.symm.trans (hDecoded scalar))
  · rintro rfl
    refine ⟨later, _, hLater, (Params.gives_past_iff h hKeyed hLater hTargets
      hRest).2 ⟨.ok .null, rfl⟩, hDecoded (.ok .null)⟩

/-- The token of a link leads past the position of the link. -/
theorem resolve_link (h : params.WalksBy k n) {m : Int}
    (hWritable : Text.isWritable m = true) :
    ∃ token, Cursor.token ⟨k.text, .int m, params.keysetDesc⟩ = .ok token ∧
      Cursor.resolve (some token) params.cursorColumn =
        .ok (some ⟨k.text, .int m, params.keysetDesc⟩) := by
  have hValue : Json.IsJson (.int m) := .int hWritable
  refine ⟨_, Cursor.token_eq hValue, ?_⟩
  rw [h.cursorColumn]
  exact Cursor.resolve_tokenText hValue k.isAllBlank_text rfl k.text_ne_empty

/-- As many rows as a page holds end with one of them. -/
theorem exists_eq_append {rest : List ρ} (hPos : 0 < n)
    (hFull : n ≤ rest.length) :
    ∃ before last after, rest = before ++ last :: after ∧
      rest.take n = before ++ [last] ∧ before.length + 1 = n := by
  obtain ⟨last, after, hDrop⟩ := List.exists_cons_of_ne_nil
    (l := rest.drop (n - 1)) (by rw [Ne, List.drop_eq_nil_iff]; omega)
  have hLength : (rest.take (n - 1)).length + 1 = n := by
    rw [List.length_take]
    omega
  have hRest : rest = rest.take (n - 1) ++ last :: after := by
    rw [← hDrop, List.take_append_drop]
  refine ⟨_, last, after, hRest, ?_, hLength⟩
  rw [List.append_cons] at hRest
  conv_lhs => rw [hRest]
  exact List.take_left' (by rw [List.length_append, List.length_singleton,
    hLength])

/-! ## The whole walk -/

/-- From every position there is one walk, over the rows that are left. -/
theorem covers_past (h : params.WalksBy k n) (hKeyed : source.KeyedBy k key)
    (hWritable : ∀ r ∈ source.rows, Text.isWritable (key r) = true)
    (hShows : Shows k.text params.select) {s : Sql.Statement}
    (hSelect : Sql.select table params = .ok s)
    {targets : Option (List Target)} (hTargets : Selects params targets)
    (hTargetsOf : TargetsOf params.select targets) {position : Option Int}
    {rest : List ρ} (hRest : Rest source key params position rest) :
    ∃ pages, (∀ found, Walk source table (params.past k position) found ↔
        found = pages) ∧
      pages.flatten = rest.map (source.row targets) ∧
      pages.length = rest.length / n + 1 := by
  -- Every page but the last leaves fewer rows.
  induction hLength : rest.length using Nat.strong_induction_on
    generalizing position rest with
  | _ length ih =>
  have hPage := serves_past_iff h hKeyed hSelect hTargets hRest
  have hLimit : (params.past k position).limit = some (n : Int) := h.limit
  rcases Nat.lt_or_ge rest.length n with hShort | hFull
  · have hAll : rest.take n = rest := List.take_of_length_le (by omega)
    rw [hAll] at hPage
    refine ⟨[rest.map (source.row targets)], iff_of_last hPage ?_, by simp, ?_⟩
    · rw [hLimit]
      refine Params.nextCursor_of_lt ?_ _
      rw [List.length_map]
      exact_mod_cast hShort
    · rw [← hLength, Nat.div_eq_of_lt hShort]
      rfl
  · obtain ⟨before, last, after, hSplit, hTake, hBefore⟩ :=
      exists_eq_append h.limit_pos hFull
    rw [hTake] at hPage
    rw [hSplit] at hRest hLength
    have hRow : last ∈ source.rows := ((hRest.mem_iff last).1 (by simp)).1
    have hNext : (params.past k position).nextCursor
        ((before ++ [last]).map (source.row targets)) (some (n : Int)) =
          some ⟨k.text, .int (key last), params.keysetDesc⟩ :=
      h.nextCursor_past (by simpa) (by simp)
        (hKeyed.get?_row_column hShows hTargetsOf hRow)
    rw [← hLimit] at hNext
    obtain ⟨token, hToken, hCursor⟩ := resolve_link h (hWritable last hRow)
    rw [List.length_append, List.length_cons] at hLength
    obtain ⟨pages, hWalk, hPages, hCount⟩ := ih after.length (by omega)
      hRest.later rfl
    refine ⟨_, iff_of_more hPage hNext hToken hCursor hWalk, ?_, ?_⟩
    · rw [List.flatten_cons, hPages, ← List.map_append, hSplit,
        List.append_assoc, List.singleton_append]
    · rw [List.length_cons, hCount, ← hLength, ← hBefore,
        show before.length + (after.length + 1) =
          before.length + 1 + after.length by omega,
        Nat.add_div_left _ (by omega)]

/-- What a walk shows: the matching rows in the order of the walk, with the
pages that hold them. -/
structure Covers (source : Source ρ) (table : Table) (params : Params)
    (key : ρ → Int) (n : Nat) (targets : Option (List Target))
    (sorted : List ρ) (pages : List (List Row)) : Prop where
  /-- The rows are those that match the request. -/
  mem_iff : ∀ r, r ∈ sorted ↔
    r ∈ source.rows ∧ source.Matches params.filters r
  /-- They are ordered by the keyset column, so each stands there once. -/
  ordered : sorted.Pairwise fun a b =>
    Precedes params.keysetDesc (key a) (key b)
  /-- There is one walk. -/
  walk_iff : ∀ found, Walk source table params found ↔ found = pages
  /-- Its pages together are the rows. -/
  flatten_eq : pages.flatten = sorted.map (source.row targets)
  /-- Its last page is the first that is not full. -/
  length_eq : pages.length = sorted.length / n + 1

/-- A walk by a column that the result shows covers the matching rows. -/
theorem covers (h : params.WalksBy k n) (hKeyed : source.KeyedBy k key)
    (hWritable : ∀ r ∈ source.rows, Text.isWritable (key r) = true)
    (hShows : Shows k.text params.select) {s : Sql.Statement}
    (hSelect : Sql.select table params = .ok s) :
    ∃ targets sorted pages, TargetsOf params.select targets ∧
      Covers source table params key n targets sorted pages := by
  obtain ⟨_, q, -, -, hAsks⟩ :=
    Sql.ofStatement?_select hSelect h.aggregations h.groupBy h.offset
  obtain ⟨sorted, hSorted⟩ := Params.exists_rest hKeyed params
  obtain ⟨pages, hWalk, hPages, hCount⟩ := covers_past h hKeyed hWritable
    hShows hSelect hAsks.selects hAsks.targets hSorted
  rw [Params.past_none h.cursor] at hWalk
  refine ⟨q.targets, sorted, pages, hAsks.targets, ⟨fun r => ?_,
    hSorted.sorted, hWalk, hPages, hCount⟩⟩
  rw [hSorted.mem_iff]
  simp

/-! ## Walks through items -/

/-- The columns of items. -/
def idColumn : Identifier := ⟨"id", by decide⟩
def dataColumn : Identifier := ⟨"data", by decide⟩

/-- An item with its document. -/
def item (id : Int) (document : Fields) : Fields :=
  [("id", .int id), ("data", .object document)]

/-- The identifier of an item. -/
def idOf (item : Fields) : Int :=
  match item.get? "id" with
  | some (.scalar (.int i)) => i
  | _ => 0

/-- A table of items. -/
def items (rows : List Fields) : Source Fields :=
  .ofRecords [idColumn, dataColumn] (by decide) rows

/-- Items with a rank, in no order. -/
def rankedItems : Source Fields :=
  items [item 3 [("rank", .int 1)], item 8 [], item 5 [("rank", .int 2)],
    item 1 [], item 4 [("rank", .int 1)]]

/-- Two items at a time from the last to the first, but for one of them. -/
def ranked : Params where
  select := ["id", "data->rank"]
  filters := [{ column := "id", operator := some .neq, value := .int 5 }]
  order := [{ column := "id", desc := true }]
  limit := some 2
  cursorColumn := some "id"

theorem covers_ranked :
    ∃ targets sorted pages, TargetsOf ranked.select targets ∧
      Covers rankedItems Sql.items ranked idOf 2 targets sorted pages := by
  obtain ⟨s, hSelect⟩ : ∃ s, Sql.select Sql.items ranked = .ok s := ⟨_, rfl⟩
  have hDigits : ∀ r ∈ rankedItems.rows,
      (Text.natDigits (idOf r).natAbs).length ≤ Text.maxIntegerDigits := by
    decide
  have hLater : ∀ item ∈ ["data->rank"], ∀ path,
      ColumnPath.ofColumn item = .ok path → path.outputName ≠ "id" := by
    intro item hItem path hPath
    rw [List.mem_singleton.1 hItem] at hPath
    rw [← Except.ok.inj hPath]
    decide
  have hShows : Shows "id" ([] ++ "id" :: ["data->rank"]) := .item hLater
  exact covers (k := idColumn) ⟨rfl, rfl, rfl, rfl, rfl, rfl, by decide,
    by decide⟩ ⟨by decide, by decide, by decide⟩
      (fun r hr => Text.isWritable_iff.2 (hDigits r hr)) hShows hSelect

/-- One item at a time; a field of the document takes the name of the
identifier. -/
def shadowed : Params where
  select := ["id", "data->id"]
  limit := some 1
  cursorColumn := some "id"

/-- Two items whose documents hold the same field. -/
def twins : Source Fields :=
  items [item 1 [("id", .int 9)], item 2 [("id", .int 9)]]

/-- What the select list asks for: the identifier, and the field by its name. -/
def shadowedTargets : List Target :=
  [⟨[.column idColumn], idColumn⟩,
    ⟨[.column dataColumn, .word (.arrow .json), .field idColumn], idColumn⟩]

theorem shadowed_walksBy : shadowed.WalksBy idColumn 1 :=
  ⟨rfl, rfl, rfl, rfl, rfl, rfl, by decide, by decide⟩

theorem twins_keyedBy : twins.KeyedBy idColumn idOf :=
  ⟨by decide, by decide, by decide⟩

theorem shadowed_selects : Selects shadowed (some shadowedTargets) :=
  ⟨_, rfl, rfl⟩

/-- All twins are left at the beginning, and none past their field. -/
theorem twins_rest :
    Rest twins idOf shadowed none twins.rows ∧
      Rest twins idOf shadowed (some 9) [] := by
  refine ⟨⟨by decide, fun r => ?_⟩, ⟨.nil, fun r => ?_⟩⟩
  · refine ⟨fun h => ⟨h, twins.matches_nil r, fun m hm => ?_⟩, fun h => h.1⟩
    cases hm
  · refine ⟨fun h => absurd h List.not_mem_nil, fun h => ?_⟩
    have hNone : ∀ r ∈ twins.rows,
        ¬Precedes shadowed.keysetDesc 9 (idOf r) := by decide
    exact absurd (h.2.2 9 rfl) (hNone r h.1)

/-- A walk through the twins ends before the second of them: the result shows
the field as the identifier, and the link leads past the field. -/
theorem walk_twins :
    Walk twins Sql.items shadowed [[[("id", .int 9)]], []] := by
  obtain ⟨s, hSelect⟩ : ∃ s, Sql.select Sql.items shadowed = .ok s := ⟨_, rfl⟩
  have hFirst := serves_past_iff shadowed_walksBy twins_keyedBy hSelect
    shadowed_selects twins_rest.1
  have hSecond := serves_past_iff shadowed_walksBy twins_keyedBy hSelect
    shadowed_selects twins_rest.2
  obtain ⟨token, hToken, hCursor⟩ := resolve_link (m := 9) shadowed_walksBy
    (Text.isWritable_iff.2 (by decide))
  refine .more ((hFirst _).2 rfl) rfl hToken hCursor ?_
  exact .last ((hSecond _).2 rfl) rfl

/-- The name of the keyset column is not enough: the twins are not covered,
although the request selects the column and walks by it. -/
theorem twins_not_covered :
    (shadowed.WalksBy idColumn 1 ∧ twins.KeyedBy idColumn idOf ∧
      (∀ r ∈ twins.rows, Text.isWritable (idOf r) = true) ∧
      idColumn.text ∈ shadowed.select ∧
      ∃ s, Sql.select Sql.items shadowed = .ok s) ∧
    ¬∃ targets sorted pages,
      Covers twins Sql.items shadowed idOf 1 targets sorted pages := by
  have hDigits : ∀ r ∈ twins.rows,
      (Text.natDigits (idOf r).natAbs).length ≤ Text.maxIntegerDigits := by
    decide
  refine ⟨⟨shadowed_walksBy, twins_keyedBy,
    fun r hr => Text.isWritable_iff.2 (hDigits r hr), by decide, _, rfl⟩, ?_⟩
  rintro ⟨targets, sorted, pages, hCovers⟩
  have hPages := (hCovers.walk_iff _).1 walk_twins
  have hCount := hCovers.length_eq
  rw [← hPages, Nat.div_one] at hCount
  obtain ⟨only, rfl⟩ := List.length_eq_one_iff.1 (Nat.succ.inj hCount).symm
  have hMem : ∀ r ∈ twins.rows, r = only := fun r hr =>
    List.mem_singleton.1 ((hCovers.mem_iff r).2 ⟨hr, twins.matches_nil r⟩)
  have hSame : ∀ r ∈ twins.rows, ∀ r' ∈ twins.rows, r = r' :=
    fun r hr r' hr' => (hMem r hr).trans (hMem r' hr').symm
  exact absurd hSame (by decide)

end Walk
end TableGate
