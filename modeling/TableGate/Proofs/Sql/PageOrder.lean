import TableGate.Proofs.Sql.Guarded
import TableGate.Proofs.Sql.Keyset
import TableGate.Proofs.Sql.Source

/-!
# The order of a page

A request with a cursor goes on after the position that the cursor holds. Its
SELECT gets one more condition, a comparison of the keyset column with that
position, and its rows are put in the order the request asks for, with the
keyset column at the end if the request does not order by it.

The comparison and the order agree in the direction of the keyset column. What
is past the position therefore follows it on the page, if the keyset column is
the first that rows are ordered by. A request that orders by another column
first gets that order, and there rows past the position may stand before those
that are not.

## Main results

* `select_goes_on`: how the condition and the order of a SELECT go together,
  and which rows are past the position.
* `select_led_by_rank`: a request that orders by another column first.
-/

namespace TableGate

open Result (bind_eq_ok pure_eq_ok refuse_ne_ok)

namespace Sql

variable {table : Table} {params : Params} {s : Statement}

/-- The comparison of an operand with a position: past it in a direction. -/
def pastFragment (operand : Fragment) (desc : Bool) (position : Value) :
    Fragment :=
  operand ++ [.word (.compare (if desc then .lt else .gt)), .bind position]

/-- A database compares the values of an expression as it orders them. The
values are of a kind that has ranks in a linear order; by these ranks rows are
compared with a value that is bound, and sorted. -/
structure Source.ComparesBy {ρ κ : Type} [LinearOrder κ] (source : Source ρ)
    (rank : Value → Option κ) (expression : Fragment) : Prop where
  holds_gt : ∀ {r : ρ} {bound : Value} {k l : κ}, rank bound = some k →
    rank (source.value expression r) = some l →
      source.holds (expression ++ [.word (.compare .gt), .bind bound]) r =
        decide (k < l)
  holds_lt : ∀ {r : ρ} {bound : Value} {k l : κ}, rank bound = some k →
    rank (source.value expression r) = some l →
      source.holds (expression ++ [.word (.compare .lt), .bind bound]) r =
        decide (l < k)
  order : ∀ {key : SortKey} {a b : ρ} {k l : κ}, key.expression = expression →
    rank (source.value expression a) = some k →
    rank (source.value expression b) = some l →
      source.order key a b = if key.desc then compare l k else compare k l

/-- A comparison leaves the rows that sort keys put after a row at a position.
It is asked of rows with another value than that of the position, where the
first key decides. -/
def LeavesFollowers (comparison : Fragment) (position : Value)
    (first : SortKey) (others : List SortKey) : Prop :=
  ∀ {ρ κ : Type} [LinearOrder κ] (source : Source ρ)
    (rank : Value → Option κ), source.ComparesBy rank first.expression →
    ∀ (a r : ρ) (k l : κ), source.value first.expression a = position →
      rank position = some k →
      rank (source.value first.expression r) = some l → l ≠ k →
      (source.holds comparison r = true ↔
        source.orderBy (first :: others) a r = .lt)

/-- A SELECT goes on after a cursor. Rows are ordered by what the request
orders by before the keyset column, then by the keyset column, then by the
rest, and the last condition compares the keyset column with the position of
the cursor. -/
structure GoesOn (params : Params) (cursor : Cursor) (s : Statement)
    (before : List SortKey) (key : SortKey) (after : List SortKey)
    (operand : Fragment) : Prop where
  sorted : order? (s.clause? .orderBy) = some (before ++ key :: after)
  past : ∃ conditions, s.conjuncts? = some conditions ∧
    conditions.getLast? = some [pastFragment operand key.desc cursor.value]
  keyset : ∃ column path, params.keysetColumn = some column ∧
    ColumnPath.ofColumn column = .ok path ∧
    pathFragment path = .ok key.expression ∧
    comparedColumn path .gt = .ok operand
  earlier : List.Forall₂ SortKeyOf
    (params.order.takeWhile fun entry => !params.isKeyset entry) before
  later : List.Forall₂ SortKeyOf
    (params.order.dropWhile fun entry => !params.isKeyset entry).tail after

/-! ## The condition -/

/-- A comparison by size binds a value without parts that is not null. -/
theorem comparison_bySize {f : Filter} {operator : Operator}
    (hSize : operator = .lt ∨ operator = .gt) {operand fragment : Fragment}
    (h : comparison f operator operand = .ok fragment) :
    (∀ items, f.value ≠ .sequence items) ∧
      fragment =
        operand ++ [.word (.compare operator), .bind f.value.toValue] := by
  unfold comparison at h
  split at h
  · rcases hSize with rfl | rfl <;> exact absurd h refuse_ne_ok
  · exact absurd h refuse_ne_ok
  · next hParts => exact ⟨hParts, (Except.ok.inj h).symm⟩

/-- The condition that a cursor adds compares its column with its position. -/
theorem filterFragment_past {column : String} {desc : Bool} {raw : Value}
    {value : FilterValue} (hValue : FilterValue.ofValue raw = .ok value)
    {fragment : Fragment}
    (h : filterFragment {
        column
        operator := some (if desc then .lt else .gt)
        value } = .ok fragment) :
    ∃ path operand, ColumnPath.ofColumn column = .ok path ∧
      comparedColumn path .gt = .ok operand ∧
      fragment = pastFragment operand desc raw := by
  cases desc with
  | true =>
      obtain ⟨path, hPath, h⟩ := bind_eq_ok.1 h
      obtain ⟨operand, hOperand, h⟩ := bind_eq_ok.1 h
      obtain ⟨hParts, rfl⟩ := comparison_bySize (.inl rfl) h
      rw [← toValue_of_ofValue hValue hParts]
      exact ⟨path, operand, hPath, hOperand, rfl⟩
  | false =>
      obtain ⟨path, hPath, h⟩ := bind_eq_ok.1 h
      obtain ⟨operand, hOperand, h⟩ := bind_eq_ok.1 h
      obtain ⟨hParts, rfl⟩ := comparison_bySize (.inr rfl) h
      rw [← toValue_of_ofValue hValue hParts]
      exact ⟨path, operand, hPath, hOperand, rfl⟩

/-! ## Going on -/

/-- The SELECT of a request with a cursor goes on after it. -/
theorem goesOn_select {cursor : Cursor} (hCursor : params.cursor = some cursor)
    (h : select table params = .ok s) :
    ∃ before key after operand,
      GoesOn params cursor s before key after operand := by
  obtain ⟨column, hColumn⟩ :=
    Option.ne_none_iff_exists'.1 (params.keysetColumn_ne_none hCursor)
  obtain ⟨-, ⟨filters, hFilters, hConjuncts, hRendered⟩, keys, hKeys, hOrder⟩ :=
    selectClauses h
  obtain ⟨entry, hSplit, hEntry, hDesc⟩ := keysetOrder_eq hColumn
  rw [hSplit] at hOrder
  obtain ⟨before, key, after, rfl, hBefore, hKey, hAfter⟩ :=
    Result.exists_split_forall₂ hOrder
  obtain ⟨hKeyDesc, path, hPath, hExpression⟩ := hKey
  rw [hEntry] at hPath
  simp only [keysetFilters, hCursor, hColumn, Option.getD_some] at hFilters
  obtain ⟨value, hValue, hFilters⟩ := bind_eq_ok.1 hFilters
  rw [← pure_eq_ok.1 hFilters] at hConjuncts hRendered
  obtain ⟨read, operand, hRead, hOperand, hLast⟩ := filterFragment_past hValue
    (hRendered params.filters.length _ List.getElem?_concat_length)
  obtain rfl := Except.ok.inj (hPath.symm.trans hRead)
  refine ⟨before, key, after, operand, hKeys, ⟨_, hConjuncts, ?_⟩,
    ⟨column, path, hColumn, hPath, hExpression, hOperand⟩, hBefore, hAfter⟩
  rw [List.getLast?_map, Filter.getLast?_conjuncts_concat _ rfl, hKeyDesc,
    hDesc, ← hLast]
  rfl

namespace GoesOn

variable {cursor : Cursor} {before after : List SortKey} {key : SortKey}
  {operand : Fragment}

/-- The keyset column comes first where the request orders by it first, or by
nothing. -/
theorem before_eq_nil (h : GoesOn params cursor s before key after operand)
    (hLeads : ∀ first ∈ params.order.head?, params.isKeyset first = true) :
    before = [] := by
  have hEarlier := h.earlier
  cases hOrder : params.order with
  | nil =>
      rw [hOrder] at hEarlier
      exact List.forall₂_nil_left_iff.1 hEarlier
  | cons first others =>
      have hFirst : params.isKeyset first = true :=
        hLeads first (by rw [hOrder]; rfl)
      rw [hOrder, List.takeWhile_cons_of_neg (by simpa using hFirst)]
        at hEarlier
      exact List.forall₂_nil_left_iff.1 hEarlier

/-- What is compared is what rows are ordered by, if it is no text out of a
document. -/
theorem operand_eq (h : GoesOn params cursor s before key after operand)
    (hWhole : ∀ column ∈ params.keysetColumn, ∀ path,
      ColumnPath.ofColumn column = .ok path → path.extractsText = false) :
    operand = key.expression := by
  obtain ⟨column, path, hColumn, hPath, hExpression, hOperand⟩ := h.keyset
  rw [comparedColumn, hExpression] at hOperand
  obtain ⟨_, hSame, hOperand⟩ := bind_eq_ok.1 hOperand
  rw [hWhole column hColumn path hPath] at hOperand
  rw [← pure_eq_ok.1 hOperand, Except.ok.inj hSame]

end GoesOn

/-- Between distinct ranks what comes later in an order does not count. -/
theorem then_eq_lt {κ : Type} [LinearOrder κ] {k l : κ} (h : k ≠ l)
    (later : Ordering) : (compare k l).then later = .lt ↔ k < l := by
  rcases lt_or_gt_of_ne h with hLt | hGt
  · simp [compare_lt_iff_lt.2 hLt, hLt]
  · simp [compare_gt_iff_gt.2 hGt, hGt.le]

/-- Values past a position are those that the direction of a key puts after
it. -/
theorem leavesFollowers_pastFragment (key : SortKey) (others : List SortKey)
    (position : Value) :
    LeavesFollowers (pastFragment key.expression key.desc position) position
      key others := by
  intro ρ κ _ source rank hCompares a r k l hAt hPosition hRow hNe
  have hOrder : source.order key a r =
      if key.desc then compare l k else compare k l :=
    hCompares.order rfl (hAt ▸ hPosition) hRow
  rw [pastFragment, Source.orderBy, hOrder]
  cases key.desc with
  | true =>
      rw [if_pos rfl, if_pos rfl, hCompares.holds_lt hPosition hRow,
        decide_eq_true_iff]
      exact (then_eq_lt hNe _).symm
  | false =>
      rw [if_neg Bool.false_ne_true, if_neg Bool.false_ne_true,
        hCompares.holds_gt hPosition hRow, decide_eq_true_iff]
      exact (then_eq_lt hNe.symm _).symm

/-- The integer that a value is. -/
def integerOf : Value → Option Int
  | .int n => some n
  | _ => none

theorem integerOf_eq_some {value : Value} {n : Int}
    (h : integerOf value = some n) : value = .int n := by
  unfold integerOf at h
  split at h
  · next m => rw [Option.some.inj h]
  · cases h

/-- Every database compares integers as it orders them. -/
theorem Source.comparesBy_integerOf {ρ : Type} (source : Source ρ)
    (expression : Fragment) : source.ComparesBy integerOf expression where
  holds_gt hBound hRow := by
    rw [integerOf_eq_some hBound, source.holds_gt (integerOf_eq_some hRow)]
  holds_lt hBound hRow := by
    rw [integerOf_eq_some hBound, source.holds_lt (integerOf_eq_some hRow)]
  order hKey hFirst hSecond := by
    subst hKey
    exact source.order_int (integerOf_eq_some hFirst)
      (integerOf_eq_some hSecond)

/-- For integers nothing has to be known of the database. -/
theorem LeavesFollowers.integers {comparison : Fragment} {m n : Int}
    {first : SortKey} {others : List SortKey}
    (h : LeavesFollowers comparison (.int m) first others) {ρ : Type}
    (source : Source ρ) {a r : ρ}
    (hAt : source.value first.expression a = .int m)
    (hRow : source.value first.expression r = .int n) (hNe : n ≠ m) :
    source.holds comparison r = true ↔
      source.orderBy (first :: others) a r = .lt :=
  h source integerOf (source.comparesBy_integerOf _) a r m n hAt rfl
    (by rw [hRow]; rfl) hNe

/-- A SELECT with a cursor orders by the keyset column in the direction of the
comparison, after what the request orders by before it. Where the request
orders by nothing before it, that key is the first. Rows past the position are
then those that follow it, unless the keyset column is a text out of a
document, which is compared as a number and ordered as a text. -/
theorem select_goes_on {cursor : Cursor} (hCursor : params.cursor = some cursor)
    (h : select table params = .ok s) :
    ∃ before key after operand,
      GoesOn params cursor s before key after operand ∧
      ((∀ first ∈ params.order.head?, params.isKeyset first = true) →
        before = []) ∧
      ((∀ column ∈ params.keysetColumn, ∀ path,
          ColumnPath.ofColumn column = .ok path → path.extractsText = false) →
        LeavesFollowers (pastFragment operand key.desc cursor.value)
          cursor.value key after) := by
  obtain ⟨before, key, after, operand, hGoesOn⟩ := goesOn_select hCursor h
  refine ⟨before, key, after, operand, hGoesOn, hGoesOn.before_eq_nil,
    fun hWhole => ?_⟩
  rw [hGoesOn.operand_eq hWhole]
  exact leavesFollowers_pastFragment key after cursor.value

/-- A request that goes on downwards from an identifier. -/
def downwards : Params where
  order := [{ column := "id", desc := true }, { column := "name" }]
  cursor := some ⟨"id", .int 3, false⟩

theorem select_goes_on_downwards :
    Items.compile [("order", "id.desc,name.asc"),
        ("cursor", "eyJjIjoiaWQiLCJ2IjozfQ==")] = .ok downwards ∧
      ∃ s, select namedItems downwards = .ok s ∧
        s.sql = "SELECT * FROM \"public\".\"items\" WHERE \"id\" < $1" ++
          " ORDER BY \"id\" DESC, \"name\" ASC" ∧
        ∃ before key after operand,
          GoesOn downwards ⟨"id", .int 3, false⟩ s before key after operand ∧
          before = [] ∧
          ∀ (source : Source Fields) (a r : Fields) (n : Int),
            source.value key.expression a = .int 3 →
            source.value key.expression r = .int n → n ≠ 3 →
            (source.holds (pastFragment operand key.desc (.int 3)) r = true ↔
              source.orderBy (key :: after) a r = .lt) := by
  have hCompile : Items.compile [("order", "id.desc,name.asc"),
      ("cursor", "eyJjIjoiaWQiLCJ2IjozfQ==")] = .ok downwards :=
    Result.toOption_eq_some.1 (by decide +kernel)
  have hSelect : (select namedItems downwards).toOption.map (·.sql) = some
      ("SELECT * FROM \"public\".\"items\" WHERE \"id\" < $1" ++
        " ORDER BY \"id\" DESC, \"name\" ASC") := by
    decide +kernel
  obtain ⟨s, hs, hText⟩ := Option.map_eq_some_iff.1 hSelect
  obtain ⟨before, key, after, operand, hGoesOn, hFirst, hRows⟩ :=
    select_goes_on rfl (Result.toOption_eq_some.1 hs)
  have hWhole : ∀ column ∈ downwards.keysetColumn, ∀ path,
      ColumnPath.ofColumn column = .ok path → path.extractsText = false := by
    intro column hColumn path hPath
    obtain rfl : "id" = column := Option.some.inj hColumn
    rw [Identifier.ofColumn_text ⟨"id", by decide⟩] at hPath
    rw [← Except.ok.inj hPath]
    rfl
  refine ⟨hCompile, s, Result.toOption_eq_some.1 hs, hText, before, key, after,
    operand, hGoesOn, hFirst (by simp [downwards, Params.isKeyset,
      Params.keysetColumn]), fun source a r n hAt hRow hNe => ?_⟩
  exact LeavesFollowers.integers (hRows hWhole) source hAt hRow hNe

/-- A table of ranks. -/
def ranks : Table where
  schema := "public"
  name := "ranks"
  primaryKey := ["id"]
  columns := [{ name := "id", dataType := "integer" },
    { name := "rank", dataType := "integer" }]

theorem isName_id : isName "id".toList = true := by decide

/-- The columns of ranks. -/
def idName : Identifier := ⟨"id", isName_id⟩
def rankName : Identifier := ⟨"rank", by decide⟩

/-- A request that orders by rank and goes on after an identifier. -/
def byRank : Params where
  order := [{ column := "rank" }]
  cursor := some ⟨"id", .int 3, false⟩

/-- A request that orders by another column gets that order, with the keyset
column after it; and of the rows past its position some stand before. -/
theorem select_led_by_rank :
    Items.compile [("order", "rank.asc"),
        ("cursor", "eyJjIjoiaWQiLCJ2IjozfQ==")] = .ok byRank ∧
      byRank.validate ranks = .ok () ∧
      byRank.keysetColumn = some idName.text ∧
      ∃ s keys, select ranks byRank = .ok s ∧
        s.sql = "SELECT * FROM \"public\".\"ranks\" WHERE \"id\" > $1" ++
          " ORDER BY \"rank\" ASC, \"id\" ASC" ∧
        order? (s.clause? .orderBy) = some keys ∧
        (∃ first ∈ keys.head?, first.expression ≠ [.column idName]) ∧
        ∃ (source : Source Fields) (a r : Fields),
          source.value [.column idName] a = .int 3 ∧
          source.meets (s.conjuncts?.getD []) r = true ∧
          source.orderBy keys a r = .gt := by
  refine ⟨Result.toOption_eq_some.1 (by decide +kernel),
    Result.toOption_eq_some.1 (by decide +kernel), rfl, _,
    [⟨[.column rankName], false, []⟩, ⟨[.column idName], false, []⟩], rfl,
    by decide +kernel, rfl, ⟨_, rfl, by decide⟩, ?_⟩
  refine ⟨.ofRecords [idName, rankName] (by decide) [],
    [("id", .int 3), ("rank", .int 2)], [("id", .int 4), ("rank", .int 1)],
    by decide +kernel, by decide +kernel, by decide +kernel⟩

end Sql
end TableGate
