import TableGate.Query.Params
import TableGate.Row

/-!
# The next page

A page that is as long as its limit links to the one after it: the cursor of
the last row, on the keyset column and in its direction. A shorter page is the
last one and links to nothing.

## Main results

* `nextCursor_of_lt`: a page that is shorter than the limit is the last one.
* `nextCursor_of_getLast?`: any other page links to its last row.
* `of_nextCursor`: the cursor of a link is at the last row.
-/

namespace TableGate

/-- The cursor of the page after these rows. -/
def Params.nextCursor (params : Params) (rows : List Row)
    (limit : Option Int) : Option Cursor :=
  match params.keysetColumn, rows.getLast?, limit with
  | some column, some row, some limit =>
      if (rows.length : Int) < limit then none
      else
        match Fields.get? row column with
        | none | some (.scalar .null) => none
        | some value => some { column, value, desc := params.keysetDesc }
  | _, _, _ => none

namespace Params

variable {params : Params} {rows : List Row}

/-- A page that is shorter than the limit is the last one. -/
theorem nextCursor_of_lt {n : Int} (h : (rows.length : Int) < n)
    (params : Params) : params.nextCursor rows (some n) = none := by
  unfold nextCursor
  split
  · next hLimit =>
      rw [← Option.some.inj hLimit, if_pos h]
  · rfl

/-- A page that is not links to its last row, if that has a value. -/
theorem nextCursor_of_getLast? {column : String} {row : Row} {n : Int}
    {value : Value} (hColumn : params.keysetColumn = some column)
    (hLast : rows.getLast? = some row) (hFull : ¬(rows.length : Int) < n)
    (hValue : Fields.get? row column = some value) (hSome : value ≠ .null) :
    params.nextCursor rows (some n) =
      some ⟨column, value, params.keysetDesc⟩ := by
  simp only [nextCursor, hColumn, hLast, if_neg hFull, hValue]

/-- The cursor of a link is at the last row. -/
theorem of_nextCursor {limit : Option Int} {cursor : Cursor}
    (h : params.nextCursor rows limit = some cursor) :
    ∃ column row value, params.keysetColumn = some column ∧
      rows.getLast? = some row ∧ Fields.get? row column = some value ∧
      value ≠ .null ∧ cursor = ⟨column, value, params.keysetDesc⟩ := by
  unfold nextCursor at h
  split at h
  · next column row n hColumn hRow =>
      split at h
      · cases h
      · split at h
        · cases h
        · cases h
        · next value hSome hValue =>
            exact ⟨column, row, value, hColumn, hRow, hValue, hSome,
              (Option.some.inj h).symm⟩
  · cases h

end Params
end TableGate
