import TableGate.Proofs.Cursor
import TableGate.Proofs.Identifier
import TableGate.Proofs.Query.Items

/-!
# Requests that clients send

A compiled request comes from a query string or from a query document; the
page that is served may differ from the one that was asked for. Whatever the
client sends, the keyset column has no blanks around it and is not blank, and
a cursor stands at a text, a number or a truth value.

## Main results

* `Requested.cursor_eq`: a request starts where its token says, on the column
  that it names beside the token.
* `Requested.keysetColumn_visible`: the keyset column is trimmed and not
  blank.
-/

namespace TableGate

open Result (bind_eq_ok pure_eq_ok)

namespace Cursor

/-- What a token is read as. -/
theorem of_ofToken {token : String} {cursor : Cursor}
    (h : ofToken token = .ok cursor) :
    (∃ text, Text.isAllBlank text = false ∧ cursor.column = Text.trim text) ∧
      isPosition cursor.value = true := by
  unfold ofToken at h
  split at h
  · cases h
  · split at h
    · next fields _ =>
        unfold ofFields at h
        split at h
        · next text _ =>
            split at h
            · cases h
            · next hVisible =>
                split at h
                · split at h
                  · next hPosition =>
                      cases h
                      exact ⟨⟨text, Bool.eq_false_iff.2 hVisible, rfl⟩,
                        hPosition⟩
                  · cases h
                · cases h
        · cases h
    · cases h

/-- What a request starts at is read from its token. -/
theorem of_resolve {token column : Option String} {cursor : Cursor}
    (h : resolve token column = .ok (some cursor)) (hColumn : column ≠ some "") :
    ∃ text read, ofToken text = .ok read ∧
      cursor = { read with column := column.getD read.column } := by
  unfold resolve at h
  split at h
  · cases h
  · next token =>
      split at h
      · cases h
      · obtain ⟨read, hRead, h⟩ := bind_eq_ok.1 h
        refine ⟨Text.trim token, read, hRead, ?_⟩
        split at h
        · next name =>
            rw [if_neg fun hEmpty => hColumn (congrArg some hEmpty)] at h
            exact (Option.some.inj (pure_eq_ok.1 h)).symm
        · exact (Option.some.inj (pure_eq_ok.1 h)).symm

end Cursor

namespace Params

/-- A request that a client sends, whichever page of it is served. -/
inductive Requested : Params → Prop
  | items {items : Items} {params : Params}
      (h : items.compile = .ok params) : Requested params
  | document {document : Document} {params : Params}
      (h : document.compile = .ok params) : Requested params
  | paged {params : Params} (h : Requested params) (limit offset : Option Int)
      (count : Option CountType) :
      Requested { params with limit, offset, count }

namespace Requested

variable {params : Params}

/-- A request says where it starts in a token and in the column beside it. -/
theorem position (h : params.Requested) :
    ∃ token text, Cursor.readColumn text = .ok params.cursorColumn ∧
      Cursor.resolve token params.cursorColumn = .ok params.cursor := by
  induction h with
  | items h => exact ⟨_, _, Items.cursor_of_compile h⟩
  | document h => exact ⟨_, _, Document.cursor_of_compile h⟩
  | paged _ _ _ _ ih => exact ih

/-- The column that a request names beside its token is a name. -/
theorem cursorColumn_isName (h : params.Requested) {column : String}
    (hColumn : params.cursorColumn = some column) :
    isName column.toList = true := by
  obtain ⟨-, text, hRead, -⟩ := h.position
  rw [hColumn] at hRead
  exact Cursor.isName_of_readColumn hRead

theorem cursorColumn_ne_empty (h : params.Requested) :
    params.cursorColumn ≠ some "" := fun hEmpty =>
  absurd (h.cursorColumn_isName hEmpty) (by decide)

/-- A request starts where its token says, on the column that it names beside
the token. -/
theorem cursor_eq (h : params.Requested) {cursor : Cursor}
    (hCursor : params.cursor = some cursor) :
    ∃ token read, Cursor.ofToken token = .ok read ∧
      cursor = { read with
        column := params.cursorColumn.getD read.column } := by
  obtain ⟨token, -, -, hResolve⟩ := h.position
  rw [hCursor] at hResolve
  exact Cursor.of_resolve hResolve h.cursorColumn_ne_empty

/-- The keyset column is the one that a request names, or else that of its
token. -/
theorem keysetColumn_cases (h : params.Requested) {column : String}
    (hColumn : params.keysetColumn = some column) :
    params.cursorColumn = some column ∨
      params.cursorColumn = none ∧ ∃ token read,
        Cursor.ofToken token = .ok read ∧ params.cursor = some read ∧
          column = read.column := by
  unfold keysetColumn at hColumn
  split at hColumn
  · next name hName =>
      have hSome : name ≠ "" := fun hEmpty =>
        h.cursorColumn_ne_empty (hName.trans (congrArg some hEmpty))
      rw [if_neg hSome] at hColumn
      exact .inl (hName.trans hColumn)
  · next hNone =>
      obtain ⟨cursor, hCursor, rfl⟩ := Option.map_eq_some_iff.1 hColumn
      obtain ⟨token, read, hRead, rfl⟩ := h.cursor_eq hCursor
      rw [hNone] at hCursor ⊢
      exact .inr ⟨rfl, token, read, hRead, hCursor, rfl⟩

/-- The keyset column is trimmed and not blank. -/
theorem keysetColumn_visible (h : params.Requested) {column : String}
    (hColumn : params.keysetColumn = some column) :
    Text.trim column = column ∧ Text.isAllBlank column = false := by
  rcases h.keysetColumn_cases hColumn with
    hName | ⟨-, token, read, hRead, -, rfl⟩
  · have hTrim := Identifier.trimChars_text ⟨column, h.cursorColumn_isName hName⟩
    refine ⟨?_, Identifier.isAllBlank_text ⟨column, h.cursorColumn_isName hName⟩⟩
    rw [Text.trim, hTrim, String.ofList_toList]
  · obtain ⟨⟨text, hVisible, hText⟩, -⟩ := Cursor.of_ofToken hRead
    rw [hText, Text.trim]
    exact ⟨Text.trim_ofList_trimChars _, Text.isAllBlank_trim hVisible⟩

end Requested
end Params
end TableGate
