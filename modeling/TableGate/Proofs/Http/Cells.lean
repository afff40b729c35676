import TableGate.Http.Body
import TableGate.Http.Reply
import TableGate.Proofs.Ends
import TableGate.Proofs.Json.Documents

/-!
# Rows of plain cells

Cells that are null, truth values, integers or texts leave as they arrive: a
row of them is an object that JSON knows, and so a response with rows has a
body. An integer counts as plain up to the number of digits that can be
written.

## Main results

* `isJson_decodeRow`: a row of plain cells is an object that JSON knows.
* `Http.exists_ofValue`: what JSON knows is answered with a body.
* `Http.body_ne_nil`: a body with rows is never empty.
-/

namespace TableGate

open Result (bind_eq_ok pure_eq_ok)
open Json (IsJson)

/-- The cells that leave as they are. -/
inductive Value.IsCell : Value → Prop
  | null : IsCell .null
  | bool (b : Bool) : IsCell (.bool b)
  | int {i : Int} (h : Text.isWritable i = true) : IsCell (.int i)
  | text (s : String) : IsCell (.text s)

theorem Value.IsCell.isJson {cell : Value} (h : cell.IsCell) :
    IsJson cell := by
  cases h with
  | null => exact .null
  | bool b => exact .bool b
  | int h => exact .int h
  | text s => exact .text s

theorem Value.IsCell.decodeValue_eq {cell : Value} (h : cell.IsCell) :
    decodeValue cell = cell := by
  cases h <;> rfl

/-! ## Rows -/

/-- A row of plain cells is an object that JSON knows. -/
theorem isJson_decodeRow {cells : List Value}
    (h : ∀ cell ∈ cells, cell.IsCell) (keys : List String) :
    IsJson (.object (decodeRow keys cells)) := by
  refine .object (fun field hField => ?_) (Fields.nodup_names_ofPairs _)
  have hPair := (List.of_mem_zip (Fields.mem_of_mem_ofPairs hField)).2
  obtain ⟨cell, hCell, hValue⟩ := List.mem_map.1 hPair
  rw [← hValue, (h cell hCell).decodeValue_eq]
  exact (h cell hCell).isJson

/-- The rows of a result are objects that JSON knows. -/
def RowsAreJson (rows : List Row) : Prop := ∀ row ∈ rows, IsJson (.object row)

/-- The cells of a result are plain. -/
def QueryResult.IsPlain (result : QueryResult) : Prop :=
  ∀ cells ∈ result.rows, ∀ cell ∈ cells, cell.IsCell

theorem QueryResult.IsPlain.rowsAreJson {result : QueryResult}
    (h : result.IsPlain) {rows : List Row}
    (hRows : result.decodeRows = .ok rows) : RowsAreJson rows := by
  rw [result.eq_of_decodeRows hRows]
  intro row hRow
  obtain ⟨cells, hCells, rfl⟩ := List.mem_map.1 hRow
  exact isJson_decodeRow (h cells hCells) _

/-- A database whose cells are plain, whatever it is asked. -/
def Database.IsPlain {δ : Type} (database : Database δ) : Prop :=
  ∀ state p result, (database.execute state p).1 = .ok result → result.IsPlain

/-- The cells of an answer are plain, unless the statement was refused. -/
def PlainCells : Manner := fun _ answer =>
  ∀ result, answer = .ok result → result.IsPlain

/-- Such a database answers in no other manner. -/
theorem Database.IsPlain.answers {δ : Type} {database : Database δ}
    (h : database.IsPlain) {before : δ} {ps : List Sql.PreparedStatement} :
    ∀ x ∈ database.answers before ps, PlainCells x.1 x.2 := by
  intro x hx result hAnswer
  obtain ⟨state, hGiven⟩ := database.exists_of_mem_answers hx
  exact h state x.1 result (hGiven.symm.trans hAnswer)

/-- The rows of a plain answer are objects that JSON knows. -/
theorem PlainCells.rowsAs {δ : Type} (engine : Engine δ) (s : Sql.Statement) :
    PlainCells.RowsAs engine RowsAreJson (fun _ => True) s := by
  refine ⟨fun _ => trivial, fun answer hPlain =>
    ⟨fun rows hRows => ?_, fun _ _ => trivial⟩⟩
  obtain ⟨result, hResult, hRows⟩ := bind_eq_ok.1 hRows
  cases answer with
  | error refusal => cases hResult
  | ok answer =>
      obtain rfl := Except.ok.inj hResult
      exact (hPlain _ rfl).rowsAreJson hRows

theorem RowsAreJson.list {rows : List Row} (h : RowsAreJson rows) :
    IsJson (.list (rows.map Value.object)) := by
  refine .list fun item hItem => ?_
  obtain ⟨row, hRow, rfl⟩ := List.mem_map.1 hItem
  exact h row hRow

theorem RowsAreJson.written {rows : List Row} (h : RowsAreJson rows)
    (single : Bool) : IsJson (Http.writtenRows single rows) := by
  unfold Http.writtenRows
  split
  · exact h _ List.mem_cons_self
  · exact h.list

/-! ## Bodies -/

namespace Http

variable {P : Value → Prop}

/-- Items that leave in forms of one kind. -/
theorem exists_plainItems {items : List Value}
    (h : ∀ item ∈ items, ∃ shown, plain item = .ok shown ∧ P shown) :
    ∃ shown, plainItems items = .ok shown ∧ ∀ item ∈ shown, P item := by
  induction items with
  | nil => exact ⟨[], by rw [plainItems], List.forall_mem_nil _⟩
  | cons item items ih =>
      obtain ⟨first, hFirst, hKind⟩ := h item List.mem_cons_self
      obtain ⟨others, hOthers, hAll⟩ :=
        ih fun other hOther => h other (List.mem_cons_of_mem _ hOther)
      refine ⟨first :: others, ?_, List.forall_mem_cons.2 ⟨hKind, hAll⟩⟩
      rw [plainItems]
      exact bind_eq_ok.2 ⟨first, hFirst, bind_eq_ok.2 ⟨others, hOthers, rfl⟩⟩

/-- Fields that leave, with values of one kind. -/
theorem exists_plainFields {fields : Fields}
    (h : ∀ field ∈ fields, ∃ shown, plain field.2 = .ok shown ∧ P shown) :
    ∃ shown, plainFields fields = .ok shown ∧
      shown.names.Sublist fields.names ∧ ∀ field ∈ shown, P field.2 := by
  induction fields with
  | nil => exact ⟨[], by rw [plainFields], .slnil, List.forall_mem_nil _⟩
  | cons field fields ih =>
      obtain ⟨name, value⟩ := field
      obtain ⟨first, hFirst, hKind⟩ := h (name, value) List.mem_cons_self
      obtain ⟨others, hOthers, hNames, hAll⟩ :=
        ih fun other hOther => h other (List.mem_cons_of_mem _ hOther)
      by_cases hHidden : isHidden name = true
      · refine ⟨others, ?_, hNames.cons name, hAll⟩
        rw [plainFields, plainField, if_pos hHidden]
        exact bind_eq_ok.2 ⟨[], rfl, bind_eq_ok.2 ⟨others, hOthers, rfl⟩⟩
      · refine ⟨(name, first) :: others, ?_, hNames.cons_cons name,
          List.forall_mem_cons.2 ⟨hKind, hAll⟩⟩
        rw [plainFields, plainField, if_neg hHidden]
        exact bind_eq_ok.2 ⟨[(name, first)],
          bind_eq_ok.2 ⟨first, hFirst, rfl⟩,
          bind_eq_ok.2 ⟨others, hOthers, rfl⟩⟩

/-- What JSON knows leaves in a form that JSON knows. -/
theorem exists_plain {value : Value} (h : IsJson value) :
    ∃ shown, plain value = .ok shown ∧ IsJson shown := by
  induction h with
  | null => exact ⟨.null, by rw [plain]; rfl, .null⟩
  | bool b => exact ⟨.bool b, by rw [plain]; rfl, .bool b⟩
  | @int i hWritable => exact ⟨.int i, by rw [plain]; rfl, .int hWritable⟩
  | text s => exact ⟨.text s, by rw [plain]; rfl, .text s⟩
  | list _ ih =>
      obtain ⟨shown, hShown, hAll⟩ := exists_plainItems ih
      refine ⟨.list shown, ?_, .list hAll⟩
      rw [plain]
      exact bind_eq_ok.2 ⟨shown, hShown, rfl⟩
  | object _ hNames ih =>
      obtain ⟨shown, hShown, hFewer, hAll⟩ := exists_plainFields ih
      refine ⟨.object shown, ?_, .object hAll (hNames.sublist hFewer)⟩
      rw [plain]
      exact bind_eq_ok.2 ⟨shown, hShown, rfl⟩

/-- What JSON knows is answered with a body. -/
theorem exists_ofValue {value : Value} (h : IsJson value) (status : Nat)
    (headers : Headers) :
    ∃ response, Response.ofValue status headers value = .ok response ∧
      response.status = status := by
  obtain ⟨shown, hShown, hJson⟩ := exists_plain h
  refine ⟨_, bind_eq_ok.2 ⟨shown, hShown, bind_eq_ok.2
    ⟨Json.write .compact shown, ?_, rfl⟩⟩, rfl⟩
  rw [encodeDocument, Json.encode_of_isJson hJson]

/-- What a response with a value is made of. -/
theorem ofValue_eq_ok {status : Nat} {headers : Headers} {value : Value}
    {response : Response}
    (h : Response.ofValue status headers value = .ok response) :
    ∃ shown, plain value = .ok shown ∧
      response = ⟨status, headers ++ [Response.documentType],
        Json.write .compact shown⟩ := by
  obtain ⟨shown, hShown, h⟩ := bind_eq_ok.1 h
  obtain ⟨body, hBody, h⟩ := bind_eq_ok.1 h
  refine ⟨shown, hShown, ?_⟩
  unfold encodeDocument at hBody
  split at hBody
  · next hEncode =>
      rw [← pure_eq_ok.1 h, ← Except.ok.inj hBody,
        (Json.encode_eq_ok_iff.1 hEncode).2]
  · cases hBody

/-- A body with rows is never empty. -/
theorem body_ne_nil {status : Nat} {headers : Headers} {single : Bool}
    {rows : List Row} {response : Response}
    (h : Response.ofValue status headers (writtenRows single rows) =
      .ok response) : response.body ≠ "" := by
  obtain ⟨shown, hShown, rfl⟩ := ofValue_eq_ok h
  have hStart : ∃ c rest, (Json.write .compact shown).toList = c :: rest := by
    unfold writtenRows at hShown
    split at hShown
    · rw [plain] at hShown
      obtain ⟨fields, -, hShown⟩ := bind_eq_ok.1 hShown
      rw [← pure_eq_ok.1 hShown]
      exact ⟨_, _, Json.toList_write_object fields⟩
    · rw [plain] at hShown
      obtain ⟨items, -, hShown⟩ := bind_eq_ok.1 hShown
      rw [← pure_eq_ok.1 hShown]
      exact ⟨_, _, Json.toList_write_list items⟩
  obtain ⟨c, rest, hText⟩ := hStart
  intro hEmpty
  have hNil : (Json.write .compact shown).toList = [] :=
    congrArg String.toList hEmpty
  rw [hText] at hNil
  exact absurd hNil (List.cons_ne_nil c rest)

end Http
end TableGate
