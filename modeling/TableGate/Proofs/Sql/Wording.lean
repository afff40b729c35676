import TableGate.Proofs.Identifier
import TableGate.Proofs.Sql.Totals

/-!
# The texts of parts

A statement is put together from parts, and its text from their texts. What a
part is numbered from is the number of values before it; in a comma list whose
parts have equally many values, the numbers rise from part to part by that
many. A part without values has one text wherever it stands (`Spells`).

## Main results

* `textFrom_append`, `textFrom_commaList`: the text of parts one after the
  other, and with commas between them.
* `exists_columnList`, `exists_tablePiece`, `exists_returning`: names that may
  stand in a statement stand there as they are, between double quotes.
-/

namespace TableGate

/-- A table whose names may all stand in a statement. -/
structure Table.IsNamed (table : Table) : Prop where
  schema : isName table.schema.toList = true
  name : isName table.name.toList = true
  columns : ∀ name ∈ table.columnNames, isName name.toList = true

instance (table : Table) : Decidable table.IsNamed :=
  decidable_of_iff (_ ∧ _ ∧ _)
    ⟨fun h => ⟨h.1, h.2.1, h.2.2⟩, fun h => ⟨h.schema, h.name, h.columns⟩⟩

namespace Sql

open Result (bind_eq_ok pure_eq_ok)

/-! ## Parts with values -/

theorem textFrom_append (count : Nat) (a b : Fragment) :
    textFrom count (a ++ b) =
      textFrom count a ++ textFrom (count + (argsOf a).length) b := by
  apply String.toList_injective
  simp only [String.toList_append, toList_textFrom, charsWith_append]

/-- Parts with equally many values, with commas between them. -/
theorem textFrom_commaList {parts : List Fragment} {width : Nat}
    (h : ∀ part ∈ parts, (argsOf part).length = width) (count : Nat) :
    textFrom count (commaList parts) =
      ", ".intercalate
        (parts.mapIdx fun i part => textFrom (count + i * width) part) := by
  induction parts generalizing count with
  | nil => rfl
  | cons part others ih =>
      obtain ⟨hPart, hOthers⟩ := List.forall_mem_cons.1 h
      cases others with
      | nil =>
          rw [List.mapIdx_singleton, String.intercalate_singleton, Nat.zero_mul]
          rfl
      | cons next others =>
          -- The others are numbered after the values of the first part.
          have hList : commaList (part :: next :: others) =
              part ++ .word .comma :: commaList (next :: others) := rfl
          have hShift : (next :: others).mapIdx (fun i part =>
              textFrom (count + width + i * width) part) =
                (next :: others).mapIdx (fun i part =>
                  textFrom (count + (i + 1) * width) part) := by
            simp only [Nat.succ_mul, Nat.add_assoc, Nat.add_comm width]
          rw [hList, textFrom_append, hPart, textFrom, ih hOthers, hShift,
            List.mapIdx_cons, List.mapIdx_cons, List.mapIdx_cons,
            String.intercalate_cons_cons, Nat.zero_mul, Nat.add_zero,
            ← String.append_assoc]
          · rfl
          · exact fun _ => Piece.noConfusion

/-! ## Parts without values -/

/-- A part without values, and its text. -/
structure Spells (part : Fragment) (text : String) : Prop where
  args_eq : argsOf part = []
  text_eq : ∀ count, textFrom count part = text

namespace Spells

theorem word (w : Word) : Spells [.word w] w.text :=
  ⟨rfl, fun _ => String.append_empty⟩

theorem append {a b : Fragment} {s t : String} (ha : Spells a s)
    (hb : Spells b t) : Spells (a ++ b) (s ++ t) := by
  refine ⟨by rw [args_append, ha.args_eq, hb.args_eq]; rfl, fun count => ?_⟩
  rw [textFrom_append, ha.text_eq, hb.text_eq]

theorem commaList {parts : List Fragment} {texts : List String}
    (h : List.Forall₂ Spells parts texts) :
    Spells (commaList parts) (", ".intercalate texts) := by
  induction h with
  | nil => exact ⟨rfl, fun _ => rfl⟩
  | @cons part text parts texts hPart hOthers ih =>
      cases hOthers with
      | nil =>
          rw [String.intercalate_singleton]
          exact hPart
      | @cons next nextText others otherTexts hNext hRest =>
          rw [String.intercalate_cons_cons, String.append_assoc]
          exact hPart.append ((word .comma).append ih)

/-- Parts that are made one by one, each with its text. -/
theorem exists_mapM {α : Type} {f : α → Result Fragment} {text : α → String}
    {xs : List α}
    (h : ∀ x ∈ xs, ∃ part, f x = .ok part ∧ Spells part (text x)) :
    ∃ parts, xs.mapM f = .ok parts ∧
      List.Forall₂ Spells parts (xs.map text) := by
  obtain ⟨parts, hParts, hSpells⟩ := Result.exists_mapM_of_forall h
  refine ⟨parts, hParts, ?_⟩
  rw [List.forall₂_map_right_iff]
  exact hSpells.flip

end Spells

/-! ## Names -/

/-- A name between double quotes. -/
def quotedName (name : String) : String := "\"" ++ name ++ "\""

/-- Quoted names with commas between them. -/
def quotedNames (names : List String) : String :=
  ", ".intercalate (names.map quotedName)

/-- The name of a table, with that of its schema. -/
def quotedTable (table : Table) : String :=
  quotedName table.schema ++ "." ++ quotedName table.name

/-- The end of a statement that returns rows: all columns of the table. -/
def returningText (table : Table) : String :=
  " RETURNING " ++
    if table.columns.isEmpty then "*" else quotedNames table.columnNames

theorem quoted_eq (name : Identifier) : name.quoted = quotedName name.text := by
  apply String.toList_injective
  rw [toList_quoted, quotedName, String.toList_append, String.toList_append]
  rfl

theorem exists_column {name : String} (h : isName name.toList = true) :
    ∃ quoted, column name = .ok quoted ∧
      Spells [quoted] (quotedName name) := by
  refine ⟨.column ⟨name, h⟩, Identifier.column_text ⟨name, h⟩, rfl,
    fun count => ?_⟩
  rw [← quoted_eq ⟨name, h⟩]
  exact String.append_empty

theorem exists_columnList {names : List String}
    (h : ∀ name ∈ names, isName name.toList = true) :
    ∃ fragment, columnList names = .ok fragment ∧
      Spells fragment (quotedNames names) := by
  obtain ⟨quoted, hQuoted, hSpells⟩ := Result.exists_mapM_of_forall
    fun name hName => exists_column (h name hName)
  refine ⟨commaList (quoted.map ([·])), by rw [columnList, hQuoted]; rfl,
    .commaList ?_⟩
  rw [List.forall₂_map_left_iff, List.forall₂_map_right_iff]
  exact hSpells.flip

theorem exists_returning {table : Table} (h : table.IsNamed) :
    ∃ fragment, returning table = .ok fragment ∧
      Spells fragment (returningText table) := by
  unfold returning returningText
  split
  · exact ⟨_, rfl, (Spells.word .returning).append (.word .star)⟩
  · obtain ⟨names, hNames, hSpells⟩ := exists_columnList h.columns
    rw [hNames]
    exact ⟨_, rfl, (Spells.word .returning).append hSpells⟩

theorem exists_tablePiece {table : Table} (h : table.IsNamed) :
    ∃ target, tablePiece table = .ok target ∧
      Spells [target] (quotedTable table) := by
  have hSchema := Identifier.identifier_text ⟨table.schema, h.schema⟩
  have hName := Identifier.identifier_text ⟨table.name, h.name⟩
  refine ⟨_, by rw [tablePiece, hSchema, hName]; rfl, rfl, fun count => ?_⟩
  rw [quotedTable, ← quoted_eq ⟨table.schema, h.schema⟩,
    ← quoted_eq ⟨table.name, h.name⟩]
  exact String.append_empty

theorem isName_of_identifier {name : String} {id : Identifier}
    (h : identifier name = .ok id) : isName name.toList = true := by
  unfold identifier at h
  split at h
  · next hText =>
      rw [← Identifier.text_ofString? hText]
      exact Identifier.isName _
  · exact absurd h Result.refuse_ne_ok

/-- A table that a statement names has a name of its own. -/
theorem isNamed_of_tablePiece {table : Table} {target : Piece}
    (hTable : ∀ name ∈ table.columnNames, isName name.toList = true)
    (h : tablePiece table = .ok target) : table.IsNamed := by
  obtain ⟨schema, hSchema, h⟩ := bind_eq_ok.1 h
  obtain ⟨name, hName, -⟩ := bind_eq_ok.1 h
  exact ⟨isName_of_identifier hSchema, isName_of_identifier hName, hTable⟩

/-- The columns that a statement returns have names of their own. -/
theorem isName_of_returning {table : Table} {result : Fragment}
    (h : returning table = .ok result) :
    ∀ name ∈ table.columnNames, isName name.toList = true := by
  intro name hName
  unfold returning at h
  split at h
  · next hEmpty =>
      rw [Table.columnNames, List.isEmpty_iff.1 hEmpty] at hName
      exact absurd hName List.not_mem_nil
  · obtain ⟨list, hList, -⟩ := bind_eq_ok.1 h
    obtain ⟨pieces, hPieces, -⟩ := bind_eq_ok.1 hList
    obtain ⟨piece, -, hPiece⟩ :=
      Result.exists_of_mem_forall₂ (Result.mapM_eq_ok.1 hPieces).flip hName
    obtain ⟨quoted, hQuoted, -⟩ := bind_eq_ok.1 hPiece
    exact isName_of_identifier hQuoted

end Sql
end TableGate
