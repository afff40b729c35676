import TableGate.Proofs.Sql.Command
import TableGate.Proofs.Sql.Names

/-!
# The table in the text of a statement

A statement names one table, with its schema, and names it once. Columns and
the names that are given to results are quoted too, but no name follows them
after a dot; so the table can be read back from the text.

## Main results

* `Command.aims`: every statement is made around one table.
* `Aims.onlyQualified`: its text has one qualified name, that of the table.
-/

namespace TableGate.Sql

open Result (bind_eq_ok pure_eq_ok of_check_eq_ok)

/-! ## Around a table -/

/-- No table: no name is empty. -/
def nameless : Table where
  schema := ""
  name := ""

/-- A fragment without a table. -/
def Bare (fragment : Fragment) : Prop :=
  Composed nameless (fun _ => True) True fragment

/-- A fragment is made around a table, and has no other. -/
def Aims (table : Table) (fragment : Fragment) : Prop :=
  ∃ target pre post, tablePiece table = .ok target ∧
    fragment = pre ++ target :: post ∧ Bare pre ∧ Bare post

variable {table : Table} {s : Statement}

/-- Pieces before a fragment and after it. -/
theorem Aims.around {fragment pre post : Fragment} (h : Aims table fragment)
    (hPre : Bare pre) (hPost : Bare post) :
    Aims table (pre ++ fragment ++ post) := by
  obtain ⟨target, before, after, hTarget, rfl, hBefore, hAfter⟩ := h
  exact ⟨target, pre ++ before, after ++ post, hTarget, by simp,
    hPre.append hBefore, hAfter.append hPost⟩

theorem aims_select {params : Params} (h : select table params = .ok s) :
    Aims table s.pieces := by
  obtain ⟨target, hTarget, h⟩ := bind_eq_ok.1 h
  obtain ⟨columns, hColumns, h⟩ := bind_eq_ok.1 h
  obtain ⟨filters, -, h⟩ := bind_eq_ok.1 h
  obtain ⟨wherePart, hWhere, h⟩ := bind_eq_ok.1 h
  obtain ⟨groupPart, hGroup, h⟩ := bind_eq_ok.1 h
  obtain ⟨orderPart, hOrder, h⟩ := bind_eq_ok.1 h
  rw [← pure_eq_ok.1 h]
  refine ⟨target, .word .select :: columns ++ [.word .fromTable],
    wherePart ++ groupPart ++ orderPart ++ boundClause .limit params.limit ++
      boundClause .offset params.offset, hTarget, by simp, ?_, ?_⟩
  · exact .plain rfl ((composed_selectList hColumns
      fun _ _ _ _ => trivial).append (.one rfl))
  · exact ((((composed_whereClause hWhere fun _ _ _ _ => trivial).append
      (composed_groupClause hGroup fun _ _ _ _ => trivial)).append
        (composed_orderClause hOrder fun _ _ _ _ => trivial)).append
          (composed_boundClause rfl _)).append (composed_boundClause rfl _)

theorem aims_count {params : Params} (h : count table params = .ok s) :
    Aims table s.pieces := by
  obtain ⟨target, hTarget, h⟩ := bind_eq_ok.1 h
  obtain ⟨wherePart, hWhere, h⟩ := bind_eq_ok.1 h
  have hRows : Bare wherePart :=
    composed_whereClause hWhere fun _ _ _ _ => trivial
  split at h
  · rw [← pure_eq_ok.1 h]
    exact ⟨target, [.word .selectCount, .word .fromTable], wherePart, hTarget,
      rfl, .plain rfl (.one rfl), hRows⟩
  · obtain ⟨groupPart, hGroup, h⟩ := bind_eq_ok.1 h
    rw [← pure_eq_ok.1 h]
    refine ⟨target, [.word .selectCount, .word .fromTable, .word .openParen,
      .word .selectOne, .word .fromTable], wherePart ++ groupPart ++
        [.word .closeParen, .word .asName, .label groupedLabel], hTarget,
      by simp, .all (by simp [Piece.isPlain]), ?_⟩
    exact (hRows.append (composed_groupClause hGroup
      fun _ _ _ _ => trivial)).append (.plain rfl (.named .nil))

theorem aims_explain {params : Params} (h : explain table params = .ok s) :
    Aims table s.pieces := by
  obtain ⟨whole, hWhole, h⟩ := bind_eq_ok.1 h
  have hAims := (aims_select hWhole).around (.one rfl : Bare [.word .explain])
    .nil
  rw [← pure_eq_ok.1 h]
  simpa using hAims

theorem aims_selectByKey {key : List Value} {params : Params}
    (h : selectByKey table key params = .ok s) : Aims table s.pieces := by
  obtain ⟨target, hTarget, h⟩ := bind_eq_ok.1 h
  obtain ⟨columns, hColumns, h⟩ := bind_eq_ok.1 h
  obtain ⟨filters, -, h⟩ := bind_eq_ok.1 h
  obtain ⟨wherePart, hWhere, h⟩ := bind_eq_ok.1 h
  rw [← pure_eq_ok.1 h]
  refine ⟨target, .word .select :: columns ++ [.word .fromTable], wherePart,
    hTarget, by simp, ?_, composed_whereClause hWhere fun _ _ _ _ => trivial⟩
  exact .plain rfl ((composed_selectList hColumns
    fun _ _ _ _ => trivial).append (.one rfl))

/-- What an INSERT ends with: what it does about conflicts, and the columns it
returns. -/
theorem bare_conflict_returning {upsert : Option Upsert}
    {columns : List String} {conflict result : Fragment}
    (hConflict : conflictPart table upsert columns = .ok conflict)
    (hResult : returning table = .ok result) : Bare (conflict ++ result) :=
  (composed_conflictPart hConflict (fun _ _ _ _ _ => trivial)
    (fun _ _ => trivial) fun _ _ => trivial).append
      (composed_returning hResult fun _ _ => trivial)

theorem aims_insertBatch {records : List Value} {upsert : Option Upsert}
    (h : insertBatch table records upsert = .ok s) : Aims table s.pieces := by
  obtain ⟨target, hTarget, h⟩ := bind_eq_ok.1 h
  obtain ⟨-, h⟩ := of_check_eq_ok h
  obtain ⟨records, -, h⟩ := bind_eq_ok.1 h
  obtain ⟨columns, -, h⟩ := bind_eq_ok.1 h
  obtain ⟨rows, hRows, h⟩ := bind_eq_ok.1 h
  obtain ⟨names, hNames, h⟩ := bind_eq_ok.1 h
  obtain ⟨conflict, hConflict, h⟩ := bind_eq_ok.1 h
  obtain ⟨result, hResult, h⟩ := bind_eq_ok.1 h
  rw [← pure_eq_ok.1 h]
  have hValues : Bare (commaList rows) :=
    .commaList (.of_mapM hRows fun _ _ _ => composed_recordRow)
  refine ⟨target, [.word .insertInto], .word .openColumns :: names ++
    .word .values :: commaList rows ++ (conflict ++ result), hTarget, by simp,
    .one rfl, ?_⟩
  exact (Composed.append (.plain rfl (composed_columnList hNames
    fun _ _ _ _ => trivial)) (.plain rfl hValues)).append
      (bare_conflict_returning hConflict hResult)

theorem aims_insert {record : Fields} {upsert : Option Upsert}
    (h : insert table record upsert = .ok s) : Aims table s.pieces := by
  unfold insert at h
  split at h
  · obtain ⟨target, hTarget, h⟩ := bind_eq_ok.1 h
    obtain ⟨conflict, hConflict, h⟩ := bind_eq_ok.1 h
    obtain ⟨result, hResult, h⟩ := bind_eq_ok.1 h
    rw [← pure_eq_ok.1 h]
    exact ⟨target, [.word .insertInto], .word .defaultValues ::
      (conflict ++ result), hTarget, by simp, .one rfl,
      .plain rfl (bare_conflict_returning hConflict hResult)⟩
  · exact aims_insertBatch h

/-- An UPDATE has its table where it is put. -/
theorem aims_updateWhere {target : Piece} {values : Fields}
    {filters : List Filter} (hTarget : tablePiece table = .ok target)
    (h : updateWhere table target values filters = .ok s) :
    Aims table s.pieces := by
  unfold updateWhere at h
  obtain ⟨-, h⟩ := of_check_eq_ok h
  obtain ⟨-, -, h⟩ := bind_eq_ok.1 h
  obtain ⟨assignments, hAssignments, h⟩ := bind_eq_ok.1 h
  obtain ⟨wherePart, hWhere, h⟩ := bind_eq_ok.1 h
  obtain ⟨result, hResult, h⟩ := bind_eq_ok.1 h
  rw [← pure_eq_ok.1 h]
  have hParts : Bare (commaList assignments) :=
    .commaList (.of_mapM hAssignments fun _ _ _ hPart =>
      composed_assignment hPart trivial)
  refine ⟨target, [.word .update], .word .set :: commaList assignments ++
    wherePart ++ result, hTarget, by simp, .one rfl, ?_⟩
  exact (Composed.append (.plain rfl hParts) (composed_whereClause hWhere
    fun _ _ _ _ => trivial)).append (composed_returning hResult
      fun _ _ => trivial)

/-- So has a DELETE. -/
theorem aims_deleteWhere {target : Piece} {filters : List Filter}
    (hTarget : tablePiece table = .ok target)
    (h : deleteWhere table target filters = .ok s) : Aims table s.pieces := by
  obtain ⟨wherePart, hWhere, h⟩ := bind_eq_ok.1 h
  obtain ⟨result, hResult, h⟩ := bind_eq_ok.1 h
  rw [← pure_eq_ok.1 h]
  refine ⟨target, [.word .deleteFrom], wherePart ++ result, hTarget, by simp,
    .one rfl, ?_⟩
  exact (composed_whereClause hWhere fun _ _ _ _ => trivial).append
    (composed_returning hResult fun _ _ => trivial)

/-- Every statement is made around its table. -/
theorem Command.aims {command : Command}
    (h : command.statement table = .ok s) : Aims table s.pieces := by
  cases command with
  | select params => exact aims_select h
  | count params => exact aims_count h
  | explain params => exact aims_explain h
  | selectByKey key params => exact aims_selectByKey h
  | insert record upsert => exact aims_insert h
  | insertBatch records upsert => exact aims_insertBatch h
  | update values params =>
      obtain ⟨target, hTarget, h⟩ := bind_eq_ok.1 h
      exact aims_updateWhere hTarget (of_check_eq_ok h).2
  | updateByKey key values =>
      obtain ⟨target, hTarget, h⟩ := bind_eq_ok.1 h
      obtain ⟨filters, -, h⟩ := bind_eq_ok.1 h
      exact aims_updateWhere hTarget h
  | delete params =>
      obtain ⟨target, hTarget, h⟩ := bind_eq_ok.1 h
      exact aims_deleteWhere hTarget (of_check_eq_ok h).2
  | deleteByKey key =>
      obtain ⟨target, hTarget, h⟩ := bind_eq_ok.1 h
      obtain ⟨filters, -, h⟩ := bind_eq_ok.1 h
      exact aims_deleteWhere hTarget h

/-! ## Qualified names -/

/-- A quoted name of a text with another after it, past a dot. -/
structure QualifiedAt (text before schema name after : List Char) :
    Prop where
  quoted : QuotedAt text before schema
    ('.' :: '\x22' :: (name ++ '\x22' :: after))
  closes : '\x22' ∉ name

/-- A text has one qualified name, and it is the given one. -/
def OnlyQualified (schema name : String) (text : String) : Prop :=
  ∃ before after,
    QualifiedAt text.toList before schema.toList name.toList after ∧
    ∀ otherBefore otherSchema otherName otherAfter,
      QualifiedAt text.toList otherBefore otherSchema otherName otherAfter →
        otherBefore = before ∧ otherSchema = schema.toList ∧
          otherName = name.toList ∧ otherAfter = after

/-- No piece of a statement begins with a dot. -/
theorem exists_chars_named (piece : Piece) (n : Nat) :
    ∃ first others, piece.chars (named n) = first :: others ∧ first ≠ '.' := by
  cases piece with
  | word w =>
      have hWords : ∀ w ∈ Word.all, w.text.toList ≠ [] ∧
          w.text.toList.head? ≠ some '.' := by decide +kernel
      obtain ⟨hSome, hHead⟩ := hWords w w.mem_all
      obtain ⟨first, others, hText⟩ := List.exists_cons_of_ne_nil hSome
      rw [hText] at hHead
      exact ⟨first, others, hText, fun hDot => hHead (congrArg some hDot)⟩
  | index digits =>
      have hDigits := digits.isDigits
      rw [isDigits, Bool.and_eq_true, Bool.not_eq_true',
        List.isEmpty_eq_false_iff, List.all_eq_true] at hDigits
      obtain ⟨first, others, hText⟩ := List.exists_cons_of_ne_nil hDigits.1
      refine ⟨first, others, hText, fun hDot => ?_⟩
      have hDigit := hDigits.2 first (hText ▸ List.mem_cons_self)
      rw [hDot] at hDigit
      exact absurd hDigit (by decide)
  | bind value => exact ⟨':', _, rfl, by decide⟩
  | field name => exact ⟨'\x27', _, toList_field name, by decide⟩
  | column name => exact ⟨'\x22', _, toList_quoted name, by decide⟩
  | label name => exact ⟨'\x22', _, toList_quoted name, by decide⟩
  | table schema name =>
      refine ⟨'\x22', schema.text.toList ++ ['\x22'] ++
        '.' :: name.quoted.toList, ?_, by decide⟩
      rw [Piece.chars_eq rfl, toList_table, toList_quoted]
      rfl

theorem head?_charsWith_ne_dot (count : Nat) (fragment : Fragment) :
    (charsWith named count fragment).head? ≠ some '.' := by
  cases fragment with
  | nil => exact nofun
  | cons piece rest =>
      obtain ⟨first, others, hChars, hOther⟩ :=
        exists_chars_named piece (count + 1)
      rw [charsWith, hChars]
      exact fun hDot => hOther (Option.some.inj hDot)

namespace QualifiedAt

variable {cs rest before schema name after : List Char}

/-- No qualified name starts within text that has no quotes. -/
theorem of_append (hPlain : '\x22' ∉ cs)
    (h : QualifiedAt (cs ++ rest) before schema name after) :
    ∃ later, before = cs ++ later ∧
      QualifiedAt rest later schema name after := by
  obtain ⟨later, hBefore, hLater⟩ := h.quoted.of_append hPlain
  exact ⟨later, hBefore, hLater, h.closes⟩

/-- A name with no dot after it is not the schema of another. -/
theorem of_quoted (id : Identifier) (hRest : rest.head? ≠ some '.')
    (h : QualifiedAt (id.quoted.toList ++ rest) before schema name after) :
    ∃ later, before = id.quoted.toList ++ later ∧
      QualifiedAt rest later schema name after := by
  rw [toList_quoted] at h ⊢
  rcases h.quoted.of_quoted (quote_notMem_name id) with
    ⟨-, -, rfl⟩ | ⟨later, hBefore, hLater⟩
  · exact absurd rfl hRest
  · exact ⟨later, hBefore, hLater, h.closes⟩

/-- A piece that is no table is passed on the way to a qualified name. -/
theorem of_piece {piece : Piece} (hOther : ∀ schema name,
      piece ≠ .table schema name) (n : Nat) (hRest : rest.head? ≠ some '.')
    (h : QualifiedAt (piece.chars (named n) ++ rest) before schema name
      after) :
    ∃ later, before = piece.chars (named n) ++ later ∧
      QualifiedAt rest later schema name after := by
  cases piece with
  | word w => exact h.of_append w.quote_notMem
  | field id => exact h.of_append (quote_notMem_chars rfl _)
  | index digits => exact h.of_append (quote_notMem_chars rfl _)
  | bind value =>
      have hDigits := notMem_natDigits (c := '\x22') (by decide) n
      exact h.of_append (by simp [Piece.chars, named, hDigits])
  | column id => exact h.of_quoted id hRest
  | label id => exact h.of_quoted id hRest
  | table schema name => exact absurd rfl (hOther schema name)

/-- A table is the qualified name, or is passed on the way to it. -/
theorem of_table (id other : Identifier) (n : Nat)
    (hRest : rest.head? ≠ some '.')
    (h : QualifiedAt ((Piece.table id other).chars (named n) ++ rest) before
      schema name after) :
    (before = [] ∧ schema = id.text.toList ∧ name = other.text.toList ∧
        after = rest) ∨
      ∃ later, before = (Piece.table id other).chars (named n) ++ later ∧
        QualifiedAt rest later schema name after := by
  have hText : (Piece.table id other).chars (named n) ++ rest =
      id.quoted.toList ++ (['.'] ++ (other.quoted.toList ++ rest)) := by
    rw [Piece.chars_eq rfl, toList_table]
    simp
  rw [hText, toList_quoted] at h
  rcases h.quoted.of_quoted (quote_notMem_name id) with
    ⟨rfl, rfl, hAfter⟩ | ⟨dotted, rfl, hDotted⟩
  · rw [toList_quoted] at hAfter
    simp only [List.cons_append, List.append_assoc, List.nil_append,
      List.cons.injEq, true_and] at hAfter
    obtain ⟨hName, hRest⟩ := QuotedAt.eq_of_append_eq h.closes
      (quote_notMem_name other) hAfter
    exact .inl ⟨rfl, rfl, hName, hRest⟩
  · obtain ⟨second, rfl, hSecond⟩ :=
      of_append (by decide) ⟨hDotted, h.closes⟩
    obtain ⟨later, rfl, hLater⟩ := hSecond.of_quoted other hRest
    refine .inr ⟨later, ?_, hLater⟩
    rw [Piece.chars_eq rfl, toList_table, toList_quoted id]
    simp

end QualifiedAt

variable {before schema name after : List Char}

/-- A fragment without a table is passed on the way to a qualified name. -/
theorem qualifiedAt_append {fragment : Fragment}
    (h : ∀ schema name, .table schema name ∉ fragment) (count : Nat)
    (more : Fragment)
    (hAt : QualifiedAt (charsWith named count (fragment ++ more)) before
      schema name after) :
    ∃ later, before = charsWith named count fragment ++ later ∧
      QualifiedAt (charsWith named (count + (argsOf fragment).length) more)
        later schema name after := by
  induction fragment generalizing count before with
  | nil => exact ⟨before, rfl, hAt⟩
  | cons piece rest ih =>
      rw [List.cons_append, charsWith] at hAt
      obtain ⟨later, rfl, hLater⟩ := hAt.of_piece
        (fun schema name hTable => h schema name (hTable ▸ List.mem_cons_self))
        _ (head?_charsWith_ne_dot _ _)
      obtain ⟨last, rfl, hLast⟩ := ih
        (fun schema name hMem => h schema name (List.mem_cons_of_mem _ hMem))
        _ hLater
      rw [Nat.add_assoc, ← length_argsOf_cons] at hLast
      exact ⟨last, (List.append_assoc _ _ _).symm, hLast⟩

/-- A bare fragment has no table. -/
theorem Bare.table_notMem {fragment : Fragment} (h : Bare fragment)
    (schema name : Identifier) : .table schema name ∉ fragment := by
  induction h with
  | nil => exact List.not_mem_nil
  | @target id _ _ hSchema => exact absurd hSchema id.text_ne_empty
  | plain hPlain _ ih =>
      intro hMem
      rcases List.mem_cons.1 hMem with rfl | hRest
      · exact absurd hPlain Bool.false_ne_true
      · exact ih hRest
  | column _ _ ih => simpa using ih
  | named _ ih => simpa using ih
  | bind _ _ ih => simpa using ih

/-- The quotes of a piece come in pairs. -/
theorem count_chars (piece : Piece) (n : Nat) :
    (piece.chars (named n)).count '\x22' % 2 = 0 := by
  have hPlain : ∀ {cs : List Char}, '\x22' ∉ cs → cs.count '\x22' % 2 = 0 :=
    fun h => by rw [List.count_eq_zero.2 h]
  have hQuoted : ∀ id : Identifier, id.quoted.toList.count '\x22' = 2 := by
    intro id
    rw [toList_quoted, List.count_append, List.count_cons_self,
      List.count_eq_zero.2 (quote_notMem_name id)]
    rfl
  cases piece with
  | word w => exact hPlain w.quote_notMem
  | field id => exact hPlain (quote_notMem_chars rfl _)
  | index digits => exact hPlain (quote_notMem_chars rfl _)
  | bind value =>
      have hDigits := notMem_natDigits (c := '\x22') (by decide) n
      exact hPlain (by simp [Piece.chars, named, hDigits])
  | column id =>
      rw [Piece.chars_eq rfl, Piece.text, hQuoted]
  | label id =>
      rw [Piece.chars_eq rfl, Piece.text, hQuoted]
  | table schema name =>
      rw [Piece.chars_eq rfl, toList_table, List.count_append,
        List.count_cons_of_ne (by decide), hQuoted, hQuoted]

/-- So do those of a fragment. -/
theorem count_charsWith (count : Nat) (fragment : Fragment) :
    (charsWith named count fragment).count '\x22' % 2 = 0 := by
  induction fragment generalizing count with
  | nil => rfl
  | cons piece rest ih =>
      have hFirst := count_chars piece (count + 1)
      have hRest := ih (count + piece.values)
      rw [charsWith, List.count_append]
      omega

/-- The text of what is made around a table has one qualified name, that of
the table. -/
theorem Aims.onlyQualified (h : Aims table s.pieces) :
    OnlyQualified table.schema table.name s.prepare.sql := by
  obtain ⟨target, pre, post, hTarget, hPieces, hPre, hPost⟩ := h
  obtain ⟨schema, hSchema, hTarget⟩ := bind_eq_ok.1 hTarget
  obtain ⟨name, hName, hTarget⟩ := bind_eq_ok.1 hTarget
  rw [← identifier_eq_ok hSchema, ← identifier_eq_ok hName]
  rw [← pure_eq_ok.1 hTarget] at hPieces
  have hAround : s.prepare.sql.toList =
      charsWith named 0 (pre ++ .table schema name :: post) := by
    rw [s.toList_prepare, hPieces]
  refine ⟨charsWith named 0 pre, charsWith named (0 + (argsOf pre).length) post,
    ⟨⟨?_, count_charsWith 0 pre, quote_notMem_name schema⟩,
      quote_notMem_name name⟩, ?_⟩
  · rw [hAround, charsWith_append, charsWith, Piece.chars_eq rfl, toList_table,
      toList_quoted, toList_quoted]
    simp [Piece.values]
  · intro otherBefore otherSchema otherName otherAfter hAt
    rw [hAround] at hAt
    obtain ⟨later, rfl, hLater⟩ :=
      qualifiedAt_append hPre.table_notMem 0 _ hAt
    rw [charsWith] at hLater
    rcases hLater.of_table schema name _ (head?_charsWith_ne_dot _ _) with
      ⟨rfl, rfl, rfl, rfl⟩ | ⟨last, rfl, hLast⟩
    · exact ⟨List.append_nil _, rfl, rfl, rfl⟩
    · rw [← List.append_nil post] at hLast
      obtain ⟨rest, -, hNone⟩ := qualifiedAt_append hPost.table_notMem _ _ hLast
      have hLength := congrArg List.length hNone.quoted.text_eq
      simp [charsWith] at hLength

end TableGate.Sql