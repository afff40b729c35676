import TableGate.Proofs.Sql.Placeholders
import TableGate.Proofs.Task

/-!
# The word a statement begins with

What a statement does is told by the word that its text begins with: it reads,
counts, asks for an estimate, or writes. What a database answers to a text is
therefore answered to the command that the text was made for.

## Main results

* `select_opens` and the like: a statement begins with the word of its command.
* `Statement.Opens.toList_prepare`: so does the text that is sent.
-/

namespace TableGate.Sql

open Result (bind_eq_ok of_check_eq_ok pure_eq_ok)

/-- The statement begins with a word. -/
def Statement.Opens (w : Word) (s : Statement) : Prop :=
  ∃ rest, s.pieces = .word w :: rest

/-- The text of a statement begins with the text of its word. -/
theorem Statement.Opens.toList_prepare {w : Word} {s : Statement}
    (h : s.Opens w) :
    ∃ more, s.prepare.sql.toList = w.text.toList ++ more := by
  obtain ⟨rest, hPieces⟩ := h
  exact ⟨_, by rw [s.toList_prepare, hPieces, charsWith]; rfl⟩

/-! ## Commands -/

variable {table : Table} {params : Params} {key : List Value}
  {values : Fields} {upsert : Option Upsert} {s : Statement}

theorem select_opens (h : select table params = .ok s) : s.Opens .select := by
  obtain ⟨target, -, h⟩ := bind_eq_ok.1 h
  obtain ⟨columns, -, h⟩ := bind_eq_ok.1 h
  obtain ⟨filters, -, h⟩ := bind_eq_ok.1 h
  obtain ⟨wherePart, -, h⟩ := bind_eq_ok.1 h
  obtain ⟨groupPart, -, h⟩ := bind_eq_ok.1 h
  obtain ⟨orderPart, -, h⟩ := bind_eq_ok.1 h
  rw [← pure_eq_ok.1 h]
  exact ⟨_, rfl⟩

/-- Whatever is counted is counted from somewhere. -/
theorem exists_pieces_count (h : count table params = .ok s) :
    ∃ rest, s.pieces = .word .selectCount :: .word .fromTable :: rest := by
  obtain ⟨target, -, h⟩ := bind_eq_ok.1 h
  obtain ⟨wherePart, -, h⟩ := bind_eq_ok.1 h
  split at h
  · rw [← pure_eq_ok.1 h]
    exact ⟨_, rfl⟩
  · obtain ⟨groupPart, -, h⟩ := bind_eq_ok.1 h
    rw [← pure_eq_ok.1 h]
    exact ⟨_, rfl⟩

theorem count_opens (h : count table params = .ok s) :
    s.Opens .selectCount := by
  obtain ⟨rest, hPieces⟩ := exists_pieces_count h
  exact ⟨_, hPieces⟩

theorem explain_opens (h : explain table params = .ok s) :
    s.Opens .explain := by
  obtain ⟨whole, -, h⟩ := bind_eq_ok.1 h
  rw [← pure_eq_ok.1 h]
  exact ⟨_, rfl⟩

theorem selectByKey_opens (h : selectByKey table key params = .ok s) :
    s.Opens .select := by
  obtain ⟨target, -, h⟩ := bind_eq_ok.1 h
  obtain ⟨columns, -, h⟩ := bind_eq_ok.1 h
  obtain ⟨filters, -, h⟩ := bind_eq_ok.1 h
  obtain ⟨wherePart, -, h⟩ := bind_eq_ok.1 h
  rw [← pure_eq_ok.1 h]
  exact ⟨_, rfl⟩

theorem insertBatch_opens {records : List Value}
    (h : insertBatch table records upsert = .ok s) : s.Opens .insertInto := by
  obtain ⟨target, -, h⟩ := bind_eq_ok.1 h
  obtain ⟨-, h⟩ := of_check_eq_ok h
  obtain ⟨records, -, h⟩ := bind_eq_ok.1 h
  obtain ⟨columns, -, h⟩ := bind_eq_ok.1 h
  obtain ⟨rows, -, h⟩ := bind_eq_ok.1 h
  obtain ⟨names, -, h⟩ := bind_eq_ok.1 h
  obtain ⟨conflict, -, h⟩ := bind_eq_ok.1 h
  obtain ⟨result, -, h⟩ := bind_eq_ok.1 h
  rw [← pure_eq_ok.1 h]
  exact ⟨_, rfl⟩

theorem insert_opens (h : insert table values upsert = .ok s) :
    s.Opens .insertInto := by
  unfold insert at h
  split at h
  · obtain ⟨target, -, h⟩ := bind_eq_ok.1 h
    obtain ⟨conflict, -, h⟩ := bind_eq_ok.1 h
    obtain ⟨result, -, h⟩ := bind_eq_ok.1 h
    rw [← pure_eq_ok.1 h]
    exact ⟨_, rfl⟩
  · exact insertBatch_opens h

theorem updateWhere_opens {target : Piece} {filters : List Filter}
    (h : updateWhere table target values filters = .ok s) :
    s.Opens .update := by
  unfold updateWhere at h
  obtain ⟨-, h⟩ := of_check_eq_ok h
  obtain ⟨-, -, h⟩ := bind_eq_ok.1 h
  obtain ⟨assignments, -, h⟩ := bind_eq_ok.1 h
  obtain ⟨wherePart, -, h⟩ := bind_eq_ok.1 h
  obtain ⟨result, -, h⟩ := bind_eq_ok.1 h
  rw [← pure_eq_ok.1 h]
  exact ⟨_, rfl⟩

theorem update_opens (h : update table values params = .ok s) :
    s.Opens .update := by
  obtain ⟨target, -, h⟩ := bind_eq_ok.1 h
  exact updateWhere_opens (of_check_eq_ok h).2

theorem updateByKey_opens (h : updateByKey table key values = .ok s) :
    s.Opens .update := by
  obtain ⟨target, -, h⟩ := bind_eq_ok.1 h
  obtain ⟨filters, -, h⟩ := bind_eq_ok.1 h
  exact updateWhere_opens h

theorem deleteWhere_opens {target : Piece} {filters : List Filter}
    (h : deleteWhere table target filters = .ok s) : s.Opens .deleteFrom := by
  obtain ⟨wherePart, -, h⟩ := bind_eq_ok.1 h
  obtain ⟨result, -, h⟩ := bind_eq_ok.1 h
  rw [← pure_eq_ok.1 h]
  exact ⟨_, rfl⟩

theorem delete_opens (h : delete table params = .ok s) :
    s.Opens .deleteFrom := by
  obtain ⟨target, -, h⟩ := bind_eq_ok.1 h
  exact deleteWhere_opens (of_check_eq_ok h).2

theorem deleteByKey_opens (h : deleteByKey table key = .ok s) :
    s.Opens .deleteFrom := by
  obtain ⟨target, -, h⟩ := bind_eq_ok.1 h
  obtain ⟨filters, -, h⟩ := bind_eq_ok.1 h
  exact deleteWhere_opens h

end TableGate.Sql

namespace TableGate

theorem Engine.insertion_opens {table : Table} {body : Value}
    {upsert : Option Upsert} {s : Sql.Statement}
    (h : insertion table body upsert = .ok s) : s.Opens .insertInto := by
  obtain ⟨target, -, h⟩ := Result.bind_eq_ok.1 h
  split at h
  · exact Sql.insert_opens h
  · exact Sql.insertBatch_opens h
  · exact absurd h Result.refuse_ne_ok

end TableGate

namespace TableGate.Sql

/-! ## Texts -/

variable {table : Table} {params : Params} {s : Statement}

/-- Whether a text asks the planner for an estimate. -/
def PreparedStatement.explains (p : PreparedStatement) : Bool :=
  Text.startsWith p.sql.toList "EXPLAIN (FORMAT JSON) ".toList

/-- Whether a text counts rows. -/
def PreparedStatement.counts (p : PreparedStatement) : Bool :=
  Text.startsWith p.sql.toList "SELECT COUNT(*) FROM ".toList

/-- To count is not to ask for an estimate. -/
theorem PreparedStatement.explains_eq_false_of_counts {p : PreparedStatement}
    (h : p.counts = true) : p.explains = false := by
  obtain ⟨rest, hText⟩ := List.isPrefixOf_iff_prefix.1 h
  rw [explains, ← hText]
  rfl

theorem explain_explains (h : explain table params = .ok s) :
    s.prepare.explains = true := by
  obtain ⟨more, hText⟩ := (explain_opens h).toList_prepare
  rw [PreparedStatement.explains, hText]
  rfl

theorem count_counts (h : count table params = .ok s) :
    s.prepare.counts = true := by
  obtain ⟨rest, hPieces⟩ := exists_pieces_count h
  rw [PreparedStatement.counts, s.toList_prepare, hPieces]
  rfl

/-- The words with which all other statements begin. -/
def openings : List Word := [.select, .insertInto, .update, .deleteFrom]

theorem Statement.Opens.explains_eq_false {w : Word} (h : s.Opens w)
    (hw : w ∈ openings) : s.prepare.explains = false := by
  obtain ⟨more, hText⟩ := h.toList_prepare
  rw [PreparedStatement.explains, hText]
  simp only [openings, List.mem_cons, List.not_mem_nil, or_false] at hw
  rcases hw with rfl | rfl | rfl | rfl
  all_goals rfl

end TableGate.Sql
