import TableGate.Proofs.Sql.Clause
import TableGate.Sql.Write

/-!
# Taking a statement apart

A statement is read the way SQL is: some words open a clause, and a clause
reaches to the next such word. `clausesOf` takes the pieces of a statement
apart by these words alone, without knowing how the statement was made, and
`MadeOf` says of which clauses a statement was put together. The two agree as
long as no clause has an opening word inside.

## Main results

* `MadeOf.clausesOf_eq`: a statement is taken apart into the clauses it was
  made of.
* `conjuncts?_of_whereClause`: the conjuncts of a statement are those of the
  filters of its WHERE clause.
-/

namespace TableGate.Sql

open TableGate.Filter (Conjunct conjuncts)
open Result (bind_eq_ok pure_eq_ok)

/-! ## Reading clauses -/

/-- The words that open a clause. -/
def Word.opensClause : Word → Bool
  | select | selectOne | selectCount | explain | insertInto | update
  | deleteFrom | fromTable | whereAll | groupBy | orderBy | limit | offset
  | defaultValues | values | onConflict | returning | set => true
  | _ => Bool.false

/-- Whether a piece opens a clause. -/
def Piece.opensClause : Piece → Bool
  | .word w => w.opensClause
  | _ => false

/-- The clauses of a statement: each opening word with the pieces up to the
next one. -/
def clausesOf : Fragment → List (Word × Fragment)
  | [] => []
  | .word w :: rest =>
      if w.opensClause then
        (w, rest.takeWhile fun piece => !piece.opensClause) :: clausesOf rest
      else clausesOf rest
  | _ :: rest => clausesOf rest

/-- The clause that a word opens. -/
def Statement.clause? (s : Statement) (w : Word) : Option Fragment :=
  (clausesOf s.pieces).lookup w

/-- The conjuncts of a statement with their alternatives; a statement without
a WHERE clause has none. -/
def Statement.conjuncts? (s : Statement) : Option (List (List Fragment)) :=
  match s.clause? .whereAll with
  | some expression => readClause (.word .whereAll :: expression)
  | none => some []

/-! ## Clauses without opening words inside -/

/-- No piece opens a clause. -/
def Quiet (fragment : Fragment) : Prop :=
  ∀ piece ∈ fragment, piece.opensClause = false

namespace Quiet

theorem nil : Quiet [] := by
  intro piece hPiece
  exact absurd hPiece List.not_mem_nil

theorem append {a b : Fragment} (ha : Quiet a) (hb : Quiet b) :
    Quiet (a ++ b) := by
  intro piece hPiece
  exact (List.mem_append.1 hPiece).elim (ha piece) (hb piece)

theorem cons {piece : Piece} {rest : Fragment}
    (hPiece : piece.opensClause = false) (hRest : Quiet rest) :
    Quiet (piece :: rest) := by
  intro other hOther
  rcases List.mem_cons.1 hOther with rfl | hLater
  · exact hPiece
  · exact hRest other hLater

theorem one {piece : Piece} (h : piece.opensClause = false) : Quiet [piece] :=
  .cons h .nil

theorem join {word : Word} (hWord : word.opensClause = false)
    {parts : List Fragment} (h : ∀ part ∈ parts, Quiet part) :
    Quiet (joinFragments word parts) := by
  induction parts with
  | nil => exact .nil
  | cons part others ih =>
      have hPart := h part List.mem_cons_self
      have hOthers := ih fun other hOther =>
        h other (List.mem_cons_of_mem _ hOther)
      cases others with
      | nil => exact hPart
      | cons next others => exact hPart.append (.cons hWord hOthers)

theorem commaList {parts : List Fragment} (h : ∀ part ∈ parts, Quiet part) :
    Quiet (commaList parts) := .join rfl h

end Quiet

theorem IsPath.quiet {path : Fragment} (h : IsPath path) : Quiet path := by
  obtain ⟨name, steps⟩ := h
  refine .cons rfl fun piece hPiece => ?_
  obtain ⟨⟨arrow, key⟩, -, hKey⟩ := List.mem_flatMap.1 hPiece
  cases key <;> simp [stepPieces] at hKey <;> rcases hKey with rfl | rfl <;> rfl

theorem IsOperand.quiet {operand : Fragment} (h : IsOperand operand) :
    Quiet operand := by
  cases h with
  | plain hPath => exact hPath.quiet
  | number hPath => exact (Quiet.cons rfl hPath.quiet).append (.one rfl)

theorem IsComparison.quiet {fragment : Fragment} (h : IsComparison fragment) :
    Quiet fragment := by
  cases h with
  | never => exact .one rfl
  | @test operand word hOperand hWord =>
      refine hOperand.quiet.append (.one ?_)
      cases word with
      | isNull | isNotNull | isTrue | isFalse => rfl
      | _ => exact absurd hWord Bool.false_ne_true
  | compare hOperand operator value =>
      exact hOperand.quiet.append (.cons rfl (.one rfl))
  | oneOf hPath value others =>
      refine (hPath.quiet.append (.cons rfl (.commaList ?_))).append (.one rfl)
      intro part hPart
      obtain ⟨item, -, rfl⟩ := List.mem_map.1 hPart
      exact .one rfl

/-! ## Statements made of clauses -/

/-- A part of a statement is put together from clauses. -/
structure MadeOf (part : Fragment) (clauses : List (Word × Fragment)) :
    Prop where
  opens : ∀ clause ∈ clauses, clause.1.opensClause = true
  quiet : ∀ clause ∈ clauses, Quiet clause.2
  eq : part = clauses.flatMap fun clause => .word clause.1 :: clause.2

namespace MadeOf

theorem nil : MadeOf [] [] :=
  ⟨fun _ h => absurd h List.not_mem_nil, fun _ h => absurd h List.not_mem_nil,
    rfl⟩

theorem one {w : Word} (hOpens : w.opensClause = true) {body : Fragment}
    (hBody : Quiet body) : MadeOf (.word w :: body) [(w, body)] := by
  refine ⟨fun clause h => ?_, fun clause h => ?_, by simp⟩
  · rw [List.mem_singleton.1 h]
    exact hOpens
  · rw [List.mem_singleton.1 h]
    exact hBody

theorem append {a b : Fragment} {first second : List (Word × Fragment)}
    (ha : MadeOf a first) (hb : MadeOf b second) :
    MadeOf (a ++ b) (first ++ second) := by
  refine ⟨fun clause h => ?_, fun clause h => ?_, ?_⟩
  · exact (List.mem_append.1 h).elim (ha.opens clause) (hb.opens clause)
  · exact (List.mem_append.1 h).elim (ha.quiet clause) (hb.quiet clause)
  · rw [List.flatMap_append, ← ha.eq, ← hb.eq]

/-- What does not open a clause opens none. -/
theorem clausesOf_quiet {body : Fragment} (h : Quiet body) (rest : Fragment) :
    clausesOf (body ++ rest) = clausesOf rest := by
  induction body with
  | nil => rfl
  | cons piece body ih =>
      have hPiece := h piece List.mem_cons_self
      have hBody := ih fun other hOther =>
        h other (List.mem_cons_of_mem _ hOther)
      cases piece with
      | word w =>
          rw [List.cons_append, clausesOf, if_neg, hBody]
          simpa [Piece.opensClause] using hPiece
      | _ => exact hBody

/-- A statement is taken apart into the clauses it was made of. -/
theorem clausesOf_eq {part : Fragment} {clauses : List (Word × Fragment)}
    (h : MadeOf part clauses) : clausesOf part = clauses := by
  obtain ⟨hOpens, hQuiet, rfl⟩ := h
  induction clauses with
  | nil => rfl
  | cons clause others ih =>
      obtain ⟨w, body⟩ := clause
      have hOthers := ih (fun c hc => hOpens c (List.mem_cons_of_mem _ hc))
        fun c hc => hQuiet c (List.mem_cons_of_mem _ hc)
      have hBody : Quiet body := hQuiet (w, body) List.mem_cons_self
      have hWord : w.opensClause = true := hOpens (w, body) List.mem_cons_self
      have hTake : (body ++ others.flatMap fun c => .word c.1 :: c.2).takeWhile
          (fun piece => !piece.opensClause) = body := by
        rw [List.takeWhile_append_of_pos fun piece hPiece => by
          simp [hBody piece hPiece]]
        cases others with
        | nil => simp
        | cons next others =>
            have hNext : next.1.opensClause = true := hOpens next (by simp)
            simp [Piece.opensClause, hNext]
      rw [List.flatMap_cons, List.cons_append, clausesOf, if_pos hWord, hTake,
        clausesOf_quiet hBody, hOthers]

end MadeOf

/-! ## The parts of a statement -/

theorem quiet_columnList {names : List String} {fragment : Fragment}
    (h : columnList names = .ok fragment) : Quiet fragment := by
  obtain ⟨columns, hColumns, hList⟩ := bind_eq_ok.1 h
  rw [← pure_eq_ok.1 hList]
  refine .commaList fun part hPart => ?_
  obtain ⟨piece, hPiece, rfl⟩ := List.mem_map.1 hPart
  obtain ⟨name, -, hName⟩ := Result.exists_of_mem_mapM hColumns hPiece
  obtain ⟨quoted, rfl⟩ := column_eq_ok hName
  exact .one rfl

theorem quiet_tablePiece {table : Table} {target : Piece}
    (h : tablePiece table = .ok target) : Quiet [target] := by
  obtain ⟨schema, -, h⟩ := bind_eq_ok.1 h
  obtain ⟨name, -, h⟩ := bind_eq_ok.1 h
  rw [← pure_eq_ok.1 h]
  exact .one rfl

/-- The clauses of a WHERE clause: one if there are filters. -/
def whereClauses : Fragment → List (Word × Fragment)
  | .word .whereAll :: expression => [(.whereAll, expression)]
  | _ => []

theorem madeOf_whereClause {filters : List Filter} {part : Fragment}
    (h : whereClause filters = .ok part) :
    MadeOf part (whereClauses part) := by
  obtain ⟨hClause, hRendered⟩ := whereClause_eq_clauseOf h
  cases hFound : conjuncts filters with
  | nil =>
      rw [hClause, hFound]
      exact .nil
  | cons c others =>
      rw [hClause, hFound]
      refine .one rfl (.join rfl fun part hPart => ?_)
      obtain ⟨d, hd, rfl⟩ := List.mem_map.1 hPart
      rw [← hFound] at hd
      have hOf := (Filter.conjunctsOf_conjuncts filters).of d hd
      have hPlaces : ∀ i ∈ d.places, Quiet (renderedAt filters i) := by
        intro i hi
        have hAt := List.getElem?_eq_getElem (hOf.lt_length hi)
        exact (filterFragment_shape (hRendered i _ hAt)).quiet
      cases d with
      | alone place => exact hPlaces place (List.mem_singleton_self place)
      | anyOf places =>
          refine (Quiet.cons rfl (.join rfl fun part hPart => ?_)).append
            (.one rfl)
          obtain ⟨i, hi, rfl⟩ := List.mem_map.1 hPart
          exact hPlaces i hi

/-- The conjuncts of a statement are those of the filters of its WHERE
clause. -/
theorem conjuncts?_of_whereClause {filters : List Filter} {part : Fragment}
    (h : whereClause filters = .ok part) {s : Statement}
    (hClause : s.clause? .whereAll = (whereClauses part).lookup .whereAll) :
    s.conjuncts? = some ((conjuncts filters).map fun c =>
      c.places.map (renderedAt filters)) := by
  obtain ⟨hPart, hRendered⟩ := whereClause_eq_clauseOf h
  have hRead : readClause part = some ((conjuncts filters).map fun c =>
      c.places.map (renderedAt filters)) := by
    have hFound := Filter.conjunctsOf_conjuncts filters
    rw [hPart]
    refine readClause_clauseOf (fun c hc => (hFound.of c hc).places_ne_nil)
      fun c hc i hi => ?_
    have hAt := List.getElem?_eq_getElem ((hFound.of c hc).lt_length hi)
    exact filterFragment_shape (hRendered i _ hAt)
  rw [Statement.conjuncts?, hClause, ← hRead, hPart]
  cases conjuncts filters with
  | nil => rfl
  | cons c others => rfl

end TableGate.Sql
