import Mathlib.Data.List.Chain
import TableGate.Proofs.Sql.Shape
import TableGate.Sql.Write

/-!
# What stands next to what in a statement

The pieces of a statement are written one after the other without anything
between them, so two of them may run together: a number and the digits after
it, or a name and a name. Every word of the vocabulary brings the blanks it
needs. This module shows that they suffice: in the parts of a statement no
letters, digits or quotes meet letters, digits or quotes of another piece, and
the keys of a path only follow arrows.

## Main results

* `Loose.append`, `Loose.tail`, `Loose.word`: how loose fragments are put
  together.
* `tail_whereClause`: the pieces of a WHERE clause stand apart.
-/

namespace TableGate.Sql

open Result (bind_eq_ok pure_eq_ok)

/-! ## Edges -/

/-- What the text of a piece starts or ends with: letters, digits or quotes,
the characters of an operator, or something else. -/
inductive Edge
  | bare
  | operator
  | other
deriving DecidableEq

/-- Whether two edges run together. -/
def Edge.touches : Edge → Edge → Bool
  | bare, bare => true
  | operator, operator => true
  | _, _ => false

/-- The edge with which the text of a word starts. -/
def Word.start : Word → Edge
  | select | selectOne | selectCount | explain | insertInto | update
  | deleteFrom | false | function _ => .bare
  | arrow _ => .operator
  | _ => .other

/-- The edge with which the text of a word ends. -/
def Word.finish : Word → Edge
  | selectOne | asc | desc | nullsFirst | nullsLast | defaultValues | doNothing
  | assignNull | asNumeric | false | isNull | isNotNull | isTrue | isFalse =>
      .bare
  | arrow _ => .operator
  | _ => .other

/-- The edge with which the text of a piece starts. -/
def Piece.start : Piece → Edge
  | .word w => w.start
  | _ => .bare

/-- The edge with which the text of a piece ends. -/
def Piece.finish : Piece → Edge
  | .word w => w.finish
  | _ => .bare

/-- Whether a piece is a key of a path: the name of a field or an array
index. -/
def Piece.isKey : Piece → Bool
  | .field _ | .index _ => true
  | _ => false

/-- Whether a piece is an arrow. -/
def Piece.isArrow : Piece → Bool
  | .word (.arrow _) => true
  | _ => false

/-- A piece may follow another if they do not run together; a key only follows
an arrow. -/
def Piece.MayFollow (p q : Piece) : Prop :=
  p.finish.touches q.start = false ∧ (q.isKey = true → p.isArrow = true)

/-- Pieces that stand apart. -/
def Tidy (fragment : Fragment) : Prop := fragment.IsChain Piece.MayFollow

/-! ## Loose fragments -/

/-- A tidy fragment that starts and ends outside of paths. -/
structure Loose (fragment : Fragment) : Prop where
  tidy : Tidy fragment
  head : ∀ p ∈ fragment.head?, p.start ≠ .operator ∧ p.isKey = false
  last : ∀ p ∈ fragment.getLast?, p.finish ≠ .operator

/-- A loose fragment that brings the blank or the punctuation before it. -/
structure Tail (fragment : Fragment) : Prop extends Loose fragment where
  start_eq : ∀ p ∈ fragment.head?, p.start = .other

namespace Loose

theorem nil : Loose [] := ⟨List.isChain_nil, by simp, by simp⟩

/-- A fragment of one piece. -/
theorem piece {p : Piece} (hStart : p.start ≠ .operator)
    (hKey : p.isKey = false) (hFinish : p.finish ≠ .operator) :
    Loose [p] := by
  refine ⟨List.isChain_singleton p, fun q hq => ?_, fun q hq => ?_⟩
  · obtain rfl : p = q := Option.some.inj hq
    exact ⟨hStart, hKey⟩
  · obtain rfl : p = q := Option.some.inj hq
    exact hFinish

theorem bare {p : Piece} (hStart : p.start = .bare) (hKey : p.isKey = false)
    (hFinish : p.finish = .bare) : Loose [p] := by
  refine piece ?_ hKey ?_
  · rw [hStart]
    decide
  · rw [hFinish]
    decide

/-- Loose fragments may follow each other unless both are bare. -/
theorem append {a b : Fragment} (ha : Loose a) (hb : Loose b)
    (hApart : ∀ p ∈ a.getLast?, ∀ q ∈ b.head?,
      p.finish = .other ∨ q.start = .other) : Loose (a ++ b) := by
  refine ⟨ha.tidy.append hb.tidy fun p hp q hq => ?_, fun p hp => ?_,
    fun p hp => ?_⟩
  · obtain ⟨hOperator, hKey⟩ := hb.head q hq
    have hNot := ha.last p hp
    refine ⟨?_, fun h => absurd h (by rw [hKey]; decide)⟩
    rcases hApart p hp q hq with hOther | hOther
    · rw [hOther]
      rfl
    · rw [hOther]
      cases p.finish <;> rfl
  · cases a with
    | nil => exact hb.head p hp
    | cons first rest => exact ha.head p hp
  · rw [List.getLast?_append, Option.mem_def, Option.or_eq_some_iff] at hp
    rcases hp with hp | ⟨-, hp⟩
    · exact hb.last p hp
    · exact ha.last p hp

theorem tail {a b : Fragment} (ha : Loose a) (hb : Tail b) : Loose (a ++ b) :=
  ha.append hb.toLoose fun _ _ q hq => Or.inr (hb.start_eq q hq)

/-- A word that ends in a blank or punctuation may stand before everything. -/
theorem word {w : Word} {b : Fragment} (hb : Loose b)
    (hStart : w.start ≠ .operator) (hFinish : w.finish = .other) :
    Loose (.word w :: b) := by
  have hWord : Loose [.word w] := by
    refine piece hStart rfl ?_
    rw [Piece.finish, hFinish]
    decide
  refine hWord.append hb fun p hp _ _ => Or.inl ?_
  obtain rfl : Piece.word w = p := Option.some.inj hp
  exact hFinish

end Loose

namespace Tail

theorem nil : Tail [] := ⟨.nil, by simp⟩

theorem append {a b : Fragment} (ha : Tail a) (hb : Tail b) :
    Tail (a ++ b) := by
  refine ⟨ha.toLoose.tail hb, fun p hp => ?_⟩
  cases a with
  | nil => exact hb.start_eq p hp
  | cons first rest => exact ha.start_eq p hp

/-- A word between blanks may stand between loose fragments. -/
theorem word {w : Word} {b : Fragment} (hb : Loose b)
    (hStart : w.start = .other) (hFinish : w.finish = .other) :
    Tail (.word w :: b) := by
  refine ⟨hb.word (by rw [hStart]; decide) hFinish, fun p hp => ?_⟩
  obtain rfl : Piece.word w = p := Option.some.inj hp
  exact hStart

/-- A word with a blank before it may end a fragment. -/
theorem final {w : Word} (hStart : w.start = .other)
    (hFinish : w.finish ≠ .operator) : Tail [.word w] := by
  refine ⟨.piece ?_ rfl hFinish, fun p hp => ?_⟩
  · rw [Piece.start, hStart]
    decide
  · obtain rfl : Piece.word w = p := Option.some.inj hp
    exact hStart

end Tail

theorem Loose.join {w : Word} (hStart : w.start = .other)
    (hFinish : w.finish = .other) {parts : List Fragment}
    (h : ∀ part ∈ parts, Loose part) : Loose (joinFragments w parts) := by
  induction parts with
  | nil => exact .nil
  | cons part others ih =>
      have hPart := h part List.mem_cons_self
      have hOthers := ih fun other hOther =>
        h other (List.mem_cons_of_mem _ hOther)
      cases others with
      | nil => exact hPart
      | cons next others => exact hPart.tail (.word hOthers hStart hFinish)

theorem Loose.commaList {parts : List Fragment}
    (h : ∀ part ∈ parts, Loose part) : Loose (commaList parts) :=
  .join rfl rfl h

theorem Loose.bind (value : Value) : Loose [.bind value] := .bare rfl rfl rfl

/-! ## Filters -/

/-- Keys and arrows alternate after a column. -/
theorem tidy_steps (steps : List Step) {p : Piece}
    (hFinish : p.finish = .bare) :
    Tidy (p :: steps.flatMap stepPieces) ∧
      ∀ q ∈ (p :: steps.flatMap stepPieces).getLast?, q.finish = .bare := by
  induction steps generalizing p with
  | nil =>
      refine ⟨List.isChain_singleton p, fun q hq => ?_⟩
      obtain rfl : p = q := Option.some.inj hq
      exact hFinish
  | cons step rest ih =>
      have hArrow : p.MayFollow (.word (.arrow step.arrow)) := by
        refine ⟨?_, fun h => absurd h Bool.false_ne_true⟩
        rw [hFinish]
        rfl
      obtain ⟨key, hStep, hBare, hKey⟩ : ∃ key : Piece,
          stepPieces step = [.word (.arrow step.arrow), key] ∧
            key.finish = .bare ∧
            (Piece.word (.arrow step.arrow)).MayFollow key := by
        unfold stepPieces
        cases step.key with
        | field name => exact ⟨_, rfl, rfl, rfl, fun _ => rfl⟩
        | index digits => exact ⟨_, rfl, rfl, rfl, fun _ => rfl⟩
      obtain ⟨hTidy, hLast⟩ := ih hBare
      have hPieces : p :: (step :: rest).flatMap stepPieces =
          p :: .word (.arrow step.arrow) :: key ::
            rest.flatMap stepPieces := by
        rw [List.flatMap_cons, hStep]
        rfl
      rw [hPieces]
      refine ⟨.cons_cons hArrow (.cons_cons hKey hTidy), fun q hq => hLast q ?_⟩
      rwa [List.getLast?_cons_cons, List.getLast?_cons_cons] at hq

theorem IsPath.loose {path : Fragment} (h : IsPath path) : Loose path := by
  obtain ⟨name, steps⟩ := h
  obtain ⟨hTidy, hLast⟩ := tidy_steps steps (p := .column name) rfl
  refine ⟨hTidy, fun q hq => ?_, fun q hq => ?_⟩
  · obtain rfl : Piece.column name = q := Option.some.inj hq
    exact ⟨Edge.noConfusion, rfl⟩
  · rw [hLast q hq]
    decide

theorem IsOperand.loose {operand : Fragment} (h : IsOperand operand) :
    Loose operand := by
  cases h with
  | plain hPath => exact hPath.loose
  | number hPath =>
      exact (hPath.loose.word (by decide) rfl).tail (.final rfl (by decide))

theorem IsComparison.loose {fragment : Fragment} (h : IsComparison fragment) :
    Loose fragment := by
  cases h with
  | never => exact .bare rfl rfl rfl
  | @test operand word hOperand hWord =>
      refine hOperand.loose.tail (.final ?_ ?_)
      · cases word <;> first | rfl | exact absurd hWord Bool.false_ne_true
      · cases word <;> first | decide | exact absurd hWord Bool.false_ne_true
  | compare hOperand operator value =>
      exact hOperand.loose.tail (.word (.bind value) rfl rfl)
  | oneOf hPath value others =>
      have hItems : Loose (commaList ((value :: others).map fun item =>
          [.bind item])) := by
        refine .commaList fun item hItem => ?_
        obtain ⟨v, -, rfl⟩ := List.mem_map.1 hItem
        exact .bind v
      exact (hPath.loose.tail (.word hItems rfl rfl)).tail
        (.final rfl (by decide))

theorem loose_filterFragment {f : Filter} {fragment : Fragment}
    (h : filterFragment f = .ok fragment) : Loose fragment :=
  (filterFragment_shape h).loose

theorem loose_of_mapM {α : Type} {build : α → Result Fragment} {xs : List α}
    {parts : List Fragment}
    (hBuild : ∀ x fragment, build x = .ok fragment → Loose fragment)
    (h : xs.mapM build = .ok parts) : ∀ part ∈ parts, Loose part := by
  intro part hPart
  obtain ⟨x, -, hx⟩ := Result.exists_of_mem_mapM h hPart
  exact hBuild x part hx

theorem loose_conditionFragment {c : Condition} {fragment : Fragment}
    (h : conditionFragment c = .ok fragment) : Loose fragment := by
  cases c with
  | single f => exact loose_filterFragment h
  | anyOf members =>
      obtain ⟨parts, hParts, h⟩ := bind_eq_ok.1 h
      rw [← pure_eq_ok.1 h]
      have hMembers := loose_of_mapM (fun _ _ => loose_filterFragment) hParts
      exact ((Loose.join rfl rfl hMembers).word (by decide) rfl).tail
        (.final rfl (by decide))

theorem tail_whereClause {filters : List Filter} {clause : Fragment}
    (h : whereClause filters = .ok clause) : Tail clause := by
  obtain ⟨parts, hParts, h⟩ := bind_eq_ok.1 h
  have hConditions := loose_of_mapM (fun _ _ => loose_conditionFragment) hParts
  cases parts with
  | nil =>
      rw [← pure_eq_ok.1 h]
      exact .nil
  | cons part others =>
      rw [← pure_eq_ok.1 h]
      exact .word (.join rfl rfl hConditions) rfl rfl

/-! ## The parts of a SELECT -/

theorem loose_tablePiece {table : Table} {piece : Piece}
    (h : tablePiece table = .ok piece) : Loose [piece] := by
  obtain ⟨schema, -, h⟩ := bind_eq_ok.1 h
  obtain ⟨name, -, h⟩ := bind_eq_ok.1 h
  rw [← pure_eq_ok.1 h]
  exact .bare rfl rfl rfl

theorem loose_column {name : String} {piece : Piece}
    (h : column name = .ok piece) : Loose [piece] := by
  obtain ⟨quoted, rfl⟩ := column_eq_ok h
  exact .bare rfl rfl rfl

theorem loose_columnList {names : List String} {fragment : Fragment}
    (h : columnList names = .ok fragment) : Loose fragment := by
  obtain ⟨pieces, hPieces, h⟩ := bind_eq_ok.1 h
  rw [← pure_eq_ok.1 h]
  refine .commaList fun part hPart => ?_
  obtain ⟨piece, hPiece, rfl⟩ := List.mem_map.1 hPart
  obtain ⟨name, -, hName⟩ := Result.exists_of_mem_mapM hPieces hPiece
  exact loose_column hName

theorem loose_selectColumn {name : String} {fragment : Fragment}
    (h : selectColumn name = .ok fragment) : Loose fragment := by
  obtain ⟨path, -, h⟩ := bind_eq_ok.1 h
  split at h
  · obtain ⟨pathPart, hPath, h⟩ := bind_eq_ok.1 h
    obtain ⟨label, -, h⟩ := bind_eq_ok.1 h
    rw [← pure_eq_ok.1 h]
    have hLabel : Loose [.label label] := .bare rfl rfl rfl
    exact (pathFragment_shape hPath).loose.tail (.word hLabel rfl rfl)
  · obtain ⟨piece, hPiece, h⟩ := bind_eq_ok.1 h
    rw [← pure_eq_ok.1 h]
    exact loose_column hPiece

theorem loose_selectAggregate {a : Aggregation} {fragment : Fragment}
    (h : selectAggregate a = .ok fragment) : Loose fragment := by
  obtain ⟨argument, label, hArgument, rfl⟩ : ∃ argument label,
      Loose [argument] ∧ fragment = [.word (.function a.function), argument,
        .word .closeParen, .word .asName, .label label] := by
    unfold selectAggregate at h
    split at h
    · obtain ⟨argument, hArgument, h⟩ := bind_eq_ok.1 h
      obtain ⟨label, -, h⟩ := bind_eq_ok.1 h
      rw [← Except.ok.inj hArgument] at h
      exact ⟨.word .star, label, .piece (by decide) rfl (by decide),
        (pure_eq_ok.1 h).symm⟩
    · obtain ⟨argument, hArgument, h⟩ := bind_eq_ok.1 h
      obtain ⟨label, -, h⟩ := bind_eq_ok.1 h
      exact ⟨argument, label, loose_column hArgument, (pure_eq_ok.1 h).symm⟩
  have hLabel : Loose [.label label] := .bare rfl rfl rfl
  have hClosed : Tail [.word .closeParen, .word .asName, .label label] :=
    .word (Tail.word hLabel rfl rfl).toLoose rfl rfl
  exact (hArgument.tail hClosed).word Edge.noConfusion rfl

theorem loose_selectList {params : Params} {fragment : Fragment}
    (h : selectList params = .ok fragment) : Loose fragment := by
  obtain ⟨columns, hColumns, h⟩ := bind_eq_ok.1 h
  obtain ⟨aggregates, hAggregates, h⟩ := bind_eq_ok.1 h
  have hParts : ∀ part ∈ columns ++ aggregates, Loose part := by
    intro part hPart
    rcases List.mem_append.1 hPart with hPart | hPart
    · exact loose_of_mapM (fun _ _ => loose_selectColumn) hColumns part hPart
    · exact loose_of_mapM (fun _ _ => loose_selectAggregate) hAggregates part
        hPart
  split at h
  · rw [← pure_eq_ok.1 h]
    exact .piece (by decide) rfl (by decide)
  · rw [← pure_eq_ok.1 h]
    exact .commaList hParts

theorem tail_groupClause {columns : List String} {fragment : Fragment}
    (h : groupClause columns = .ok fragment) : Tail fragment := by
  unfold groupClause at h
  split at h
  · rw [← pure_eq_ok.1 h]
    exact .nil
  · obtain ⟨names, hNames, h⟩ := bind_eq_ok.1 h
    rw [← pure_eq_ok.1 h]
    exact .word (loose_columnList hNames) rfl rfl

theorem tail_nullsWords {token : String} {fragment : Fragment}
    (h : nullsWords token = .ok fragment) : Tail fragment := by
  unfold nullsWords at h
  split_ifs at h
  · rw [← Except.ok.inj h]
    exact .nil
  · rw [← Except.ok.inj h]
    exact .final rfl (by decide)
  · rw [← Except.ok.inj h]
    exact .final rfl (by decide)
  · exact absurd h Result.refuse_ne_ok

theorem loose_orderEntry {entry : OrderBy} {fragment : Fragment}
    (h : orderEntry entry = .ok fragment) : Loose fragment := by
  obtain ⟨nulls, hNulls, h⟩ := bind_eq_ok.1 h
  obtain ⟨path, -, h⟩ := bind_eq_ok.1 h
  obtain ⟨column, hColumn, h⟩ := bind_eq_ok.1 h
  rw [← pure_eq_ok.1 h]
  have hDirection :
      Tail [.word (if entry.desc then Word.desc else Word.asc)] := by
    split
    · exact .final rfl (by decide)
    · exact .final rfl (by decide)
  exact (pathFragment_shape hColumn).loose.tail
    (hDirection.append (tail_nullsWords hNulls))

theorem tail_orderClause {order : List OrderBy} {fragment : Fragment}
    (h : orderClause order = .ok fragment) : Tail fragment := by
  unfold orderClause at h
  split at h
  · rw [← pure_eq_ok.1 h]
    exact .nil
  · obtain ⟨entries, hEntries, h⟩ := bind_eq_ok.1 h
    rw [← pure_eq_ok.1 h]
    exact .word (.commaList (loose_of_mapM (fun _ _ => loose_orderEntry)
      hEntries)) rfl rfl

theorem tail_boundClause {word : Word} (hStart : word.start = .other)
    (hFinish : word.finish = .other) (bound : Option Int) :
    Tail (boundClause word bound) := by
  cases bound with
  | none => exact .nil
  | some n => exact .word (.bind _) hStart hFinish

end TableGate.Sql
