import TableGate.Proofs.Filter.Conjuncts
import TableGate.Proofs.Sql.Shape

/-!
# The structure of a WHERE clause

A clause is put together from the renderings of filters with AND, OR and
parentheses. `clauseOf` says how, over the places of the filters. Whether the
parentheses stand where they have to is another question: `readClause` takes
a clause apart again the way SQL does, by the words outside of parentheses and
with AND binding more tightly than OR.

## Main results

* `readClause_clauseOf`: read as SQL, a clause has the conjuncts it renders.
* `whereClause_renders`: the clause of a list of filters renders each of them
  once and means what they mean.
-/

namespace TableGate.Sql

open TableGate.Filter
  (Conjunct ConjunctsOf conjuncts conjunctAt conditionOf leaders)
open Result (bind_eq_ok pure_eq_ok mapM_eq_ok)

/-! ## Reading a clause -/

/-- The level of parentheses after a piece, if nothing is closed too often. -/
def Piece.level? : Nat → Piece → Option Nat
  | level, .word .openParen
  | level, .word .openList
  | level, .word (.function _) => some (level + 1)
  | level, .word .closeParen
  | level, .word .asNumeric => if level = 0 then none else some (level - 1)
  | level, _ => some level

/-- The parts of an expression between the occurrences of a word outside of
parentheses, starting at a level. -/
def splitAround? (between : Word) : Nat → Fragment → Option (List Fragment)
  | level, [] => if level = 0 then some [[]] else none
  | level, piece :: rest =>
      if piece = .word between ∧ level = 0 then
        (splitAround? between 0 rest).map fun parts => [] :: parts
      else
        (piece.level? level).bind fun inner =>
          (splitAround? between inner rest).map
            (List.modifyHead fun part => piece :: part)

/-- The inside of an expression in parentheses. -/
def inside? : Fragment → Option Fragment
  | .word .openParen :: rest =>
      if rest.getLast? = some (.word .closeParen) then some rest.dropLast
      else none
  | _ => none

/-- The alternatives of an OR without AND. -/
def alternatives? (expression : Fragment) : Option (List Fragment) := do
  let parts ← splitAround? .or 0 expression
  if parts.all fun part => splitAround? .and 0 part == some [part] then parts
  else none

/-- The alternatives of a conjunct: of what is in its parentheses, or else
itself. -/
def conjunct? (part : Fragment) : Option (List Fragment) :=
  match inside? part with
  | some inner => alternatives? inner
  | none => some [part]

/-- The conjuncts of a clause with their alternatives. Since AND binds more
tightly than OR, there must be no OR outside of parentheses. -/
def readClause : Fragment → Option (List (List Fragment))
  | [] => some []
  | .word .whereAll :: expression => do
      if splitAround? .or 0 expression = some [expression] then
        (← splitAround? .and 0 expression).mapM conjunct?
      else none
  | _ => none

/-! ## Expressions that are not cut -/

/-- A fragment is passed when a cut goes over it without cutting, from one
level of parentheses to another. -/
def Passes (between : Word) (level : Nat) (fragment : Fragment)
    (after : Nat) : Prop :=
  ∀ rest, splitAround? between level (fragment ++ rest) =
    (splitAround? between after rest).map
      (List.modifyHead fun part => fragment ++ part)

namespace Passes

variable {between : Word} {level inner after : Nat} {a b : Fragment}

theorem nil : Passes between level [] level := by
  intro rest
  have hSame : List.modifyHead (fun part : Fragment => [] ++ part) = id := by
    funext parts
    cases parts <;> rfl
  rw [hSame, Option.map_id]
  rfl

theorem append (ha : Passes between level a inner)
    (hb : Passes between inner b after) :
    Passes between level (a ++ b) after := by
  intro rest
  rw [List.append_assoc, ha, hb, Option.map_map]
  congr 1
  funext parts
  cases parts with
  | nil => rfl
  | cons part parts =>
      exact congrArg (· :: parts) (List.append_assoc a b part).symm

theorem piece {piece : Piece}
    (hOther : ¬ (piece = .word between ∧ level = 0))
    (hLevel : piece.level? level = some after) :
    Passes between level [piece] after := by
  intro rest
  rw [List.singleton_append, splitAround?, if_neg hOther, hLevel]
  rfl

theorem join {word : Word} {parts : List Fragment}
    (hWord : Passes between level [.word word] level)
    (h : ∀ part ∈ parts, Passes between level part level) :
    Passes between level (joinFragments word parts) level := by
  induction parts with
  | nil => exact nil
  | cons part others ih =>
      have hPart := h part List.mem_cons_self
      have hOthers := ih fun other hOther =>
        h other (List.mem_cons_of_mem _ hOther)
      cases others with
      | nil => exact hPart
      | cons next others => exact hPart.append (hWord.append hOthers)

theorem whole (h : Passes between 0 a 0) :
    splitAround? between 0 a = some [a] := by
  have hEnd := h []
  rw [List.append_nil] at hEnd
  rw [hEnd, splitAround?, if_pos rfl]
  simp

end Passes

/-- A cut through passed fragments gives the fragments. -/
theorem splitAround?_joinFragments {between : Word} {part : Fragment}
    {others : List Fragment}
    (h : ∀ other ∈ part :: others, Passes between 0 other 0) :
    splitAround? between 0 (joinFragments between (part :: others)) =
      some (part :: others) := by
  induction others generalizing part with
  | nil => exact (h part List.mem_cons_self).whole
  | cons next others ih =>
      have hRest := ih fun other hOther =>
        h other (List.mem_cons_of_mem _ hOther)
      rw [joinFragments, h part List.mem_cons_self, splitAround?,
        if_pos ⟨rfl, rfl⟩, hRest]
      simp
      exact List.cons_ne_nil _ _

/-- Pieces that neither change the level nor stand between conditions. -/
def Piece.isFlat : Piece → Bool
  | .word .openParen | .word .openList | .word (.function _)
  | .word .closeParen | .word .asNumeric | .word .and | .word .or => false
  | _ => true

theorem Piece.level?_of_isFlat {piece : Piece} (h : piece.isFlat = true)
    (level : Nat) : piece.level? level = some level := by
  cases piece with
  | word w =>
      cases w with
      | openParen | openList | closeParen | asNumeric =>
          exact absurd h (by decide)
      | function f => exact absurd h Bool.false_ne_true
      | _ => rfl
  | _ => rfl

theorem Passes.flat {between : Word} (hBetween : between = .and ∨ between = .or)
    {level : Nat} {fragment : Fragment}
    (h : ∀ piece ∈ fragment, piece.isFlat = true) :
    Passes between level fragment level := by
  induction fragment with
  | nil => exact .nil
  | cons piece rest ih =>
      have hPiece := h piece List.mem_cons_self
      have hRest := ih fun other hOther =>
        h other (List.mem_cons_of_mem _ hOther)
      have hOther : ¬ (piece = .word between ∧ level = 0) := by
        rintro ⟨rfl, -⟩
        rcases hBetween with rfl | rfl
        · exact absurd hPiece (by decide)
        · exact absurd hPiece (by decide)
      exact .append (.piece hOther (piece.level?_of_isFlat hPiece level)) hRest

theorem IsPath.flat {path : Fragment} (h : IsPath path) :
    ∀ piece ∈ path, piece.isFlat = true := by
  obtain ⟨name, steps⟩ := h
  intro piece hPiece
  rcases List.mem_cons.1 hPiece with rfl | hStep
  · rfl
  · obtain ⟨⟨arrow, key⟩, -, hKey⟩ := List.mem_flatMap.1 hStep
    cases key <;> simp [stepPieces] at hKey <;>
      rcases hKey with rfl | rfl <;> rfl

/-! ## Rendered filters -/

section

variable {between : Word} (hBetween : between = .and ∨ between = .or)
  (level : Nat)
include hBetween

/-- What stands in parentheses is read one level further in. -/
theorem Passes.around {opening closing : Word} {inner : Fragment}
    (hOpen : (Piece.word opening).level? level = some (level + 1))
    (hClose : (Piece.word closing).level? (level + 1) = some level)
    (hInner : Passes between (level + 1) inner (level + 1)) :
    Passes between level (.word opening :: inner ++ [.word closing]) level := by
  have hOther : ¬ (Piece.word opening = .word between ∧ level = 0) := by
    rintro ⟨hSame, -⟩
    obtain rfl := Piece.word.inj hSame
    rcases hBetween with rfl | rfl
    · simp [Piece.level?] at hOpen
    · simp [Piece.level?] at hOpen
  have hEnd : ¬ (Piece.word closing = .word between ∧ level + 1 = 0) :=
    fun h => absurd h.2 (Nat.succ_ne_zero level)
  exact (Passes.piece hOther hOpen).append
    (hInner.append (Passes.piece hEnd hClose))

theorem IsOperand.passes {operand : Fragment} (h : IsOperand operand) :
    Passes between level operand level := by
  cases h with
  | plain hPath => exact .flat hBetween hPath.flat
  | number hPath =>
      exact .around hBetween level rfl rfl (.flat hBetween hPath.flat)

/-- Renderings of filters are passed at every level. -/
theorem IsComparison.passes {fragment : Fragment} (h : IsComparison fragment) :
    Passes between level fragment level := by
  cases h with
  | never => exact .flat hBetween (by decide)
  | @test operand word hOperand hWord =>
      have hFlat : (Piece.word word).isFlat = true := by
        cases word with
        | isNull | isNotNull | isTrue | isFalse => rfl
        | _ => exact absurd hWord Bool.false_ne_true
      refine (hOperand.passes hBetween level).append (.flat hBetween ?_)
      intro piece hPiece
      rwa [List.mem_singleton.1 hPiece]
  | compare hOperand operator value =>
      refine (hOperand.passes hBetween level).append (.flat hBetween ?_)
      intro piece hPiece
      rcases List.mem_cons.1 hPiece with rfl | hValue
      · rfl
      · rw [List.mem_singleton.1 hValue]
        rfl
  | oneOf hPath value others =>
      have hItems : Passes between (level + 1)
          (commaList ((value :: others).map fun item => [.bind item]))
          (level + 1) := by
        refine .join (.flat hBetween (by decide)) fun item hItem => ?_
        obtain ⟨v, -, rfl⟩ := List.mem_map.1 hItem
        refine .flat hBetween fun piece hPiece => ?_
        rw [List.mem_singleton.1 hPiece]
        rfl
      rw [List.append_assoc]
      exact (Passes.flat hBetween hPath.flat).append
        (.around hBetween level rfl rfl hItems)

end

theorem inside?_of_getLast? {inner tail : Fragment} {last : Piece}
    (hLast : tail.getLast? = some last) (hNot : last ≠ .word .closeParen) :
    inside? ((.word .openParen :: inner) ++ tail) = none := by
  have hWhole : (inner ++ tail).getLast? = some last := by
    rw [List.getLast?_append, hLast]
    rfl
  rw [List.cons_append, inside?, hWhole,
    if_neg fun hSame => hNot (Option.some.inj hSame)]

/-- No rendering of a filter is an expression in parentheses: the parenthesis
before a cast closes within the operand. -/
theorem IsComparison.inside?_eq_none {fragment : Fragment}
    (h : IsComparison fragment) : inside? fragment = none := by
  cases h with
  | never => rfl
  | @test operand word hOperand hWord =>
      cases hOperand with
      | plain hPath =>
          cases hPath
          rfl
      | number hPath =>
          refine inside?_of_getLast? rfl fun hSame => ?_
          obtain rfl := Piece.word.inj hSame
          exact absurd hWord (by decide)
  | compare hOperand operator value =>
      cases hOperand with
      | plain hPath =>
          cases hPath
          rfl
      | number hPath => exact inside?_of_getLast? rfl (by simp)
  | oneOf hPath =>
      cases hPath
      rfl

/-! ## Clauses -/

/-- The rendering of a conjunct whose filters are rendered. -/
def conjunctFragment (rendered : Nat → Fragment) : Conjunct → Fragment
  | .alone place => rendered place
  | .anyOf places =>
      .word .openParen :: joinFragments .or (places.map rendered) ++
        [.word .closeParen]

/-- The clause of conjuncts whose filters are rendered. -/
def clauseOf (rendered : Nat → Fragment) : List Conjunct → Fragment
  | [] => []
  | c :: others =>
      .word .whereAll ::
        joinFragments .and ((c :: others).map (conjunctFragment rendered))

section

variable {rendered : Nat → Fragment}

theorem clauseOf_eq_nil_iff {found : List Conjunct} :
    clauseOf rendered found = [] ↔ found = [] := by
  cases found with
  | nil => exact ⟨fun _ => rfl, fun _ => rfl⟩
  | cons c others =>
      exact ⟨fun h => absurd h (List.cons_ne_nil _ _),
        fun h => absurd h (List.cons_ne_nil _ _)⟩

theorem conjunctFragment_passes {c : Conjunct}
    (h : ∀ i ∈ c.places, IsComparison (rendered i)) {between : Word}
    (hBetween : between = .and ∨ between = .or) :
    Passes between 0 (conjunctFragment rendered c) 0 := by
  cases c with
  | alone place =>
      exact (h place (List.mem_singleton_self place)).passes hBetween 0
  | anyOf places =>
      have hOr : Passes between 1 [.word .or] 1 :=
        .piece (by simp) rfl
      refine .around hBetween 0 rfl rfl (.join hOr fun part hPart => ?_)
      obtain ⟨i, hi, rfl⟩ := List.mem_map.1 hPart
      exact (h i hi).passes hBetween 1

/-- The members of a group are the alternatives in its parentheses. -/
theorem conjunct?_conjunctFragment {c : Conjunct} (hSome : c.places ≠ [])
    (h : ∀ i ∈ c.places, IsComparison (rendered i)) :
    conjunct? (conjunctFragment rendered c) = some (c.places.map rendered) := by
  cases c with
  | alone place =>
      have hPlace := h place (List.mem_singleton_self place)
      rw [conjunct?, conjunctFragment, hPlace.inside?_eq_none]
      rfl
  | anyOf places =>
      have hParts : ∀ part ∈ places.map rendered, IsComparison part := by
        intro part hPart
        obtain ⟨i, hi, rfl⟩ := List.mem_map.1 hPart
        exact h i hi
      have hInside : inside? (conjunctFragment rendered (.anyOf places)) =
          some (joinFragments .or (places.map rendered)) := by
        rw [conjunctFragment, List.cons_append, inside?, List.getLast?_concat,
          if_pos rfl, List.dropLast_concat]
      have hSplit : splitAround? .or 0 (joinFragments .or
          (places.map rendered)) = some (places.map rendered) := by
        cases places with
        | nil => exact absurd rfl hSome
        | cons place others =>
            exact splitAround?_joinFragments fun part hPart =>
              (hParts part hPart).passes (Or.inr rfl) 0
      have hWhole : ((places.map rendered).all fun part =>
          splitAround? .and 0 part == some [part]) = true := by
        rw [List.all_eq_true]
        intro part hPart
        rw [((hParts part hPart).passes (Or.inl rfl) 0).whole, beq_self_eq_true]
      rw [conjunct?, hInside]
      show alternatives? _ = _
      rw [alternatives?, hSplit]
      show (if _ then _ else _) = _
      rw [if_pos hWhole]
      rfl

theorem mapM_conjunct? {found : List Conjunct}
    (h : ∀ c ∈ found, conjunct? (conjunctFragment rendered c) =
      some (c.places.map rendered)) :
    (found.map (conjunctFragment rendered)).mapM conjunct? =
      some (found.map fun c => c.places.map rendered) := by
  induction found with
  | nil => rfl
  | cons c others ih =>
      have hOthers := ih fun d hd => h d (List.mem_cons_of_mem _ hd)
      rw [List.map_cons, List.mapM_cons, h c List.mem_cons_self, hOthers]
      rfl

/-- Read as SQL, a clause has the conjuncts it renders. -/
theorem readClause_clauseOf {found : List Conjunct}
    (hSome : ∀ c ∈ found, c.places ≠ [])
    (h : ∀ c ∈ found, ∀ i ∈ c.places, IsComparison (rendered i)) :
    readClause (clauseOf rendered found) =
      some (found.map fun c => c.places.map rendered) := by
  cases found with
  | nil => rfl
  | cons c others =>
      have hPasses : ∀ {between : Word}, between = .and ∨ between = .or →
          ∀ part ∈ (c :: others).map (conjunctFragment rendered),
            Passes between 0 part 0 := by
        intro between hBetween part hPart
        obtain ⟨d, hd, rfl⟩ := List.mem_map.1 hPart
        exact conjunctFragment_passes (h d hd) hBetween
      have hAnd : Passes .or 0 [.word .and] 0 := .piece (by simp) rfl
      have hOr := (Passes.join hAnd (hPasses (Or.inr rfl))).whole
      have hSplit := splitAround?_joinFragments (hPasses (Or.inl rfl))
      have hRead := mapM_conjunct? fun d hd =>
        conjunct?_conjunctFragment (hSome d hd) (h d hd)
      rw [clauseOf, readClause, if_pos hOr]
      show (splitAround? .and 0 (joinFragments .and
        ((c :: others).map (conjunctFragment rendered)))).bind _ = _
      rw [List.map_cons, hSplit]
      exact hRead

end

/-! ## The clause of a list of filters -/

/-- The rendering of a filter; nothing if it is refused. -/
def renderedFilter (f : Filter) : Fragment :=
  match filterFragment f with
  | .ok fragment => fragment
  | .error _ => []

/-- The rendering of the filter at a place. -/
def renderedAt (filters : List Filter) (place : Nat) : Fragment :=
  match filters[place]? with
  | some f => renderedFilter f
  | none => []

theorem renderedFilter_eq {f : Filter} {fragment : Fragment}
    (h : filterFragment f = .ok fragment) : renderedFilter f = fragment := by
  rw [renderedFilter, h]

theorem renderedAt_eq {filters : List Filter} {i : Nat} {f : Filter}
    (h : filters[i]? = some f) : renderedAt filters i = renderedFilter f := by
  rw [renderedAt, h]

theorem conditionFragment_eq {filters : List Filter} {leader : Filter × Nat}
    (hLeader : leader ∈ leaders filters) {part : Fragment}
    (h : conditionFragment (conditionOf filters leader.1) = .ok part) :
    part = conjunctFragment (renderedAt filters) (conjunctAt filters leader) ∧
      ∀ i ∈ (conjunctAt filters leader).places, ∀ f, filters[i]? = some f →
        filterFragment f = .ok (renderedAt filters i) := by
  have hAt := (Filter.mem_leaders.1 hLeader).1
  unfold conditionOf at h
  unfold conjunctAt
  split_ifs at h ⊢
  · obtain ⟨parts, hParts, hPart⟩ := bind_eq_ok.1 h
    obtain ⟨hMap, hRead⟩ := Result.mapM_eq_ok_map
      (fun f _ fragment hf => (renderedFilter_eq hf).symm) hParts
    refine ⟨?_, fun i hi f hf => ?_⟩
    · rw [← pure_eq_ok.1 hPart, hMap, conjunctFragment,
        Filter.map_groupPlaces fun _ _ => renderedAt_eq]
    · obtain ⟨g, hg, hIn⟩ := Filter.mem_groupPlaces.1 hi
      obtain rfl : f = g := Option.some.inj (hf.symm.trans hg)
      rw [renderedAt_eq hf]
      exact hRead f (List.mem_filter.2 ⟨List.mem_of_getElem? hf, hIn⟩)
  · have hSame := renderedFilter_eq h
    refine ⟨?_, fun i hi f hf => ?_⟩
    · rw [conjunctFragment, renderedAt_eq hAt, hSame]
    · obtain rfl : i = leader.2 := List.mem_singleton.1 hi
      obtain rfl : f = leader.1 := Option.some.inj (hf.symm.trans hAt)
      rw [renderedAt_eq hf, hSame]
      exact h

/-- The clause of a list of filters renders each of its conjuncts. -/
theorem whereClause_eq_clauseOf {filters : List Filter} {clause : Fragment}
    (h : whereClause filters = .ok clause) :
    clause = clauseOf (renderedAt filters) (conjuncts filters) ∧
      ∀ (i : Nat) (f : Filter), filters[i]? = some f →
        filterFragment f = .ok (renderedAt filters i) := by
  obtain ⟨parts, hParts, hClause⟩ := bind_eq_ok.1 h
  rw [Filter.conditions_eq, List.mapM_map] at hParts
  obtain ⟨hMap, hRead⟩ := Result.mapM_eq_ok_map
    (fun leader hLeader part hPart =>
      (conditionFragment_eq hLeader hPart).1) hParts
  refine ⟨?_, fun i f hf => ?_⟩
  · have hFound : parts =
        (conjuncts filters).map (conjunctFragment (renderedAt filters)) := by
      rw [hMap, conjuncts, List.map_map]
      rfl
    rw [hFound] at hClause
    cases hConjuncts : conjuncts filters with
    | nil =>
        rw [hConjuncts] at hClause
        exact (pure_eq_ok.1 hClause).symm
    | cons c others =>
        rw [hConjuncts] at hClause
        exact (pure_eq_ok.1 hClause).symm
  · have hMem := Filter.mem_places_iff.2 (List.getElem?_eq_some_iff.1 hf).1
    rw [conjuncts, List.flatMap_map] at hMem
    obtain ⟨leader, hLeader, hi⟩ := List.mem_flatMap.1 hMem
    exact (conditionFragment_eq hLeader (hRead leader hLeader)).2 i hi f hf

/-- A clause is made exactly when every filter is rendered. -/
theorem exists_whereClause_iff {filters : List Filter} :
    (∃ clause, whereClause filters = .ok clause) ↔
      ∀ f ∈ filters, ∃ fragment, filterFragment f = .ok fragment := by
  constructor
  · rintro ⟨clause, h⟩ f hf
    obtain ⟨i, hi, rfl⟩ := List.mem_iff_getElem.1 hf
    exact ⟨_, (whereClause_eq_clauseOf h).2 i _ (List.getElem?_eq_getElem hi)⟩
  · intro h
    obtain ⟨parts, hParts⟩ : ∃ parts,
        (Filter.conditions filters).mapM conditionFragment = .ok parts := by
      refine Result.exists_mapM_eq_ok fun condition hCondition => ?_
      rw [Filter.conditions_eq] at hCondition
      obtain ⟨leader, hLeader, rfl⟩ := List.mem_map.1 hCondition
      have hMem := List.mem_of_getElem? (Filter.mem_leaders.1 hLeader).1
      unfold conditionOf
      split
      · obtain ⟨members, hMembers⟩ := Result.exists_mapM_eq_ok fun f hf =>
          h f (List.mem_filter.1 hf).1
        exact ⟨_, bind_eq_ok.2 ⟨members, hMembers, rfl⟩⟩
      · exact h leader.1 hMem
    cases parts with
    | nil => exact ⟨_, bind_eq_ok.2 ⟨[], hParts, rfl⟩⟩
    | cons part others =>
        exact ⟨_, bind_eq_ok.2 ⟨part :: others, hParts, rfl⟩⟩

/-- What a clause has to do with the filters it was made from, given the
renderings of the filters by their places and the conjuncts. -/
structure Renders (filters : List Filter) (clause : Fragment)
    (rendered : Nat → Fragment) (found : List Conjunct) : Prop where
  /-- Every filter is rendered. -/
  rendered_eq : ∀ (i : Nat) (f : Filter), filters[i]? = some f →
    filterFragment f = .ok (rendered i)
  /-- Every place is in one conjunct: a filter outside of groups is one, and
  so is a group; they come in the order in which they begin. -/
  conjuncts : ConjunctsOf filters found
  /-- The members of a conjunct come in the order of the list. -/
  pairwise_places : ∀ c ∈ found, c.places.Pairwise (· < ·)
  /-- The clause is the conjuncts joined by AND, the members of a group in
  parentheses and joined by OR. -/
  clause_eq : clause = clauseOf rendered found
  /-- Read as SQL, the clause has these conjuncts. -/
  read_eq : readClause clause =
    some (found.map fun c => c.places.map rendered)
  /-- The conjuncts mean what the filters mean. -/
  holds_iff : ∀ truth : Nat → Bool, Filter.Holds filters truth ↔
    ∀ c ∈ found, ∃ i ∈ c.places, truth i = true
  /-- Only the empty list has the empty clause. -/
  eq_nil_iff : clause = [] ↔ filters = []

/-- Whenever a clause is made, it renders every filter exactly once and means
what the filters mean. -/
theorem whereClause_renders {filters : List Filter} {clause : Fragment}
    (h : whereClause filters = .ok clause) :
    ∃ rendered found, Renders filters clause rendered found := by
  obtain ⟨hClause, hRead⟩ := whereClause_eq_clauseOf h
  have hFound := Filter.conjunctsOf_conjuncts filters
  have hComparison : ∀ c ∈ conjuncts filters, ∀ i ∈ c.places,
      IsComparison (renderedAt filters i) := by
    intro c hc i hi
    have hAt := List.getElem?_eq_getElem ((hFound.of c hc).lt_length hi)
    exact filterFragment_shape (hRead i _ hAt)
  refine ⟨renderedAt filters, conjuncts filters, hRead, hFound,
    fun c hc => (hFound.of c hc).pairwise_places, hClause, ?_,
    hFound.holds_iff, ?_⟩
  · rw [hClause]
    exact readClause_clauseOf (fun c hc => (hFound.of c hc).places_ne_nil)
      hComparison
  · rw [hClause, clauseOf_eq_nil_iff, hFound.eq_nil_iff]

/-- Two groups whose members stand around a filter outside of groups. -/
def interleaved : List Filter :=
  [{ column := "a", operator := some .eq, value := .int 1
     isOr := true, group := 1 },
   { column := "b", operator := some .is },
   { column := "c", operator := some .in, value := .sequence []
     isOr := true, group := 2 },
   { column := "d->>e", operator := some .gt, value := .int 2
     isOr := true, group := 1 }]

theorem whereClause_renders_interleaved :
    ∃ clause, whereClause interleaved = .ok clause ∧
      ∃ rendered found, Renders interleaved clause rendered found := by
  obtain ⟨clause, h⟩ : ∃ clause, whereClause interleaved = .ok clause :=
    ⟨_, rfl⟩
  exact ⟨clause, h, whereClause_renders h⟩

example : (whereClause interleaved).map (textFrom 0) = .ok
    (" WHERE (\"a\" = $1 OR (\"d\"->>'e')::numeric > $2)" ++
      " AND \"b\" IS NULL AND (FALSE)") := rfl

end TableGate.Sql
