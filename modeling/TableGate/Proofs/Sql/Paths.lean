import TableGate.Proofs.Sql.Names
import TableGate.Sql.Read

/-!
# Where the paths of a statement start

The steps of a JSON path follow the column they start from, and nothing else
in the text of a statement holds an arrow. `Rooted` says of a fragment that
its paths start from columns of a kind; it is closed under the ways in which
fragments are put together, so each builder needs no more than its own parts.

A column that is read without steps needs no kind. So the columns of
aggregates and groups, which are quoted as they are written, have no
condition.

## Main results

* `Rooted.pathsFrom`: every arrow in the text of a fragment leads back to the
  column its path starts from.
* `rooted_selectList`, `rooted_whereClause`, `rooted_orderClause`: the clauses
  in which paths may stand.
-/

namespace TableGate.Sql

open Result (bind_eq_ok pure_eq_ok)

variable {roots : String → Prop}

/-- The paths of a fragment start from columns of a kind. -/
inductive Rooted (roots : String → Prop) : Fragment → Prop
  | nil : Rooted roots []
  | piece {piece : Piece} {rest : Fragment} (h : piece.isArrow = false)
      (hRest : Rooted roots rest) : Rooted roots (piece :: rest)
  | path {name : Identifier} {steps : List Step} {rest : Fragment}
      (h : roots name.text) (hRest : Rooted roots rest) :
      Rooted roots (.column name :: steps.flatMap stepPieces ++ rest)

namespace Rooted

variable {a b : Fragment}

theorem append (ha : Rooted roots a) (hb : Rooted roots b) :
    Rooted roots (a ++ b) := by
  induction ha with
  | nil => exact hb
  | piece h _ ih => exact .piece h ih
  | path h _ ih =>
      rw [List.append_assoc]
      exact .path h ih

theorem one {piece : Piece} (h : piece.isArrow = false) :
    Rooted roots [piece] :=
  .piece h .nil

theorem join {word : Word} (hWord : (Piece.word word).isArrow = false)
    {parts : List Fragment} (h : ∀ part ∈ parts, Rooted roots part) :
    Rooted roots (joinFragments word parts) := by
  induction parts with
  | nil => exact .nil
  | cons part rest ih =>
      have hFirst := h part List.mem_cons_self
      have hOthers := ih fun other hOther =>
        h other (List.mem_cons_of_mem _ hOther)
      cases rest with
      | nil => exact hFirst
      | cons next rest => exact hFirst.append (.piece hWord hOthers)

theorem commaList {parts : List Fragment}
    (h : ∀ part ∈ parts, Rooted roots part) : Rooted roots (commaList parts) :=
  join rfl h

theorem of_mapM {α : Type} {build : α → Result Fragment} {xs : List α}
    {parts : List Fragment} (h : xs.mapM build = .ok parts)
    (hBuild : ∀ x ∈ xs, ∀ part, build x = .ok part → Rooted roots part) :
    ∀ part ∈ parts, Rooted roots part := by
  intro part hPart
  obtain ⟨x, hMem, hx⟩ := Result.exists_of_mem_mapM h hPart
  exact hBuild x hMem part hx

end Rooted

/-! ## Arrows in texts -/

/-- The text of the steps of a path. -/
def stepsText (steps : List Step) : String :=
  textFrom 0 (steps.flatMap stepPieces)

/-- Every arrow of a text is a step of a path that starts from a quoted column
of a kind: between the column and the arrow are steps and nothing else. -/
def PathsFrom (roots : String → Prop) (text : List Char) : Prop :=
  ∀ before after, text = before ++ '-' :: '>' :: after →
    ∃ lead name steps, QuotedAt text lead name
      ((stepsText steps).toList ++ '-' :: '>' :: after) ∧
        roots (.ofList name)

/-- Only arrows bring hyphens. -/
theorem hyphen_notMem_chars {piece : Piece} (h : piece.isArrow = false)
    {mark : List Char} (hMark : '-' ∉ mark) : '-' ∉ piece.chars mark := by
  have hName : ∀ name : Identifier, '-' ∉ name.text.toList := fun name hMem =>
    absurd (isNamePart_of_mem_isName name.isName _ hMem) (by decide)
  cases piece with
  | word w =>
      have hAll : ∀ w ∈ Word.all, (Piece.word w).isArrow = false →
          '-' ∉ w.text.toList := by
        decide +kernel
      exact hAll w w.mem_all h
  | table schema name =>
      rw [Piece.chars_eq rfl, toList_table, toList_quoted, toList_quoted]
      simp [hName schema, hName name]
  | column name | label name =>
      rw [Piece.chars_eq rfl, Piece.text, toList_quoted]
      simp [hName name]
  | field name =>
      rw [Piece.chars_eq rfl, toList_field]
      simp [hName name]
  | index digits =>
      intro hMem
      exact absurd (isDigit_of_mem_isDigits digits.isDigits _ hMem) (by decide)
  | bind value => exact hMark

/-- Quotes come in pairs. -/
theorem even_quotes_chars (piece : Piece) {mark : List Char}
    (hMark : '\x22' ∉ mark) : (piece.chars mark).count '\x22' % 2 = 0 := by
  have hQuoted : ∀ name : Identifier, name.quoted.toList.count '\x22' = 2 := by
    intro name
    rw [toList_quoted, List.count_append, List.count_cons_self,
      List.count_eq_zero.2 (quote_notMem_name name)]
    rfl
  cases piece with
  | word w =>
      rw [Piece.chars_eq rfl, Piece.text, List.count_eq_zero.2 w.quote_notMem]
  | table schema name =>
      rw [Piece.chars_eq rfl, toList_table, List.count_append, hQuoted,
        List.count_cons_of_ne (by decide), hQuoted]
  | column name | label name =>
      rw [Piece.chars_eq rfl, Piece.text, hQuoted]
  | field name =>
      rw [List.count_eq_zero.2 (quote_notMem_chars rfl mark)]
  | index digits =>
      rw [List.count_eq_zero.2 (quote_notMem_chars rfl mark)]
  | bind value => rw [Piece.chars, List.count_eq_zero.2 hMark]

namespace PathsFrom

variable {cs rest : List Char}

/-- An arrow after a text without hyphens is one of the rest. -/
theorem arrow_of_append (h : '-' ∉ cs) {before after : List Char}
    (hText : cs ++ rest = before ++ '-' :: after) :
    ∃ later, before = cs ++ later ∧ rest = later ++ '-' :: after := by
  rcases List.append_eq_append_iff.1 hText with
    ⟨later, hBefore, hRest⟩ | ⟨left, rfl, hRest⟩
  · exact ⟨later, hBefore, hRest⟩
  · cases left with
    | nil => exact ⟨[], by simp, hRest.symm⟩
    | cons c left =>
        rw [List.cons_append] at hRest
        rw [← (List.cons.inj hRest).1] at h
        simp at h

/-- A text without hyphens before a text whose paths start from columns of a
kind. -/
theorem append (hPlain : '-' ∉ cs) (hEven : cs.count '\x22' % 2 = 0)
    (h : PathsFrom roots rest) : PathsFrom roots (cs ++ rest) := by
  intro before after hText
  obtain ⟨later, rfl, hRest⟩ := arrow_of_append hPlain hText
  obtain ⟨lead, name, steps, ⟨hAt, hOpens, hCloses⟩, hRoot⟩ :=
    h later after hRest
  refine ⟨cs ++ lead, name, steps, ⟨?_, ?_, hCloses⟩, hRoot⟩
  · rw [hAt, List.append_assoc]
  · rw [List.count_append]
    omega

end PathsFrom

/-! ## Steps in texts -/

/-- The characters of a step after its hyphen. -/
def stepTail (step : Step) : List Char :=
  let arrow := match step.arrow with
    | .json => ['>']
    | .text => ['>', '>']
  match step.key with
  | .field name => arrow ++ ('\x27' :: name.text.toList ++ ['\x27'])
  | .index digits => arrow ++ digits.text.toList

theorem charsWith_step (mark : Nat → List Char) (count : Nat) (step : Step)
    (rest : Fragment) :
    charsWith mark count (stepPieces step ++ rest) =
      '-' :: (stepTail step ++ charsWith mark count rest) := by
  obtain ⟨arrow, key⟩ := step
  cases arrow <;> cases key <;>
    simp [stepPieces, charsWith, Piece.values, Piece.chars, Piece.text,
      Word.text, Arrow.spelling, stepTail]

theorem toList_stepsText_cons (step : Step) (steps : List Step) :
    (stepsText (step :: steps)).toList =
      '-' :: (stepTail step ++ (stepsText steps).toList) := by
  rw [stepsText, toList_textFrom, List.flatMap_cons, charsWith_step, stepsText,
    toList_textFrom]

theorem charsWith_steps (mark : Nat → List Char) (count : Nat)
    (steps : List Step) (rest : Fragment) :
    charsWith mark count (steps.flatMap stepPieces ++ rest) =
      (stepsText steps).toList ++ charsWith mark count rest := by
  induction steps with
  | nil => rfl
  | cons step steps ih =>
      rw [List.flatMap_cons, List.append_assoc, charsWith_step, ih,
        toList_stepsText_cons, List.cons_append, List.append_assoc]

theorem notMem_stepTail (step : Step) :
    '-' ∉ stepTail step ∧ '\x22' ∉ stepTail step := by
  have hName : ∀ {c : Char} {cs : List Char}, isName cs = true →
      isNamePart c = false → c ∉ cs := fun hName hPart hMem =>
    ne_of_isNamePart (isNamePart_of_mem_isName hName _ hMem) hPart rfl
  have hDigits : ∀ {c : Char} {cs : List Char}, isDigits cs = true →
      c.isDigit = false → c ∉ cs := by
    intro c cs hDigits hOther hMem
    rw [isDigit_of_mem_isDigits hDigits c hMem] at hOther
    exact absurd hOther (by decide)
  obtain ⟨arrow, key⟩ := step
  cases key with
  | field name =>
      have hHyphen : '-' ∉ name.text.toList := hName name.isName (by decide)
      have hQuote := quote_notMem_name name
      cases arrow <;> simp [stepTail, hHyphen, hQuote]
  | index digits =>
      have hHyphen : '-' ∉ digits.text.toList :=
        hDigits digits.isDigits (by decide)
      have hQuote : '\x22' ∉ digits.text.toList :=
        hDigits digits.isDigits (by decide)
      cases arrow <;> simp [stepTail, hHyphen, hQuote]

theorem quote_notMem_stepsText (steps : List Step) :
    '\x22' ∉ (stepsText steps).toList := by
  induction steps with
  | nil => exact List.not_mem_nil
  | cons step steps ih =>
      rw [toList_stepsText_cons]
      simp [(notMem_stepTail step).2, ih]

/-- An arrow among the steps of a path comes after some of them, and any other
after all of them. -/
theorem arrow_of_steps {steps : List Step} {rest before after : List Char}
    (hText : (stepsText steps).toList ++ rest = before ++ '-' :: after) :
    (∃ done : List Step, before = (stepsText done).toList) ∨
      ∃ later, before = (stepsText steps).toList ++ later ∧
        rest = later ++ '-' :: after := by
  induction steps generalizing before with
  | nil => exact .inr ⟨before, rfl, hText⟩
  | cons step steps ih =>
      rw [toList_stepsText_cons, List.cons_append] at hText
      cases before with
      | nil => exact .inl ⟨[], rfl⟩
      | cons c before =>
          obtain ⟨rfl, hTail⟩ := List.cons.inj hText
          rw [List.append_assoc] at hTail
          obtain ⟨later, rfl, hRest⟩ :=
            PathsFrom.arrow_of_append (notMem_stepTail step).1 hTail
          rcases ih hRest with ⟨done, rfl⟩ | ⟨last, rfl, hLast⟩
          · exact .inl ⟨step :: done, (toList_stepsText_cons step done).symm⟩
          · refine .inr ⟨last, ?_, hLast⟩
            rw [toList_stepsText_cons, List.cons_append, List.append_assoc]

/-- A path that starts from a column of a kind. -/
theorem PathsFrom.path {name : Identifier} (steps : List Step)
    {rest : List Char} (hRoot : roots name.text) (h : PathsFrom roots rest) :
    PathsFrom roots
      (name.quoted.toList ++ ((stepsText steps).toList ++ rest)) := by
  have hHyphen : '-' ∉ name.quoted.toList :=
    @hyphen_notMem_chars (.column name) rfl [] List.not_mem_nil
  intro before after hText
  obtain ⟨later, rfl, hLater⟩ := arrow_of_append hHyphen hText
  rcases arrow_of_steps hLater with ⟨done, rfl⟩ | ⟨last, rfl, hLast⟩
  · refine ⟨[], name.text.toList, done, ⟨?_, rfl, quote_notMem_name name⟩, ?_⟩
    · rw [hText, toList_quoted]
      simp
    · rwa [String.ofList_toList]
  · obtain ⟨lead, id, done, ⟨hAt, hOpens, hCloses⟩, hFrom⟩ := h last after hLast
    refine ⟨name.quoted.toList ++ ((stepsText steps).toList ++ lead), id, done,
      ⟨by rw [hAt]; simp, ?_, hCloses⟩, hFrom⟩
    have hEven : name.quoted.toList.count '\x22' % 2 = 0 :=
      even_quotes_chars (.column name) (List.not_mem_nil (a := '\x22'))
    rw [List.count_append, List.count_append,
      List.count_eq_zero.2 (quote_notMem_stepsText steps)]
    omega

/-- Every arrow in the text of a fragment leads back to the column its path
starts from. -/
theorem Rooted.pathsFrom {fragment : Fragment} (h : Rooted roots fragment)
    {mark : Nat → List Char} (hHyphen : ∀ n, '-' ∉ mark n)
    (hQuote : ∀ n, '\x22' ∉ mark n) (count : Nat) :
    PathsFrom roots (charsWith mark count fragment) := by
  induction h generalizing count with
  | nil =>
      intro before after hText
      have hLength := congrArg List.length hText
      simp [charsWith] at hLength
  | piece hArrow _ ih =>
      rw [charsWith]
      exact (ih _).append (hyphen_notMem_chars hArrow (hHyphen _))
        (even_quotes_chars _ (hQuote _))
  | @path name steps rest hRoot _ ih =>
      rw [List.cons_append, charsWith, charsWith_steps]
      exact .path steps hRoot (ih _)

/-! ## Columns and their paths -/

/-- A column that is read with steps starts from one of a kind. -/
def RootedAt (roots : String → Prop) (name : String) : Prop :=
  ∀ path, ColumnPath.ofColumn name = .ok path → path.isPath = true →
    roots path.base

theorem rooted_pathFragment {path : ColumnPath} {fragment : Fragment}
    (h : pathFragment path = .ok fragment)
    (hRoot : path.isPath = true → roots path.base) :
    Rooted roots fragment := by
  obtain ⟨piece, hPiece, h⟩ := bind_eq_ok.1 h
  obtain ⟨name, hName, hPiece⟩ := bind_eq_ok.1 hPiece
  rw [← pure_eq_ok.1 h, ← pure_eq_ok.1 hPiece]
  cases hSteps : path.isPath with
  | false =>
      rw [ColumnPath.isPath_eq_false_iff.1 hSteps]
      exact .one rfl
  | true =>
      have hFrom := hRoot hSteps
      rw [← identifier_eq_ok hName] at hFrom
      have hPath : Rooted roots (.column name :: path.steps.flatMap stepPieces
        ++ []) := .path hFrom .nil
      rwa [List.append_nil] at hPath

theorem rooted_comparedColumn {path : ColumnPath} {operator : Operator}
    {fragment : Fragment} (h : comparedColumn path operator = .ok fragment)
    (hRoot : path.isPath = true → roots path.base) :
    Rooted roots fragment := by
  obtain ⟨column, hColumn, h⟩ := bind_eq_ok.1 h
  have hPath := rooted_pathFragment hColumn hRoot
  split at h
  · rw [← pure_eq_ok.1 h]
    exact .piece rfl (hPath.append (.one rfl))
  · rw [← pure_eq_ok.1 h]
    exact hPath

theorem rooted_columnList {names : List String} {fragment : Fragment}
    (h : columnList names = .ok fragment) : Rooted roots fragment := by
  obtain ⟨pieces, hPieces, h⟩ := bind_eq_ok.1 h
  rw [← pure_eq_ok.1 h]
  refine .commaList fun part hPart => ?_
  obtain ⟨piece, hPiece, rfl⟩ := List.mem_map.1 hPart
  obtain ⟨name, -, hName⟩ := Result.exists_of_mem_mapM hPieces hPiece
  obtain ⟨quoted, rfl⟩ := column_eq_ok hName
  exact .one rfl

theorem rooted_tablePiece {table : Table} {piece : Piece}
    (h : tablePiece table = .ok piece) : Rooted roots [piece] := by
  obtain ⟨schema, -, h⟩ := bind_eq_ok.1 h
  obtain ⟨name, -, h⟩ := bind_eq_ok.1 h
  rw [← pure_eq_ok.1 h]
  exact .one rfl

/-! ## Clauses -/

theorem rooted_selectColumn {name : String} {fragment : Fragment}
    (h : selectColumn name = .ok fragment) (hName : RootedAt roots name) :
    Rooted roots fragment := by
  obtain ⟨path, hPath, h⟩ := bind_eq_ok.1 h
  split at h
  · obtain ⟨pathPart, hPart, h⟩ := bind_eq_ok.1 h
    obtain ⟨label, -, h⟩ := bind_eq_ok.1 h
    rw [← pure_eq_ok.1 h]
    exact (rooted_pathFragment hPart (hName path hPath)).append
      (.piece rfl (.one rfl))
  · obtain ⟨piece, hPiece, h⟩ := bind_eq_ok.1 h
    obtain ⟨quoted, rfl⟩ := column_eq_ok hPiece
    rw [← pure_eq_ok.1 h]
    exact .one rfl

theorem rooted_selectAggregate {a : Aggregation} {fragment : Fragment}
    (h : selectAggregate a = .ok fragment) : Rooted roots fragment := by
  have hCall : ∀ {argument : Piece} {label : Identifier},
      argument.isArrow = false → Rooted roots [.word (.function a.function),
        argument, .word .closeParen, .word .asName, .label label] :=
    fun hArgument => .piece rfl (.piece hArgument (.piece rfl
      (.piece rfl (.one rfl))))
  unfold selectAggregate at h
  split at h
  · obtain ⟨argument, hArgument, h⟩ := bind_eq_ok.1 h
    obtain ⟨label, -, h⟩ := bind_eq_ok.1 h
    rw [← pure_eq_ok.1 h, ← Except.ok.inj hArgument]
    exact hCall rfl
  · obtain ⟨argument, hArgument, h⟩ := bind_eq_ok.1 h
    obtain ⟨label, -, h⟩ := bind_eq_ok.1 h
    obtain ⟨quoted, rfl⟩ := column_eq_ok hArgument
    rw [← pure_eq_ok.1 h]
    exact hCall rfl

theorem rooted_selectList {params : Params} {fragment : Fragment}
    (h : selectList params = .ok fragment)
    (hNames : ∀ name ∈ params.select.filter (· != "*"),
      RootedAt roots name) : Rooted roots fragment := by
  obtain ⟨parts, hParts, h⟩ := bind_eq_ok.1 h
  obtain ⟨aggregates, hAggregates, h⟩ := bind_eq_ok.1 h
  have hColumns : ∀ part ∈ parts, Rooted roots part :=
    .of_mapM hParts fun name hMem _ hPart =>
      rooted_selectColumn hPart (hNames name hMem)
  have hCalls : ∀ part ∈ aggregates, Rooted roots part :=
    .of_mapM hAggregates fun _ _ _ => rooted_selectAggregate
  split at h
  · rw [← pure_eq_ok.1 h]
    exact .one rfl
  · rw [← pure_eq_ok.1 h]
    exact .commaList fun part hPart =>
      (List.mem_append.1 hPart).elim (hColumns part) (hCalls part)

theorem rooted_groupClause {names : List String} {fragment : Fragment}
    (h : groupClause names = .ok fragment) : Rooted roots fragment := by
  unfold groupClause at h
  split at h
  · rw [← pure_eq_ok.1 h]
    exact .nil
  · obtain ⟨list, hList, h⟩ := bind_eq_ok.1 h
    rw [← pure_eq_ok.1 h]
    exact .piece rfl (rooted_columnList hList)

theorem rooted_nullsWords {token : String} {fragment : Fragment}
    (h : nullsWords token = .ok fragment) : Rooted roots fragment := by
  unfold nullsWords at h
  split_ifs at h
  · rw [← Except.ok.inj h]
    exact .nil
  · rw [← Except.ok.inj h]
    exact .one rfl
  · rw [← Except.ok.inj h]
    exact .one rfl
  · exact absurd h Result.refuse_ne_ok

theorem rooted_orderEntry {entry : OrderBy} {fragment : Fragment}
    (h : orderEntry entry = .ok fragment)
    (hName : RootedAt roots entry.column) : Rooted roots fragment := by
  obtain ⟨nulls, hNulls, h⟩ := bind_eq_ok.1 h
  obtain ⟨path, hPath, h⟩ := bind_eq_ok.1 h
  obtain ⟨column, hColumn, h⟩ := bind_eq_ok.1 h
  rw [← pure_eq_ok.1 h]
  have hDirection : (Piece.word (if entry.desc then Word.desc
      else Word.asc)).isArrow = false := by
    split <;> rfl
  exact (rooted_pathFragment hColumn (hName path hPath)).append
    (.piece hDirection (rooted_nullsWords hNulls))

theorem rooted_orderClause {order : List OrderBy} {fragment : Fragment}
    (h : orderClause order = .ok fragment)
    (hNames : ∀ entry ∈ order, RootedAt roots entry.column) :
    Rooted roots fragment := by
  unfold orderClause at h
  split at h
  · rw [← pure_eq_ok.1 h]
    exact .nil
  · obtain ⟨parts, hParts, h⟩ := bind_eq_ok.1 h
    rw [← pure_eq_ok.1 h]
    exact .piece rfl (.commaList (.of_mapM hParts fun entry hMem _ hPart =>
      rooted_orderEntry hPart (hNames entry hMem)))

theorem rooted_boundClause {w : Word} (h : (Piece.word w).isArrow = false)
    (bound : Option Int) : Rooted roots (boundClause w bound) := by
  cases bound with
  | none => exact .nil
  | some n => exact .piece h (.one rfl)

/-! ## Filters -/

theorem rooted_membership {column : Fragment} (h : Rooted roots column)
    (items : List Value) : Rooted roots (membership column items) := by
  unfold membership
  split
  · exact .one rfl
  · refine (h.append (.piece rfl (.commaList fun part hPart => ?_))).append
      (.one rfl)
    obtain ⟨item, -, rfl⟩ := List.mem_map.1 hPart
    exact .one rfl

theorem rooted_comparison {f : Filter} {operator : Operator}
    {column fragment : Fragment} (hColumn : Rooted roots column)
    (h : comparison f operator column = .ok fragment) :
    Rooted roots fragment := by
  unfold comparison at h
  split at h
  · split_ifs at h
    · rw [← Except.ok.inj h]
      exact hColumn.append (.one rfl)
    · rw [← Except.ok.inj h]
      exact hColumn.append (.one rfl)
    · exact absurd h Result.refuse_ne_ok
  · exact absurd h Result.refuse_ne_ok
  · rw [← Except.ok.inj h]
    exact hColumn.append (.piece rfl (.one rfl))

theorem rooted_filterFragment {f : Filter} {fragment : Fragment}
    (h : filterFragment f = .ok fragment) (hName : RootedAt roots f.column) :
    Rooted roots fragment := by
  unfold filterFragment at h
  split at h
  · exact absurd h Result.refuse_ne_ok
  · obtain ⟨path, hPath, h⟩ := bind_eq_ok.1 h
    obtain ⟨column, hCompared, h⟩ := bind_eq_ok.1 h
    have hColumn := rooted_comparedColumn hCompared (hName path hPath)
    split at h
    · obtain ⟨word, hWord, h⟩ := bind_eq_ok.1 h
      rw [← pure_eq_ok.1 h]
      refine hColumn.append (.one ?_)
      have hTest := isWord_isTest hWord
      cases word with
      | arrow a => exact absurd hTest Bool.false_ne_true
      | _ => rfl
    · split at h
      · exact absurd h Result.refuse_ne_ok
      · rw [← pure_eq_ok.1 h]
        exact rooted_membership hColumn _
      · rw [← pure_eq_ok.1 h]
        exact rooted_membership hColumn _
    · exact rooted_comparison hColumn h

theorem rooted_conditionFragment {c : Condition} {fragment : Fragment}
    (h : conditionFragment c = .ok fragment)
    (hNames : ∀ f ∈ c.filters, RootedAt roots f.column) :
    Rooted roots fragment := by
  cases c with
  | single f =>
      exact rooted_filterFragment h (hNames f List.mem_cons_self)
  | anyOf members =>
      obtain ⟨parts, hParts, h⟩ := bind_eq_ok.1 h
      rw [← pure_eq_ok.1 h]
      have hAll : ∀ part ∈ parts, Rooted roots part :=
        .of_mapM hParts fun f hMem _ hPart =>
          rooted_filterFragment hPart (hNames f hMem)
      exact .piece rfl ((Rooted.join rfl hAll).append (.one rfl))

theorem rooted_whereClause {filters : List Filter} {fragment : Fragment}
    (h : whereClause filters = .ok fragment)
    (hNames : ∀ f ∈ filters, RootedAt roots f.column) :
    Rooted roots fragment := by
  obtain ⟨parts, hParts, h⟩ := bind_eq_ok.1 h
  have hAll : ∀ part ∈ parts, Rooted roots part := by
    refine .of_mapM hParts fun c hMem part hPart => ?_
    refine rooted_conditionFragment hPart fun f hf => hNames f ?_
    exact Filter.mem_of_mem_conditionsFrom (List.Subset.refl filters) hMem f hf
  cases parts with
  | nil =>
      rw [← pure_eq_ok.1 h]
      exact .nil
  | cons part others =>
      rw [← pure_eq_ok.1 h]
      exact .piece rfl (.join rfl hAll)

end TableGate.Sql
