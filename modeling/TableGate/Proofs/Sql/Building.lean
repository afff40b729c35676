import TableGate.Proofs.Sql.Wording
import TableGate.Sql.Builder

/-!
# Builders and pieces

A builder writes the text of a statement while it collects the values, and a
statement is a list of pieces whose text and values are read off afterwards.
Here the two are shown to be the same, builder by builder: `Renders` says that
a builder, whatever was collected before, adds the values of a fragment and
writes its text with the numbers that those values have then. It is closed
under the ways in which builders are put together, so the number that the
counter hands out for a value is the place of its piece.

## Main results

* `Goes.part`: a builder that goes on writes the text of what follows after
  the values of what came before.
* `Command.built_eq`: what is built for a command is the text and the values
  of its statement.
* `command_numbered`: so the placeholders of every text that is built are
  numbered in order, one for each value.
-/

namespace TableGate.Sql

open Result (bind_eq_ok pure_eq_ok)

variable {α β γ : Type}

/-- The text and the values of a statement. -/
def Statement.rendered (s : Statement) : Rendered := ⟨s.sql, s.args⟩

/-! ## Texts of fragments -/

theorem textFrom_cons {piece : Piece} (h : piece.values = 0) (count : Nat)
    (rest : Fragment) :
    textFrom count (piece :: rest) = piece.text ++ textFrom count rest := by
  cases piece with
  | bind value => exact absurd h Nat.one_ne_zero
  | _ => rw [textFrom]; exact fun _ => Piece.noConfusion

@[simp] theorem textFrom_nil (count : Nat) : textFrom count [] = "" := rfl

@[simp] theorem argsOf_nil : argsOf [] = [] := rfl

@[simp] theorem textFrom_word (w : Word) (count : Nat) (rest : Fragment) :
    textFrom count (.word w :: rest) = w.text ++ textFrom count rest :=
  textFrom_cons rfl count rest

@[simp] theorem textFrom_table (schema name : Identifier) (count : Nat)
    (rest : Fragment) : textFrom count (.table schema name :: rest) =
      (Piece.table schema name).text ++ textFrom count rest :=
  textFrom_cons rfl count rest

@[simp] theorem argsOf_table (schema name : Identifier) (rest : Fragment) :
    argsOf (.table schema name :: rest) = argsOf rest := rfl

@[simp] theorem textFrom_column (name : Identifier) (count : Nat)
    (rest : Fragment) : textFrom count (.column name :: rest) =
      (Piece.column name).text ++ textFrom count rest :=
  textFrom_cons rfl count rest

@[simp] theorem argsOf_column (name : Identifier) (rest : Fragment) :
    argsOf (.column name :: rest) = argsOf rest := rfl

@[simp] theorem textFrom_label (name : Identifier) (count : Nat)
    (rest : Fragment) : textFrom count (.label name :: rest) =
      name.quoted ++ textFrom count rest :=
  textFrom_cons rfl count rest

@[simp] theorem argsOf_label (name : Identifier) (rest : Fragment) :
    argsOf (.label name :: rest) = argsOf rest := rfl

@[simp] theorem argsOf_word (w : Word) (rest : Fragment) :
    argsOf (.word w :: rest) = argsOf rest := rfl

/-- Without values no number stands in a text. -/
theorem textFrom_eq_plainText {fragment : Fragment} (h : argsOf fragment = [])
    (count : Nat) : textFrom count fragment = plainText fragment := by
  induction fragment with
  | nil => rfl
  | cons piece rest ih =>
      rcases piece.values_cases with hNone | ⟨value, rfl⟩
      · rw [argsOf_cons hNone] at h
        rw [textFrom_cons hNone, ih h]
        rfl
      · cases h

/-- The texts of fragments one after the other, each numbered from the values
before it. -/
def textsFrom : Nat → List Fragment → List String
  | _, [] => []
  | count, fragment :: rest =>
      textFrom count fragment :: textsFrom (count + (argsOf fragment).length)
        rest

theorem mapM_map (f : α → Result β) (g : β → γ) (xs : List α) :
    (xs.mapM fun x => (f x).map g) = (xs.mapM f).map (List.map g) := by
  induction xs with
  | nil => rfl
  | cons x xs ih =>
      rw [List.mapM_cons, List.mapM_cons, ih]
      cases f x with
      | error e => rfl
      | ok y => cases xs.mapM f <;> rfl

theorem joinTexts_textsFrom (w : Word) (count : Nat) (parts : List Fragment) :
    joinTexts w (textsFrom count parts) =
      textFrom count (joinFragments w parts) := by
  induction parts generalizing count with
  | nil => rfl
  | cons part others ih =>
      cases others with
      | nil => rfl
      | cons next others =>
          have hJoin : joinFragments w (part :: next :: others) =
              part ++ .word w :: joinFragments w (next :: others) := rfl
          rw [hJoin, textFrom_append, textFrom_word, ← ih,
            ← String.append_assoc]
          rfl

/-- A fragment is put together without values. -/
def Valueless (fragment : Result Fragment) : Prop :=
  ∀ part, fragment = .ok part → argsOf part = []

namespace Builder

/-! ## Builders and fragments -/

/-- From these values a builder goes to pieces whose first value comes after
those collected before. -/
def Goes (pieces : γ → Fragment) (args before : List Value)
    (text : Builder String) (result : Result γ) : Prop :=
  text.run args = result.map fun c =>
    (textFrom before.length (pieces c), before ++ argsOf (pieces c))

/-- Whatever was collected before, a builder writes the text of a fragment and
collects its values. -/
def Renders (text : Builder String) (fragment : Result Fragment) : Prop :=
  ∀ args, Goes id args args text fragment

namespace Goes

variable {pieces : γ → Fragment} {args before : List Value}

theorem done {text : String} {c : γ}
    (hText : text = textFrom before.length (pieces c))
    (hArgs : args = before ++ argsOf (pieces c)) :
    Goes pieces args before (pure text) (pure c) := by
  rw [hText, hArgs]
  rfl

/-- A builder that fails as the other does. -/
theorem lift_error (e : Error) :
    Goes pieces args before (Builder.lift (.error e)) (.error e) := rfl

/-- A step that collects nothing. -/
theorem lift {x : Result β} {k : β → Builder String} {f : β → Result γ}
    (hNext : ∀ b, x = .ok b → Goes pieces args before (k b) (f b)) :
    Goes pieces args before (Builder.lift x >>= k) (x >>= f) := by
  cases x with
  | error e => rfl
  | ok b => exact hNext b rfl

/-- A check on the way. -/
theorem check {c : Prop} [Decidable c] {cause : Invalid}
    {k : Unit → Builder String} {f : Unit → Result γ}
    (hNext : Goes pieces args before (k ()) (f ())) :
    Goes pieces args before
      (if c then Builder.lift (refuse cause) >>= k else k ())
      (if c then refuse cause >>= f else f ()) := by
  split
  · exact lift fun _ hRefuse => absurd hRefuse Result.refuse_ne_ok
  · exact hNext

/-- What is written first is numbered from the values collected before, and
what follows from those and its own. -/
theorem part {text : Builder String} {x : Result Fragment}
    {k : String → Builder String} {f : Fragment → Result γ}
    (h : Renders text x)
    (hNext : ∀ fragment, x = .ok fragment →
      Goes pieces (args ++ argsOf fragment) before
        (k (textFrom args.length fragment)) (f fragment)) :
    Goes pieces args before (text >>= k) (x >>= f) := by
  have hRun := h args
  unfold Goes at hRun ⊢
  rw [StateT.run_bind, hRun]
  cases x with
  | error e => rfl
  | ok fragment => exact hNext fragment rfl

/-- A part that cannot fail. -/
theorem sure {text : Builder String} {fragment : Fragment}
    {k : String → Builder String} {x : Result γ}
    (h : Renders text (.ok fragment))
    (hNext : Goes pieces (args ++ argsOf fragment) before
      (k (textFrom args.length fragment)) x) :
    Goes pieces args before (text >>= k) x :=
  part (f := fun _ => x) h fun _ hSame => Except.ok.inj hSame ▸ hNext

/-- So is what is written for the items of a list, one after the other. -/
theorem parts {build : α → Builder String} {g : α → Result Fragment}
    {items : List α} {k : List String → Builder String}
    {f : List Fragment → Result γ}
    (h : ∀ item ∈ items, Renders (build item) (g item))
    (hNext : ∀ fragments, items.mapM g = .ok fragments →
      Goes pieces (args ++ fragments.flatMap argsOf) before
        (k (textsFrom args.length fragments)) (f fragments)) :
    Goes pieces args before (items.mapM build >>= k)
      (items.mapM g >>= f) := by
  have hRun : ∀ args, (items.mapM build).run args =
      (items.mapM g).map fun fragments =>
        (textsFrom args.length fragments,
          args ++ fragments.flatMap argsOf) := by
    clear hNext
    induction items with
    | nil =>
        intro args
        rw [List.mapM_nil, List.mapM_nil]
        show Except.ok ([], args) = Except.ok ([], args ++ [])
        rw [List.append_nil]
    | cons item others ih =>
        intro args
        obtain ⟨hItem, hOthers⟩ := List.forall_mem_cons.1 h
        have hFirst := hItem args
        unfold Goes at hFirst
        rw [List.mapM_cons, List.mapM_cons, StateT.run_bind, hFirst]
        cases g item with
        | error e => rfl
        | ok fragment =>
            show (others.mapM build >>= fun texts =>
                pure (textFrom args.length fragment :: texts)).run
                  (args ++ argsOf fragment) = _
            rw [StateT.run_bind, ih hOthers]
            cases others.mapM g with
            | error e => rfl
            | ok fragments =>
                refine congrArg Except.ok (Prod.ext ?_ ?_)
                · show _ :: textsFrom (args ++ argsOf fragment).length _ = _
                  rw [List.length_append]
                  rfl
                · show args ++ argsOf fragment ++ _ = _
                  rw [List.append_assoc]
                  rfl
  unfold Goes
  rw [StateT.run_bind, hRun]
  cases hParts : items.mapM g with
  | error e => rfl
  | ok fragments => exact hNext fragments hParts

/-- What is built is the text and the values of the statement. -/
theorem build_eq {text : Builder String} {x : Result Statement}
    (h : Goes Statement.pieces [] [] text x) :
    build text = x.map Statement.rendered := by
  unfold Goes at h
  rw [build, h]
  cases x <;> rfl

end Goes

namespace Renders

/-- A part without values is written as it is. -/
theorem plain {x : Result Fragment} (h : Valueless x) :
    Renders (Builder.plain x) x := by
  intro args
  cases x with
  | error e => rfl
  | ok fragment =>
      have hNone := h fragment rfl
      exact Goes.done (textFrom_eq_plainText hNone _).symm
        (by rw [id, hNone, List.append_nil])

/-- A value is numbered by the values up to it. -/
theorem placeholder (value : Value) :
    Renders (Builder.placeholder value) (.ok [.bind value]) := by
  intro args
  refine congrArg Except.ok (Prod.ext ?_ rfl)
  show "$" ++ Text.natText (args ++ [value]).length = _
  rw [List.length_append]
  exact String.append_empty.symm

end Renders

/-! ## The WHERE clause -/

theorem valueless_of_composed {x : Result Fragment}
    (h : ∀ part, x = .ok part → Composed items (fun _ => True) False part) :
    Valueless x := fun part hPart => (h part hPart).argsOf_eq_nil

theorem valueless_comparedColumn (path : ColumnPath) (operator : Operator) :
    Valueless (comparedColumn path operator) :=
  valueless_of_composed fun _ h => composed_comparedColumn h trivial

theorem goes_membership {column : Fragment} (hColumn : argsOf column = [])
    (values args : List Value) :
    Goes id args args (membership (textFrom args.length column) values)
      (pure (Sql.membership column values)) := by
  cases values with
  | nil => exact Goes.done String.append_empty.symm (List.append_nil args).symm
  | cons value values =>
      have hAll : (value :: values).mapM (fun value =>
          (.ok [.bind value] : Result Fragment)) =
            .ok ((value :: values).map fun value => [.bind value]) :=
        Result.mapM_eq_ok.2 (List.forall₂_map_right_iff.2
          (List.forall₂_same.2 fun _ _ => rfl))
      have hParts : Goes id args args
          (membership (textFrom args.length column) (value :: values))
          (((value :: values).mapM fun value =>
            (.ok [.bind value] : Result Fragment)) >>= fun places =>
              pure (column ++ .word .openList :: commaList places ++
                [.word .closeParen])) := by
        refine Goes.parts (fun value _ => .placeholder value)
          fun places _ => .done ?_ ?_
        · rw [joinTexts_textsFrom]
          simp [textFrom_append, hColumn, commaList, String.append_assoc]
        · simp [args_append, hColumn, commaList, argsOf_joinFragments]
      rwa [hAll] at hParts

theorem goes_comparison (f : Filter) (operator : Operator)
    {column : Fragment} (hColumn : argsOf column = []) (args : List Value) :
    Goes id args args (comparison f operator (textFrom args.length column))
      (Sql.comparison f operator column) := by
  have hWord : ∀ w : Word, Goes id args args
      (pure (textFrom args.length column ++ w.text))
      (.ok (column ++ [.word w])) := by
    intro w
    refine .done ?_ ?_
    · simp [textFrom_append]
    · simp [args_append, hColumn]
  unfold comparison Sql.comparison
  cases f.value with
  | null =>
      dsimp only
      split_ifs
      · exact hWord .isNull
      · exact hWord .isNotNull
      · exact .lift_error _
  | sequence _ => exact .lift_error _
  | _ =>
      refine Goes.sure (.placeholder _) (.done (c := column ++
        [.word (.compare operator), .bind _]) ?_ ?_)
      · simp [textFrom_append, hColumn, String.append_assoc]
      · simp [args_append, hColumn]

/-- A filter is written as its pieces. -/
theorem renders_filter (f : Filter) :
    Renders (filter f) (filterFragment f) := by
  intro args
  unfold filter filterFragment
  cases f.operator with
  | none => exact .lift_error _
  | some operator =>
      refine Goes.lift fun path _ => ?_
      refine .part (.plain (valueless_comparedColumn path operator))
        fun column hCompared => ?_
      have hColumn := valueless_comparedColumn path operator column hCompared
      rw [hColumn, List.append_nil]
      cases operator with
      | is =>
          refine Goes.lift fun word _ => .done ?_ ?_
          · simp [textFrom_append]
          · simp [args_append, hColumn]
      | «in» =>
          dsimp only
          cases f.value with
          | null => exact .lift_error _
          | _ => exact goes_membership hColumn _ _
      | _ => exact goes_comparison f _ hColumn args

theorem renders_condition (c : Condition) :
    Renders (condition c) (conditionFragment c) := by
  intro args
  cases c with
  | single f => exact renders_filter f args
  | anyOf members =>
      refine Goes.parts (fun f _ => renders_filter f) fun parts _ =>
        .done ?_ ?_
      · rw [joinTexts_textsFrom]
        simp [textFrom_append, String.append_assoc]
      · simp [args_append, argsOf_joinFragments]

/-- A WHERE clause is written as its pieces. -/
theorem renders_whereClause (filters : List Filter) :
    Renders (whereClause filters) (Sql.whereClause filters) := by
  intro args
  refine Goes.parts (fun c _ => renders_condition c) fun parts _ => ?_
  cases parts with
  | nil => exact .done rfl rfl
  | cons part others =>
      refine .done ?_ ?_
      · rw [joinTexts_textsFrom, id, textFrom_word]
      · rw [id, argsOf_word, argsOf_joinFragments]

/-! ## Parts without values -/

variable {table : Table}

/-- What is composed of words and names alone is put together without
values. -/
theorem valueless_selectList (params : Params) :
    Valueless (selectList params) :=
  valueless_of_composed fun _ h => composed_selectList h fun _ _ _ _ => trivial

theorem valueless_groupClause (columns : List String) :
    Valueless (groupClause columns) :=
  valueless_of_composed fun _ h => composed_groupClause h fun _ _ _ _ => trivial

theorem valueless_orderClause (order : List OrderBy) :
    Valueless (orderClause order) :=
  valueless_of_composed fun _ h => composed_orderClause h fun _ _ _ _ => trivial

theorem valueless_columnList (names : List String) :
    Valueless (columnList names) :=
  valueless_of_composed fun _ h => composed_columnList h fun _ _ _ _ => trivial

theorem valueless_returning (table : Table) : Valueless (returning table) :=
  valueless_of_composed fun _ h => composed_returning h fun _ _ => trivial

theorem valueless_conflictPart (table : Table) (upsert : Option Upsert)
    (columns : List String) : Valueless (conflictPart table upsert columns) :=
  valueless_of_composed fun _ h => composed_conflictPart h
    (fun _ _ _ _ _ => trivial) (fun _ _ => trivial) fun _ _ => trivial

/-! ## Statements that read -/

theorem renders_boundClause (word : Word) (bound : Option Int) :
    Renders (boundClause word bound) (.ok (Sql.boundClause word bound)) := by
  intro args
  cases bound with
  | none => exact .done rfl (List.append_nil args).symm
  | some n =>
      have hBound : Sql.boundClause word (some n) =
          [.word word, .bind (.int n)] := rfl
      refine Goes.sure (.placeholder (.int n)) (.done ?_ ?_)
      · rw [id, hBound, textFrom_word]
      · rw [id, hBound, argsOf_word]

/-- What stands for the table of a statement. -/
theorem tablePiece_eq_ok {target : Piece} (h : tablePiece table = .ok target) :
    ∃ schema name, target = .table schema name := by
  obtain ⟨schema, -, h⟩ := bind_eq_ok.1 h
  obtain ⟨name, -, h⟩ := bind_eq_ok.1 h
  exact ⟨schema, name, (pure_eq_ok.1 h).symm⟩

theorem select_eq (table : Table) (params : Params) :
    select table params = (Sql.select table params).map Statement.rendered := by
  refine Goes.build_eq (.lift fun target hTarget => ?_)
  obtain ⟨schema, name, rfl⟩ := tablePiece_eq_ok hTarget
  refine .part (.plain (valueless_selectList params)) fun columns hColumns => ?_
  refine .lift fun filters _ => ?_
  refine .part (renders_whereClause filters) fun wherePart _ => ?_
  refine .part (.plain (valueless_groupClause _)) fun groupPart hGroup => ?_
  refine .part (.plain (valueless_orderClause _)) fun orderPart hOrder => ?_
  have hColumnArgs := valueless_selectList _ _ hColumns
  have hGroupArgs := valueless_groupClause _ _ hGroup
  have hOrderArgs := valueless_orderClause _ _ hOrder
  refine .sure (renders_boundClause .limit params.limit) <|
    .sure (renders_boundClause .offset params.offset) (.done ?_ ?_)
  · simp [textFrom_append, String.append_assoc, hColumnArgs, hGroupArgs,
      hOrderArgs]
  · simp [args_append, hColumnArgs, hGroupArgs, hOrderArgs]

theorem count_eq (table : Table) (params : Params) :
    count table params = (Sql.count table params).map Statement.rendered := by
  refine Goes.build_eq (.lift fun target hTarget => ?_)
  obtain ⟨schema, name, rfl⟩ := tablePiece_eq_ok hTarget
  refine .part (renders_whereClause _) fun wherePart _ => ?_
  split
  · refine .done ?_ ?_
    · simp [String.append_assoc]
    · simp
  · refine .part (.plain (valueless_groupClause _)) fun groupPart hGroup => ?_
    have hGroupArgs := valueless_groupClause _ _ hGroup
    refine .done ?_ ?_
    · simp [textFrom_append, String.append_assoc, hGroupArgs]
    · simp [args_append, hGroupArgs]

theorem explain_eq (table : Table) (params : Params) :
    explain table params =
      (Sql.explain table params).map Statement.rendered := by
  unfold explain Sql.explain
  rw [select_eq]
  cases Sql.select table _ with
  | error e => rfl
  | ok whole =>
      refine congrArg Except.ok (congrArg₂ Rendered.mk ?_ rfl)
      exact (textFrom_word _ _ _).symm

theorem selectByKey_eq (table : Table) (key : List Value) (params : Params) :
    selectByKey table key params =
      (Sql.selectByKey table key params).map Statement.rendered := by
  refine Goes.build_eq (.lift fun target hTarget => ?_)
  obtain ⟨schema, name, rfl⟩ := tablePiece_eq_ok hTarget
  refine .part (.plain (valueless_selectList params)) fun columns hColumns => ?_
  refine .lift fun filters _ => ?_
  refine .part (renders_whereClause _) fun wherePart _ => ?_
  have hColumnArgs := valueless_selectList _ _ hColumns
  refine .done ?_ ?_
  · simp [textFrom_append, String.append_assoc, hColumnArgs]
  · simp [args_append, hColumnArgs]

/-! ## Statements that write -/

/-- The row of a record is written as its pieces. -/
theorem renders_recordRow (table : Table) (columns : List String)
    (record : Fields) :
    Renders (recordRow table columns record)
      (Sql.recordRow table columns record) := by
  intro args
  have hRow : Sql.recordRow table columns record =
      (columns.mapM fun name =>
        (boundValue table name ((record.get? name).getD .null)).map
          fun value => [.bind value]) >>= fun values =>
            pure (.word .openParen :: commaList values ++
              [.word .closeParen]) := by
    rw [mapM_map]
    unfold Sql.recordRow
    cases columns.mapM fun name =>
      boundValue table name ((record.get? name).getD .null) <;> rfl
  rw [hRow]
  refine Goes.parts (fun name _ args => ?_) fun places _ => .done ?_ ?_
  · cases boundValue table name ((record.get? name).getD .null) with
    | error e => rfl
    | ok value => exact Renders.placeholder value args
  · simp [textFrom_append, commaList, joinTexts_textsFrom, String.append_assoc]
  · simp [args_append, commaList, argsOf_joinFragments]

/-- An INSERT of records has its values in the order of the rows. -/
theorem insertBatch_eq (table : Table) (records : List Value)
    (upsert : Option Upsert) :
    insertBatch table records upsert =
      (Sql.insertBatch table records upsert).map Statement.rendered := by
  refine Goes.build_eq (.lift fun target hTarget => .check ?_)
  obtain ⟨schema, name, rfl⟩ := tablePiece_eq_ok hTarget
  refine .lift fun records _ => .lift fun columns _ => ?_
  refine .parts (fun record _ => renders_recordRow table columns record)
    fun rows _ => ?_
  refine .part (.plain (valueless_columnList columns)) fun names hNames => ?_
  refine .part (.plain (valueless_conflictPart table upsert columns))
    fun conflict hConflict => ?_
  refine .part (.plain (valueless_returning table)) fun result hResult => ?_
  have hNameArgs := valueless_columnList _ _ hNames
  have hConflictArgs := valueless_conflictPart _ _ _ _ hConflict
  have hResultArgs := valueless_returning _ _ hResult
  refine .done ?_ ?_
  -- The names stand before the rows but are written after them: they have no
  -- values, so their text is the same in both places.
  · simp [textFrom_append, String.append_assoc, joinTexts_textsFrom, commaList,
      hNameArgs, textFrom_eq_plainText hNameArgs,
      textFrom_eq_plainText hConflictArgs, textFrom_eq_plainText hResultArgs]
  · simp [args_append, commaList, argsOf_joinFragments, hNameArgs,
      hConflictArgs, hResultArgs]

theorem insert_eq (table : Table) (record : Fields) (upsert : Option Upsert) :
    insert table record upsert =
      (Sql.insert table record upsert).map Statement.rendered := by
  unfold insert Sql.insert
  split
  · refine Goes.build_eq (.lift fun target hTarget => ?_)
    obtain ⟨schema, name, rfl⟩ := tablePiece_eq_ok hTarget
    refine .part (.plain (valueless_conflictPart table upsert []))
      fun conflict hConflict => ?_
    refine .part (.plain (valueless_returning table)) fun result hResult => ?_
    have hConflictArgs := valueless_conflictPart _ _ _ _ hConflict
    have hResultArgs := valueless_returning _ _ hResult
    refine .done ?_ ?_
    · simp [textFrom_append, String.append_assoc, hConflictArgs]
    · simp [args_append, hConflictArgs, hResultArgs]
  · exact insertBatch_eq table _ upsert

/-- An assignment is written as its pieces. -/
theorem renders_assignment (table : Table) (field : String × Value) :
    Renders (assignment table field) (Sql.assignment table field) := by
  intro args
  refine Goes.lift fun name hName => .lift fun value _ => ?_
  obtain ⟨quoted, rfl⟩ := column_eq_ok hName
  refine .sure (.placeholder value) (.done ?_ ?_)
  · simp [String.append_assoc]
  · simp

theorem goes_updateWhere {table : Table} {target : Piece}
    (hTarget : tablePiece table = .ok target) (values : Fields)
    (filters : List Filter) :
    Goes Statement.pieces [] [] (updateWhere table target values filters)
      (Sql.updateWhere table target values filters) := by
  obtain ⟨schema, name, rfl⟩ := tablePiece_eq_ok hTarget
  refine Goes.check (k := fun _ => _) (f := fun _ => _) (.lift fun _ _ => ?_)
  refine .parts (fun field _ => renders_assignment table field)
    fun assignments _ => ?_
  refine .part (renders_whereClause filters) fun wherePart _ => ?_
  refine .part (.plain (valueless_returning table)) fun result hResult => ?_
  have hResultArgs := valueless_returning _ _ hResult
  refine .done ?_ ?_
  · simp [textFrom_append, String.append_assoc, joinTexts_textsFrom, commaList,
      argsOf_joinFragments]
  · simp [args_append, commaList, argsOf_joinFragments, hResultArgs]

/-- An UPDATE has the values it sets before those of its conditions. -/
theorem update_eq (table : Table) (values : Fields) (params : Params) :
    update table values params =
      (Sql.update table values params).map Statement.rendered :=
  Goes.build_eq <| .lift fun _ hTarget => .check <|
    goes_updateWhere hTarget values params.filters

theorem updateByKey_eq (table : Table) (key : List Value) (values : Fields) :
    updateByKey table key values =
      (Sql.updateByKey table key values).map Statement.rendered :=
  Goes.build_eq <| .lift fun _ hTarget => .lift fun filters _ =>
    goes_updateWhere hTarget values filters

theorem goes_deleteWhere {table : Table} {target : Piece}
    (hTarget : tablePiece table = .ok target) (filters : List Filter) :
    Goes Statement.pieces [] [] (deleteWhere table target filters)
      (Sql.deleteWhere table target filters) := by
  obtain ⟨schema, name, rfl⟩ := tablePiece_eq_ok hTarget
  refine .part (renders_whereClause filters) fun wherePart _ => ?_
  refine .part (.plain (valueless_returning table)) fun result hResult => ?_
  have hResultArgs := valueless_returning _ _ hResult
  refine .done ?_ ?_
  · simp [textFrom_append, String.append_assoc]
  · simp [args_append, hResultArgs]

theorem delete_eq (table : Table) (params : Params) :
    delete table params =
      (Sql.delete table params).map Statement.rendered :=
  Goes.build_eq <| .lift fun _ hTarget => .check <|
    goes_deleteWhere hTarget params.filters

theorem deleteByKey_eq (table : Table) (key : List Value) :
    deleteByKey table key =
      (Sql.deleteByKey table key).map Statement.rendered :=
  Goes.build_eq <| .lift fun _ hTarget => .lift fun filters _ =>
    goes_deleteWhere hTarget filters

end Builder

/-- What is built comes of a statement. -/
theorem exists_statement {built : Result Rendered}
    {statement : Result Statement} {r : Rendered}
    (hSame : built = statement.map Statement.rendered) (h : built = .ok r) :
    ∃ s, statement = .ok s ∧ s.rendered = r :=
  Result.map_eq_ok.1 (hSame.symm.trans h)

/-! ## Commands -/

/-- What is built for a command. -/
def Command.build (table : Table) : Command → Result Rendered
  | .select params => Builder.select table params
  | .count params => Builder.count table params
  | .explain params => Builder.explain table params
  | .selectByKey key params => Builder.selectByKey table key params
  | .insert record upsert => Builder.insert table record upsert
  | .insertBatch records upsert => Builder.insertBatch table records upsert
  | .update values params => Builder.update table values params
  | .updateByKey key values => Builder.updateByKey table key values
  | .delete params => Builder.delete table params
  | .deleteByKey key => Builder.deleteByKey table key

/-- Whatever is asked for, the text and the values that are built are those of
the pieces. -/
theorem Command.build_eq (table : Table) (command : Command) :
    command.build table =
      (command.statement table).map Statement.rendered := by
  cases command with
  | select params => exact Builder.select_eq table params
  | count params => exact Builder.count_eq table params
  | explain params => exact Builder.explain_eq table params
  | selectByKey key params => exact Builder.selectByKey_eq table key params
  | insert record upsert => exact Builder.insert_eq table record upsert
  | insertBatch records upsert =>
      exact Builder.insertBatch_eq table records upsert
  | update values params => exact Builder.update_eq table values params
  | updateByKey key values => exact Builder.updateByKey_eq table key values
  | delete params => exact Builder.delete_eq table params
  | deleteByKey key => exact Builder.deleteByKey_eq table key

/-- How the values of a text are bound. -/
structure Numbered (r : Rendered) : Prop where
  /-- The placeholders are `$1`, `$2`, …, one for each value. -/
  placeholders_eq : placeholders r.sql.toList =
    (List.range' 1 r.args.length).map Text.natDigits
  /-- The names are `:p1`, `:p2`, …. -/
  binds_eq : binds none r.prepare.sql.toList =
    (List.range' 1 r.args.length).map fun n => 'p' :: Text.natDigits n
  /-- The two texts differ in nothing else. -/
  weave_eq : ∃ parts : List (List Char), parts.length = r.args.length + 1 ∧
    (∀ part ∈ parts, '$' ∉ part) ∧ r.sql.toList = weave dollar 0 parts ∧
      r.prepare.sql.toList = weave named 0 parts
  /-- There is a name for each value, and it stands for the value. -/
  length_params : r.prepare.params.length = r.args.length
  lookup_eq : ∀ (i : Nat) (value : Value), r.args[i]? = some value →
    r.prepare.params.lookup (nameText (i + 1)) = some value

/-- Whatever is asked for, the counter numbers the placeholders in the order
in which they stand, and each stands for the value that was collected for
it. -/
theorem command_numbered {table : Table} {command : Command} {r : Rendered}
    (h : command.build table = .ok r) : Numbered r := by
  rw [command.build_eq] at h
  obtain ⟨s, hStatement, rfl⟩ := Result.map_eq_ok.1 h
  have hTidy := (command.loose hStatement).tidy
  have hSql : s.rendered.sql.toList = charsWith dollar 0 s.pieces :=
    s.toList_sql
  have hNamed : s.rendered.prepare.sql.toList = charsWith named 0 s.pieces :=
    s.toList_prepare
  have hStart : ∀ q ∈ s.pieces.head?, q.start = .bare →
      (none : Option Char).all mayStartName = true := fun _ _ _ => rfl
  refine ⟨?_, ?_, ⟨partsOf s.pieces, length_partsOf s.pieces,
    dollar_notMem_partsOf s.pieces, ?_, ?_⟩, ?_, fun i value hAt => ?_⟩
  · rw [hSql, placeholders_charsWith hTidy]
    rfl
  · rw [hNamed, binds_charsWith hTidy 0 hStart]
    rfl
  · rw [hSql, weave_partsOf]
  · rw [hNamed, weave_partsOf]
  · show (namedArgs s.args).length = s.args.length
    rw [namedArgs, List.length_map, List.length_zipIdx]
  · exact lookup_namedArgs hAt

theorem command_numbered_page :
    ∃ r, pageOfItems.build items = .ok r ∧ r.args.length = 2 ∧ Numbered r := by
  obtain ⟨r, h, hCount⟩ : ∃ r, pageOfItems.build items = .ok r ∧
      r.args.length = 2 := ⟨_, rfl, rfl⟩
  exact ⟨r, h, hCount, command_numbered h⟩

end TableGate.Sql
