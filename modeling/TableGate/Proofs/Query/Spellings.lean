import TableGate.Proofs.Filter.Wrapped
import TableGate.Proofs.Query.Items

/-!
# Three spellings of one filter

A filter is sent as `column=operator.value`, as `column.operator=value` or as
the only member of a group, `and=(column.operator.value)`. Each spelling is cut
apart in its own way: at the first dot of the value, at the first dot of the
key, and at the first two dots of a segment. Where all three are possible they
are one filter, with the value as it was sent, dots and parentheses included.
An operator that nobody knows stays unknown in all of them.

## Main results

* `Items.compile_of_first?_eq_none`: a query string of filters and groups alone.
* `spellings_agree`: the three spellings are compiled to one filter.
-/

namespace TableGate

open Text (isBlank trimChars)

/-- The items that spell a filter: with the operator before the value, with the
operator behind the column, and as a group. -/
def Triple.spellings (t : Triple) : Items :=
  [(.ofList t.column, .ofList (t.token ++ '.' :: t.value)),
    (.ofList (t.column ++ '.' :: t.token), .ofList t.value),
    ("and", "(" ++ .ofList t.text ++ ")")]

/-- A token names an operator exactly when it is the token of the operator,
case and outer blanks aside. -/
theorem Operator.ofToken?_eq_some_iff {token : String} {operator : Operator} :
    ofToken? token = some operator ↔
      Text.lower (Text.trim token) = operator.token := by
  refine ⟨lower_of_ofToken?, fun h => ?_⟩
  rw [ofToken?, h]
  cases operator <;> decide +kernel

/-! ## Query strings without other clauses -/

namespace Items

/-- A query string without the other clauses is its filters and its groups. -/
theorem compile_of_first?_eq_none {items : Items}
    (h : ∀ key ∈ reserved, key ≠ "or" → key ≠ "and" →
      items.first? key = none) :
    items.compile = (do
      let plain ← (items.filter fun item => !reserved.contains item.1).mapM
        fun item => readFilter item.1 item.2
      let grouped ← fromOne (readGroups (items.filterMap group?))
      return { filters := plain ++ grouped }) := by
  have hClause : ∀ {α : Type} {key : String} (absent : α)
      (readClause : String → Result α), key ∈ reserved → key ≠ "or" →
        key ≠ "and" → items.clause key absent readClause = .ok absent := by
    intro α key absent readClause hKey hOr hAnd
    rw [clause, h key hKey hOr hAnd]
  rw [compile, hClause {} Selection.read (by decide) (by decide) (by decide),
    hClause [] OrderBy.read (by decide) (by decide) (by decide),
    hClause none (readBound "limit") (by decide) (by decide) (by decide),
    hClause none (readBound "offset") (by decide) (by decide) (by decide),
    hClause none CountType.read (by decide) (by decide) (by decide),
    h "cursor_column" (by decide) (by decide) (by decide),
    h "cursor" (by decide) (by decide) (by decide),
    h "group_by" (by decide) (by decide) (by decide)]
  rfl

/-- An item that is a filter is compiled to that filter. -/
theorem compile_filter {key value : String} {f : Filter}
    (hFree : key ∉ reserved) (h : readFilter key value = .ok f) :
    compile [(key, value)] = .ok { filters := [f] } := by
  have hContains : reserved.contains key = false := by simpa using hFree
  have hGroup : group? (key, value) = none := by
    have hOr : key ≠ "or" := fun hKey => hFree (by rw [hKey]; decide)
    have hAnd : key ≠ "and" := fun hKey => hFree (by rw [hKey]; decide)
    rw [group?, if_neg hOr, if_neg hAnd]
  rw [compile_of_first?_eq_none]
  · simp only [List.filter_cons, List.filterMap_cons, hContains, hGroup,
      Bool.not_false, if_true, List.filter_nil, List.filterMap_nil,
      List.mapM_cons, List.mapM_nil, h]
    rfl
  · intro other hOther _ _
    have hOtherKey : key ≠ other := fun hKey => hFree (hKey ▸ hOther)
    simp [first?, hOtherKey]

/-- A group alone is read to the filters of its inside. -/
theorem run_readGroups_singleton {connective : Connective}
    {text inner : String} {filters : List Filter} {next after : Int}
    (hUnwrap : Group.unwrap connective text = .ok inner)
    (h : (Group.read connective inner).run.run next = (.ok filters, after)) :
    (readGroups [(connective, text)]).run.run next = (.ok filters, after) := by
  have hOne : (do
      let inner ← Numbering.lift (Group.unwrap connective text)
      Group.read connective inner : Numbering (List Filter)).run.run next =
        (.ok filters, after) := by
    rw [hUnwrap]
    exact h
  refine Numbering.run_bind_eq_ok.2 ⟨[filters], after,
    Numbering.run_mapM_cons hOne (Numbering.run_pure [] after), ?_⟩
  rw [Numbering.run_pure, List.flatten_singleton]

/-- A group alone is compiled to the filters of its inside. -/
theorem compile_and {text inner : String} {filters : List Filter}
    {after : Int} (hUnwrap : Group.unwrap .and text = .ok inner)
    (h : (Group.read .and inner).run.run 1 = (.ok filters, after)) :
    compile [("and", text)] = .ok { filters } := by
  have hGroups : fromOne (readGroups [(.and, text)]) = .ok filters :=
    congrArg Prod.fst (run_readGroups_singleton hUnwrap h)
  rw [compile_of_first?_eq_none]
  · show (fromOne (readGroups [(.and, text)]) >>= fun grouped =>
      (return { filters := [] ++ grouped } : Result Params)) = _
    rw [hGroups]
    rfl
  · intro key _ _ hAnd
    simp [first?, hAnd.symm]

/-- No reserved key has a dot. -/
theorem dot_notMem_of_reserved {key : String} (h : key ∈ reserved) :
    '.' ∉ key.toList := by
  revert key
  decide

end Items

/-! ## The spellings -/

namespace Triple

variable (t : Triple)

/-- What a triple is read as, alone. -/
theorem build_alone : Filter.build (.ofList t.column) (.ofList t.token)
    (.text (.ofList t.value)) false 0 = .ok (t.filter none) :=
  t.build_eq none

/-- The operator before the value is cut off at the first dot. -/
theorem readFilter_value (hColumn : t.column ≠ []) :
    Items.readFilter (.ofList t.column)
      (.ofList (t.token ++ '.' :: t.value)) = .ok (t.filter none) := by
  have hName : trimChars (String.ofList t.column).toList = t.column := by
    rw [String.toList_ofList, t.column_trimmed]
  have hKey : Text.cut? '.' t.column = none :=
    Text.cut?_eq_none fun h => (t.column_plain '.' h).1 rfl
  have hValue : Text.cut? '.' (t.token ++ '.' :: t.value) =
      some (t.token, t.value) :=
    Text.cut?_eq_some_iff.2 ⟨rfl, fun h => (t.token_plain '.' h).1 rfl⟩
  rw [Items.readFilter, hName, String.toList_ofList]
  split
  · next hEmpty => exact absurd hEmpty hColumn
  · rw [hKey, hValue]
    exact t.build_alone

/-- The operator behind the column is cut off at the first dot. -/
theorem readFilter_key (hColumn : t.column ≠ []) (hToken : t.token ≠ [])
    (hVisible : ∀ c ∈ t.token, isBlank c = false) :
    Items.readFilter (.ofList (t.column ++ '.' :: t.token))
      (.ofList t.value) = .ok (t.filter none) := by
  have hName : trimChars (t.column ++ '.' :: t.token) =
      t.column ++ '.' :: t.token := by
    refine Text.trimChars_eq_self (fun c hc => ?_) fun c hc => ?_
    · have hStart : (t.column ++ '.' :: t.token).head? = t.text.head? := by
        rw [text]
        cases t.column <;> rfl
      exact t.head?_text c (hStart ▸ hc)
    · rw [List.getLast?_append_of_ne_nil _ (List.cons_ne_nil _ _),
        List.getLast?_cons_of_ne_nil hToken] at hc
      exact hVisible c (List.mem_of_mem_getLast? hc)
  have hKey : Text.cut? '.' (t.column ++ '.' :: t.token) =
      some (t.column, t.token) :=
    Text.cut?_eq_some_iff.2 ⟨rfl, fun h => (t.column_plain '.' h).1 rfl⟩
  rw [Items.readFilter, String.toList_ofList, hName]
  split
  · next hEmpty => simp at hEmpty
  · rw [hKey]
    dsimp only
    rw [if_neg (not_or.2 ⟨hColumn, hToken⟩)]
    exact t.build_alone

/-- A triple alone in a group is read as it is read alone. -/
theorem run_read_text (next : Int) :
    (Group.read .and (.ofList t.text)).run.run next =
      (.ok [t.filter none], next) := by
  have hText : (Members.one (.triple {} t {})).text = t.text := by
    simp [Members.text, Members.texts, Expression.text, Text.joinWith]
  have hFlat : (Members.one (.triple {} t {})).Flattens
      (Connective.and == .or) := trivial
  have hRun := Members.run_read hFlat next
  rw [hText] at hRun
  exact hRun

/-- The operator of a filter is the one that its token names in some case. -/
theorem operator_eq_some_iff (hVisible : ∀ c ∈ t.token, isBlank c = false)
    (operator : Operator) : (t.filter none).operator = some operator ↔
      Text.lower (.ofList t.token) = operator.token := by
  have hTrim : Text.trim (.ofList t.token) = .ofList t.token := by
    rw [Text.trim, String.toList_ofList, Text.trimChars_eq_self
      (fun c hc => hVisible c (List.mem_of_mem_head? hc))
      fun c hc => hVisible c (List.mem_of_mem_getLast? hc)]
  have hRead : (t.filter none).operator =
      Operator.ofToken? (.ofList t.token) := by rw [Triple.filter]
  rw [hRead, Operator.ofToken?_eq_some_iff, hTrim]

end Triple

/-- Where all three spellings of a filter are possible they are compiled to
the filter that is built of its parts. Its operator is the one that the token
names; if there is none, the filter has none. -/
theorem spellings_agree (t : Triple) (hColumn : t.column ≠ [])
    (hFree : String.ofList t.column ∉ Items.reserved) (hToken : t.token ≠ [])
    (hVisible : ∀ c ∈ t.token, isBlank c = false) :
    ∃ f, Filter.build (.ofList t.column) (.ofList t.token)
        (.text (.ofList t.value)) false 0 = .ok f ∧
      (∀ item ∈ t.spellings, Items.compile [item] = .ok { filters := [f] }) ∧
      ∀ operator, f.operator = some operator ↔
        Text.lower (.ofList t.token) = operator.token := by
  have hKeyFree : String.ofList (t.column ++ '.' :: t.token) ∉
      Items.reserved := by
    intro hMem
    have hDot : '.' ∉ (String.ofList (t.column ++ '.' :: t.token)).toList :=
      Items.dot_notMem_of_reserved hMem
    simp at hDot
  have hValue := Items.compile_filter hFree (t.readFilter_value hColumn)
  have hKey := Items.compile_filter hKeyFree
    (t.readFilter_key hColumn hToken hVisible)
  have hGroup := Items.compile_and (Group.unwrap_parenthesized .and _)
    (t.run_read_text 1)
  exact ⟨t.filter none, t.build_alone,
    List.forall_mem_cons.2 ⟨hValue, List.forall_mem_cons.2
      ⟨hKey, List.forall_mem_singleton.2 hGroup⟩⟩,
    t.operator_eq_some_iff hVisible⟩

/-- A list of sizes, with dots and parentheses in it. -/
def Triple.sizes : Triple where
  column := "size".toList
  token := "In".toList
  value := "(1.5,f(2,3))".toList

/-- A comparison that is none. -/
def Triple.equals : Triple where
  column := "size".toList
  token := "equals".toList
  value := "1.5".toList

/-- A list is one filter in every spelling, and an operator that nobody knows
is unknown in every spelling. -/
theorem spellings_agree_sizes :
    (∃ f, (∀ item ∈ Triple.sizes.spellings,
        Items.compile [item] = .ok { filters := [f] }) ∧
      f.operator = some .in) ∧
    ∃ f, (∀ item ∈ Triple.equals.spellings,
        Items.compile [item] = .ok { filters := [f] }) ∧
      f.operator = none := by
  have hVisible : ∀ {token : List Char}, (token.all fun c => !isBlank c) →
      ∀ c ∈ token, isBlank c = false := by simp
  obtain ⟨f, -, hSizes, hIn⟩ := spellings_agree Triple.sizes (by decide)
    (by decide) (by decide) (hVisible (by decide))
  obtain ⟨g, -, hEquals, hKnown⟩ := spellings_agree Triple.equals (by decide)
    (by decide) (by decide) (hVisible (by decide))
  refine ⟨⟨f, hSizes, (hIn .in).2 (by decide +kernel)⟩, g, hEquals, ?_⟩
  rw [Option.eq_none_iff_forall_ne_some]
  intro operator hOperator
  have hToken := (hKnown operator).1 hOperator
  revert hToken
  cases operator <;> decide +kernel

end TableGate
