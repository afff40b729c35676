import TableGate.Proofs.Exchange
import TableGate.Proofs.Json.Reading
import TableGate.Proofs.Shown

/-!
# Totals from a plan

A planner answers with a plan, or with text or bytes that are a document of
one. The total is the integer of the figure `Plan Rows` in the first item of
the plan. A plan without one is refused: the failure shows the plan, and the
transaction is rolled back.

Three kinds of answers are not refused but escape, though the transaction is
rolled back for them too. They are text and bytes that are no document, a plan
whose figure is infinite, and a plan without a total that holds an integer too
long to be shown.

## Main results

* `plannedTotal_planned`: what comes of every answer of a planner.
* `Engine.select_planned`: what comes of a page with such a total.
-/

namespace TableGate

open Result (FailsOnly bind_eq_ok pure_eq_ok)

/-! ## Plans -/

/-- Text and bytes, which are a document of a plan. -/
def Value.isUnparsed : Value → Bool
  | .scalar (.text _) => true
  | .scalar (.buffer kind _) => kind != .view
  | _ => false

/-- The plan of an answer: the value of the document that a text or bytes are,
or else the answer itself, as which a view of bytes is taken too. -/
inductive HoldsPlan : Value → Value → Prop
  | text {s : String} {d : Json.Document} (hText : d.text = s.toList)
      (hStop : d.stop? true = none) : HoldsPlan (.text s) d.value
  | bytes {kind : BufferKind} {bytes : Bytes} {d : Json.Document}
      (hKind : kind ≠ .view) (hText : Encoding.Utf8.decode bytes = .ok d.text)
      (hStop : d.stop? true = none) :
      HoldsPlan (.scalar (.buffer kind bytes)) d.value
  | parsed {plan : Value} (h : plan.isUnparsed = false) : HoldsPlan plan plan

/-- The figure of a plan: the field `Plan Rows` of the field `Plan` of its
first item. -/
inductive HasFigure : Value → Value → Prop
  | list {fields inner : Fields} {others : List Value} {figure : Value}
      (hPlan : Fields.get? fields "Plan" = some (.object inner))
      (hRows : Fields.get? inner "Plan Rows" = some figure) :
      HasFigure (.list (.object fields :: others)) figure
  | tuple {fields inner : Fields} {others : List Value} {figure : Value}
      (hPlan : Fields.get? fields "Plan" = some (.object inner))
      (hRows : Fields.get? inner "Plan Rows" = some figure) :
      HasFigure (.tuple (.object fields :: others)) figure

/-- The integer of the figure of a plan. -/
def HasTotal (plan : Value) (n : Int) : Prop :=
  ∃ figure, HasFigure plan figure ∧ figure.toInteger = .ok n

/-- A number beyond all others. -/
inductive Value.IsInfinite : Value → Prop
  | float (negative : Bool) : IsInfinite (.float (.infinity negative))
  | decimal (negative : Bool) :
      IsInfinite (.scalar (.decimal (.infinity negative)))

/-- An answer that is neither taken nor refused: text or bytes that are no
document, a plan with an infinite figure, or a plan without a total that cannot
be shown. -/
inductive EscapesAsPlan (answer : Value) : Prop
  | unread (h : ∀ plan, ¬HoldsPlan answer plan)
  | infinite {plan figure : Value} (hPlan : HoldsPlan answer plan)
      (hFigure : HasFigure plan figure) (h : figure.IsInfinite)
  | unshown {plan : Value} (hPlan : HoldsPlan answer plan)
      (hNone : ∀ n, ¬HasTotal plan n) (h : plan.HoldsLong)

/-! ## Reading a plan -/

namespace Json

/-- A document given as text does not start with a byte order mark. -/
theorem readString_eq_ok_iff {allowed : Bool} {s : String} {v : Value} :
    readString allowed s = .ok v ↔ read allowed s.toList = .ok v := by
  unfold readString
  dsimp only
  split
  · next hMark =>
      obtain ⟨rest, hRest⟩ := List.head?_eq_some_iff.1 hMark
      rw [hRest, read_eq_ok_iff_readAll]
      refine iff_of_false nofun fun hAll => ?_
      rw [readAll, skipBlanks_cons rfl] at hAll
      cases hAll
  · rfl

end Json

theorem readPlan_text_eq_ok_iff {s : String} {plan : Value} :
    readPlan (.text s) = .ok plan ↔
      ∃ d : Json.Document, d.text = s.toList ∧ d.value = plan ∧
        d.stop? true = none := by
  rw [← Json.read_eq_ok_iff, ← Json.readString_eq_ok_iff]
  unfold readPlan
  dsimp only
  cases Json.readString true s with
  | ok plan => simp
  | error error => simp

theorem readPlan_bytes_eq_ok_iff {kind : BufferKind} {bytes : Bytes}
    (hKind : kind ≠ .view) {plan : Value} :
    readPlan (.scalar (.buffer kind bytes)) = .ok plan ↔
      ∃ d : Json.Document, Encoding.Utf8.decode bytes = .ok d.text ∧
        d.value = plan ∧ d.stop? true = none := by
  cases hDecode : Encoding.Utf8.decode bytes with
  | error fault =>
      have hRead : readPlan (.scalar (.buffer kind bytes)) =
          .error (.unexpected (.undecodableText ⟨.utf8, fault⟩)) := by
        cases kind with
        | view => exact absurd rfl hKind
        | fixed => simp only [readPlan, hDecode]
        | growable => simp only [readPlan, hDecode]
      simp [hRead]
  | ok cs =>
      have hRead : readPlan (.scalar (.buffer kind bytes)) =
          readPlan (.text (.ofList cs)) := by
        cases kind with
        | view => exact absurd rfl hKind
        | fixed => simp only [readPlan, hDecode]
        | growable => simp only [readPlan, hDecode]
      rw [hRead, readPlan_text_eq_ok_iff, String.toList_ofList]
      simp only [Except.ok.injEq, eq_comm]

theorem readPlan_of_not_isUnparsed {answer : Value}
    (h : answer.isUnparsed = false) : readPlan answer = .ok answer := by
  unfold readPlan
  dsimp only
  split
  · rfl
  · next kind bytes hKind =>
      exact absurd (bne_eq_false_iff_eq.1 h) hKind
  · cases h
  · rfl

/-- An answer is read as its plan. -/
theorem readPlan_eq_ok_iff {answer plan : Value} :
    readPlan answer = .ok plan ↔ HoldsPlan answer plan := by
  constructor
  · intro h
    cases hUnparsed : answer.isUnparsed with
    | false =>
        rw [readPlan_of_not_isUnparsed hUnparsed] at h
        rw [← Except.ok.inj h]
        exact .parsed hUnparsed
    | true =>
        unfold Value.isUnparsed at hUnparsed
        split at hUnparsed
        · obtain ⟨d, hText, rfl, hStop⟩ := readPlan_text_eq_ok_iff.1 h
          exact .text hText hStop
        · have hKind := bne_iff_ne.1 hUnparsed
          obtain ⟨d, hText, rfl, hStop⟩ :=
            (readPlan_bytes_eq_ok_iff hKind).1 h
          exact .bytes hKind hText hStop
        · cases hUnparsed
  · intro h
    cases h with
    | text hText hStop =>
        exact readPlan_text_eq_ok_iff.2 ⟨_, hText, rfl, hStop⟩
    | bytes hKind hText hStop =>
        exact (readPlan_bytes_eq_ok_iff hKind).2 ⟨_, hText, rfl, hStop⟩
    | parsed hUnparsed => exact readPlan_of_not_isUnparsed hUnparsed

/-- What is read of no answer is nothing that was planned for. -/
theorem readPlan_unexpected {answer : Value} {e : Error}
    (h : readPlan answer = .error e) : ∃ cause, e = .unexpected cause := by
  unfold readPlan at h
  dsimp only at h
  split at h
  · cases h
  · split at h
    · split at h
      · cases h
      · exact ⟨_, (Except.error.inj h).symm⟩
    · exact ⟨_, (Except.error.inj h).symm⟩
  · split at h
    · cases h
    · exact ⟨_, (Except.error.inj h).symm⟩
  · cases h

theorem planRows?_eq_some_iff {plan figure : Value} :
    planRows? plan = some figure ↔ HasFigure plan figure := by
  constructor
  · intro h
    unfold planRows? at h
    dsimp only at h
    split at h
    · next fields hFirst =>
        split at h
        · next inner hPlan =>
            split at hFirst
            · obtain ⟨others, rfl⟩ := List.head?_eq_some_iff.1 hFirst
              exact .list hPlan h
            · obtain ⟨others, rfl⟩ := List.head?_eq_some_iff.1 hFirst
              exact .tuple hPlan h
            · cases hFirst
        · cases h
    · cases h
  · intro h
    cases h with
    | list hPlan hRows =>
        simp only [planRows?, List.head?_cons, hPlan, hRows]
    | tuple hPlan hRows =>
        simp only [planRows?, List.head?_cons, hPlan, hRows]

theorem spelled_ne_infinite {shown : Value}
    {read : Except Text.IntegerFault Int} {text : String} :
    spelled shown read ≠ .error (.infinite text) := by
  unfold spelled
  split <;> exact nofun

theorem Value.toInteger_eq_infinite_iff {v : Value} :
    (∃ text, v.toInteger = .error (.infinite text)) ↔ v.IsInfinite := by
  constructor
  · rintro ⟨text, h⟩
    unfold toInteger at h
    split at h
    · cases h
    · cases h
    · next x =>
        cases x with
        | finite => cases h
        | nan => cases h
        | infinity negative => exact .float negative
    · next d =>
        cases d with
        | finite => cases h
        | nan => cases h
        | infinity negative => exact .decimal negative
    · exact absurd h spelled_ne_infinite
    · exact absurd h spelled_ne_infinite
    all_goals cases h
  · intro h
    cases h with
    | float negative => exact ⟨_, rfl⟩
    | decimal negative => exact ⟨_, rfl⟩

/-! ## What comes of an answer -/

theorem HoldsPlan.unique {answer plan other : Value}
    (h : HoldsPlan answer plan) (hOther : HoldsPlan answer other) :
    plan = other :=
  Except.ok.inj ((readPlan_eq_ok_iff.2 h).symm.trans
    (readPlan_eq_ok_iff.2 hOther))

theorem HasFigure.unique {plan figure other : Value}
    (h : HasFigure plan figure) (hOther : HasFigure plan other) :
    figure = other :=
  Option.some.inj ((planRows?_eq_some_iff.2 h).symm.trans
    (planRows?_eq_some_iff.2 hOther))

theorem HasTotal.unique {plan : Value} {m n : Int} (h : HasTotal plan m)
    (hOther : HasTotal plan n) : m = n := by
  obtain ⟨figure, hFigure, hInteger⟩ := h
  obtain ⟨other, hSame, hAgain⟩ := hOther
  obtain rfl := hFigure.unique hSame
  exact Except.ok.inj (hInteger.symm.trans hAgain)

/-- A total is taken from an answer, or the plan of the answer is refused, or
the answer escapes. -/
inductive Planned (answer : Value) : Result Int → Prop
  | total {plan : Value} {n : Int} (hPlan : HoldsPlan answer plan)
      (hTotal : HasTotal plan n) : Planned answer (.ok n)
  | refused {plan : Value} (hPlan : HoldsPlan answer plan)
      (hNone : ∀ n, ¬HasTotal plan n)
      (hFinite : ∀ figure, HasFigure plan figure → ¬figure.IsInfinite)
      (hShort : ¬plan.HoldsLong) :
      Planned answer (.error (.planUnexpected plan))
  | escaped {cause : Unexpected} (h : EscapesAsPlan answer) :
      Planned answer (.error (.unexpected cause))

/-- A plan without a total is refused if it can be shown. -/
theorem planned_planRefusal {answer plan : Value}
    (hPlan : HoldsPlan answer plan) (hNone : ∀ n, ¬HasTotal plan n)
    (hFinite : ∀ figure, HasFigure plan figure → ¬figure.IsInfinite) :
    Planned answer (.error (planRefusal plan)) := by
  unfold planRefusal
  split
  · next hShown =>
      exact .refused hPlan hNone hFinite (Value.isShowable_iff.1 hShown)
  · next hHidden =>
      refine .escaped (.unshown hPlan hNone ?_)
      exact not_not.1 (mt Value.isShowable_iff.2 hHidden)

/-- What comes of every answer of a planner. -/
theorem plannedTotal_planned (answer : Value) :
    Planned answer (plannedTotal answer) := by
  unfold plannedTotal
  cases hRead : readPlan answer with
  | error e =>
      obtain ⟨cause, rfl⟩ := readPlan_unexpected hRead
      refine .escaped (.unread fun plan hPlan => ?_)
      cases (readPlan_eq_ok_iff.2 hPlan).symm.trans hRead
  | ok plan =>
      have hPlan := readPlan_eq_ok_iff.1 hRead
      dsimp only [bind, Except.bind]
      cases hRows : planRows? plan with
      | none =>
          have hNone : ∀ figure, ¬HasFigure plan figure := by
            intro figure hFigure
            cases (planRows?_eq_some_iff.2 hFigure).symm.trans hRows
          refine planned_planRefusal hPlan ?_ fun figure hFigure =>
            absurd hFigure (hNone figure)
          rintro n ⟨figure, hFigure, -⟩
          exact hNone figure hFigure
      | some figure =>
          have hFigure := planRows?_eq_some_iff.1 hRows
          dsimp only
          split
          · next n hInteger =>
              exact .total hPlan ⟨figure, hFigure, hInteger⟩
          · next text hInfinite =>
              exact .escaped (.infinite hPlan hFigure
                (Value.toInteger_eq_infinite_iff.1 ⟨text, hInfinite⟩))
          · next cause hFinite hInteger =>
              refine planned_planRefusal hPlan ?_ ?_
              · rintro n ⟨other, hOther, hTotal⟩
                obtain rfl := hFigure.unique hOther
                cases hInteger.symm.trans hTotal
              · intro other hOther hInfinite
                obtain rfl := hFigure.unique hOther
                obtain ⟨text, hText⟩ :=
                  Value.toInteger_eq_infinite_iff.2 hInfinite
                exact hFinite text
                  (Except.error.inj (hInteger.symm.trans hText))

/-- The plan of an answer that escapes has no total. -/
theorem EscapesAsPlan.not_hasTotal {answer plan : Value}
    (h : EscapesAsPlan answer) (hPlan : HoldsPlan answer plan) (n : Int) :
    ¬HasTotal plan n := by
  rintro ⟨figure, hFigure, hInteger⟩
  cases h with
  | unread hUnread => exact hUnread plan hPlan
  | infinite hOther hOwn hInfinite =>
      obtain rfl := hPlan.unique hOther
      obtain rfl := hFigure.unique hOwn
      obtain ⟨text, hText⟩ := Value.toInteger_eq_infinite_iff.2 hInfinite
      cases hInteger.symm.trans hText
  | unshown hOther hNone _ =>
      obtain rfl := hPlan.unique hOther
      exact hNone n ⟨figure, hFigure, hInteger⟩

/-- An answer that escapes fails by what nobody planned for. -/
theorem EscapesAsPlan.exists_cause {answer : Value} (h : EscapesAsPlan answer)
    {outcome : Result Int} (hPlanned : Planned answer outcome) :
    ∃ cause, outcome = .error (.unexpected cause) := by
  cases hPlanned with
  | total hPlan hTotal => exact absurd hTotal (h.not_hasTotal hPlan _)
  | @refused plan hPlan hNone hFinite hShort =>
      cases h with
      | unread hUnread => exact absurd hPlan (hUnread plan)
      | infinite hOther hFigure hInfinite =>
          obtain rfl := hPlan.unique hOther
          exact absurd hInfinite (hFinite _ hFigure)
      | unshown hOther _ hLong =>
          obtain rfl := hPlan.unique hOther
          exact absurd hLong hShort
  | escaped => exact ⟨_, rfl⟩

/-! ## A page with its planned total -/

namespace Engine

open TableGate.Task (Unshown)

variable {δ : Type} (engine : Engine δ) {table : Table} {params : Params}
  {page explain : Sql.Statement} (world : World δ) {rows : List Row}
  {found answer : QueryResult} {between after : δ} {scalar : Value}

/-- What is read off an answer that is known. -/
theorem ask_answered {α : Type} {s : Sql.Statement}
    (h : ¬Unshown engine s.prepare) (world : World δ)
    (hAnswer : engine.database.execute world.database s.prepare =
      (.ok answer, after)) (read : QueryResult → Result α) :
    ∃ logger, (engine.ask s.rendered read).run.run world = (read answer, {
      logger
      database := after
      events := world.events ++ [.statement s.prepare] }) := by
  obtain ⟨logger, hRun⟩ := engine.ask_run (r := s.rendered) h read world
  have hSame : engine.database.execute world.database s.rendered.prepare =
      (.ok answer, after) := hAnswer
  rw [hSame] at hRun
  exact ⟨logger, hRun⟩

/-- A page with a planned total asks for its rows and then for the plan. -/
theorem select_eq_of_planned (hCount : params.count = some .planned)
    (hValid : params.validate table = .ok ())
    (hPage : Sql.select table params = .ok page)
    (hExplain : Sql.explain table params = .ok explain) :
    engine.select table params = Task.transaction engine.database (do
      let rows ← engine.ask page.rendered QueryResult.decodeRows
      let n ← engine.ask explain.rendered QueryResult.estimate
      return ⟨rows, some n⟩) := by
  have hPageBuilt : Sql.Builder.select table params = .ok page.rendered := by
    rw [Sql.Builder.select_eq, hPage]
    rfl
  have hExplainBuilt : Sql.Builder.explain table params =
      .ok explain.rendered := by
    rw [Sql.Builder.explain_eq, hExplain]
    rfl
  have hPlan : params.count.mapM (countPlan table params) =
      .ok (some (.planned explain.rendered)) := by
    rw [hCount, Option.mapM_some, countPlan, hExplainBuilt]
    rfl
  unfold select
  rw [hValid, hPageBuilt, hPlan]
  show Task.transaction engine.database
    (engine.ask page.rendered QueryResult.decodeRows >>= fun rows =>
      some <$> engine.plannedCount explain.rendered >>= fun total => _) = _
  simp only [bind_map_left]
  rfl

/-- A page whose rows arrive and whose total is planned has the outcome of its
total, which decides how the transaction ends. -/
theorem select_planned_run (hCount : params.count = some .planned)
    (hValid : params.validate table = .ok ())
    (hPage : Sql.select table params = .ok page)
    (hExplain : Sql.explain table params = .ok explain)
    (hShown : ¬Unshown engine page.prepare ∧ ¬Unshown engine explain.prepare)
    (hOpens : engine.database.opens world.database = none)
    (hCommits : engine.database.commits after = none)
    (hFound : engine.database.execute world.database page.prepare =
      (.ok found, between)) (hRows : found.decodeRows = .ok rows)
    (hAnswer : engine.database.execute between explain.prepare =
      (.ok answer, after)) (hScalar : answer.scalar = .ok scalar) :
    ∃ logger, (engine.select table params).run.run world =
      ((plannedTotal scalar).map fun n => ⟨rows, some n⟩,
        { logger
          database := after
          events := world.events ++ [.begin, .statement page.prepare,
            .statement explain.prepare,
            Task.ending (plannedTotal scalar)] }) := by
  obtain ⟨logger, hFirst⟩ := engine.ask_answered hShown.1
    { world with events := world.events ++ [.begin] } hFound
    QueryResult.decodeRows
  rw [hRows] at hFirst
  obtain ⟨last, hSecond⟩ := engine.ask_answered hShown.2
    { logger, database := between,
      events := world.events ++ [.begin] ++ [.statement page.prepare] }
    hAnswer QueryResult.estimate
  have hTotal : answer.estimate = plannedTotal scalar := by
    rw [QueryResult.estimate, QueryResult.single, hScalar]
    rfl
  rw [hTotal] at hSecond
  refine ⟨last, ?_⟩
  rw [engine.select_eq_of_planned hCount hValid hPage hExplain,
    Task.transaction_run hOpens, Task.bind_run_ok hFirst]
  cases hOutcome : plannedTotal scalar with
  | error e =>
      rw [hOutcome] at hSecond
      rw [Task.bind_run_error hSecond]
      simp only [List.append_assoc, List.cons_append, List.nil_append]
      rfl
  | ok n =>
      have hLast : ∀ (page : ReadResult) (world : World δ),
          (pure page : Task δ ReadResult).run.run world = (.ok page, world) :=
        fun _ _ => rfl
      rw [hOutcome] at hSecond
      rw [Task.bind_run_ok hSecond, hLast]
      dsimp only
      rw [Database.commit_of_none hCommits]
      simp only [List.append_assoc, List.cons_append, List.nil_append]
      rfl

/-- A page with a planned total, for every answer of the planner. Unless the
answer escapes, it gives the integer of the figure of its plan, or its plan
has none and is refused; what escapes fails by what nobody planned for. The
transaction ends by the outcome: whatever fails is rolled back. -/
theorem select_planned (hCount : params.count = some .planned)
    (hValid : params.validate table = .ok ())
    (hPage : Sql.select table params = .ok page)
    (hExplain : Sql.explain table params = .ok explain)
    (hShown : ¬Unshown engine page.prepare ∧ ¬Unshown engine explain.prepare)
    (hOpens : engine.database.opens world.database = none)
    (hCommits : engine.database.commits after = none)
    (hFound : engine.database.execute world.database page.prepare =
      (.ok found, between)) (hRows : found.decodeRows = .ok rows)
    (hAnswer : engine.database.execute between explain.prepare =
      (.ok answer, after)) (hScalar : answer.scalar = .ok scalar) :
    ∃ logger outcome, (engine.select table params).run.run world = (outcome, {
        logger
        database := after
        events := world.events ++ [.begin, .statement page.prepare,
          .statement explain.prepare, Task.ending outcome] }) ∧
      (¬EscapesAsPlan scalar → ∃ plan, HoldsPlan scalar plan ∧
        ((∃ n, HasTotal plan n ∧ outcome = .ok ⟨rows, some n⟩) ∨
          (∀ n, ¬HasTotal plan n) ∧
            outcome = .error (.planUnexpected plan))) ∧
      (EscapesAsPlan scalar → ∃ cause,
        outcome = .error (.unexpected cause)) := by
  obtain ⟨logger, hRun⟩ := engine.select_planned_run world hCount hValid
    hPage hExplain hShown hOpens hCommits hFound hRows hAnswer hScalar
  have hPlanned := plannedTotal_planned scalar
  generalize plannedTotal scalar = total at hRun hPlanned
  refine ⟨logger, total.map fun n => ⟨rows, some n⟩, ?_, fun hHeld => ?_,
    fun hEscapes => ?_⟩
  · rw [hRun]
    cases total <;> rfl
  · cases hPlanned with
    | total hPlan hTotal => exact ⟨_, hPlan, .inl ⟨_, hTotal, rfl⟩⟩
    | refused hPlan hNone => exact ⟨_, hPlan, .inr ⟨hNone, rfl⟩⟩
    | escaped hEscapes => exact absurd hEscapes hHeld
  · obtain ⟨cause, rfl⟩ := hEscapes.exists_cause hPlanned
    exact ⟨cause, rfl⟩

/-- A database without rows that gives every statement one answer. -/
def answering (answer : Value) : Database Unit where
  connect := fun _ => none
  execute := fun _ _ => (.ok { scalar := .ok answer }, ())

/-- An engine that serves items from it. -/
def answeringItems (answer : Value) : Engine Unit where
  catalog := { tables := [Sql.items] }
  config := { projectName := "items" }
  database := answering answer

/-- A plan of seven rows. -/
def sevenRows : Value :=
  .list [.object [("Plan", .object [("Plan Rows", .int 7)])]]

theorem select_planned_items : ∃ page explain logger,
    Params.validate { count := some .planned } Sql.items = .ok () ∧
    Sql.select Sql.items { count := some .planned } = .ok page ∧
    Sql.explain Sql.items { count := some .planned } = .ok explain ∧
    ((answeringItems sevenRows).select Sql.items
        { count := some .planned }).run.run ⟨{}, (), []⟩ =
      (.ok ⟨[], some 7⟩, ⟨logger, (), [.begin, .statement page.prepare,
        .statement explain.prepare, .commit]⟩) := by
  have hValid : Params.validate { count := some .planned } Sql.items =
      .ok () := rfl
  obtain ⟨page, hPage⟩ : ∃ page,
      Sql.select Sql.items { count := some .planned } = .ok page := ⟨_, rfl⟩
  obtain ⟨explain, hExplain⟩ : ∃ explain,
      Sql.explain Sql.items { count := some .planned } = .ok explain :=
    ⟨_, rfl⟩
  have hPlan : HoldsPlan sevenRows sevenRows := .parsed rfl
  have hTotal : HasTotal sevenRows 7 := ⟨.int 7, .list rfl rfl, rfl⟩
  have hShown : ∀ p, ¬Unshown (answeringItems sevenRows) p :=
    fun _ h => absurd h.1 Bool.false_ne_true
  obtain ⟨logger, outcome, hRun, hHeld, -⟩ :=
    (answeringItems sevenRows).select_planned ⟨{}, (), []⟩ rfl hValid hPage
      hExplain ⟨hShown _, hShown _⟩ rfl rfl rfl rfl rfl rfl
  obtain ⟨plan, hOther, hOutcome⟩ :=
    hHeld fun hEscapes => hEscapes.not_hasTotal hPlan 7 hTotal
  obtain rfl := hPlan.unique hOther
  rcases hOutcome with ⟨n, hSame, rfl⟩ | ⟨hNone, -⟩
  · obtain rfl := hTotal.unique hSame
    exact ⟨page, explain, logger, hValid, hPage, hExplain, hRun⟩
  · exact absurd hTotal (hNone 7)

/-- A planner that answers with a text that is no document is not refused: the
failure of the reader escapes. -/
theorem select_planned_unread : ∃ cause, (((answeringItems
    (.text "not json")).select Sql.items { count := some .planned }).run.run
      ⟨{}, (), []⟩).1 = .error (.unexpected cause) :=
  ⟨_, rfl⟩

end Engine

end TableGate
