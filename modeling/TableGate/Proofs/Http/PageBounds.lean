import TableGate.Proofs.Http.Refusal
import TableGate.Proofs.Http.Shown

/-!
# The bounds of a page

A list request may ask for a limit and an offset. The page that is served
starts where the request asks, and is never longer than what the request asks
for, than the largest page that is configured, and than what is left of the
total that is configured. The bounds stand at the end of the SELECT that is
sent, whichever way the request came and however the database answers. Nothing
is sent where the database opens no transaction, or where the log is to show a
page size that it cannot show.

## Main results

* `Pagination.serves_apply`: the page that is served for what is asked.
* `Engine.select_run`: a list that is not refused sends its SELECT first, if
  anything, and after it only statements for the total.
* `Engine.pages_bounded`: every list request that is accepted sends a SELECT
  with the bounds of such a page.
-/

namespace TableGate

open Result (OnlyRefuses bind_eq_ok pure_eq_ok)

/-! ## Pages -/

namespace Pagination

variable {pagination : Pagination} {limit offset : Option Int}

/-- Limits that mean something: no default below zero, and bounds that are
counts or none. -/
structure Sound (pagination : Pagination) : Prop where
  defaultLimit : 0 ≤ pagination.defaultLimit
  maxLimit : unbounded ≤ pagination.maxLimit
  maxTotal : unbounded ≤ pagination.maxTotal

/-- A page keeps to what was asked for and to the limits. -/
structure Serves (pagination : Pagination) (limit offset : Option Int)
    (page : Page) : Prop where
  offset : page.offset = offset.getD 0
  nonneg : 0 ≤ page.limit
  requested : ∀ n ∈ limit, page.limit ≤ n
  largest : pagination.maxLimit = unbounded ∨ page.limit ≤ pagination.maxLimit
  total : pagination.maxTotal = unbounded ∨ page.limit = 0 ∨
    page.offset + page.limit ≤ pagination.maxTotal

theorem capLimit_le (n : Int) : pagination.capLimit n ≤ n := by
  unfold capLimit
  split
  · next hCapped => exact Int.le_of_lt hCapped.2
  · exact Int.le_refl n

theorem capLimit_le_maxLimit (h : pagination.maxLimit ≠ unbounded) (n : Int) :
    pagination.capLimit n ≤ pagination.maxLimit := by
  unfold capLimit
  split
  · exact Int.le_refl _
  · next hNot => exact Int.not_lt.1 fun hLarger => hNot ⟨h, hLarger⟩

theorem capLimit_nonneg (hSound : pagination.Sound) {n : Int} (hn : 0 ≤ n) :
    0 ≤ pagination.capLimit n := by
  have hLargest := hSound.maxLimit
  unfold capLimit
  split
  · next hCapped =>
      have hBound := hCapped.1
      unfold unbounded at hLargest hBound
      omega
  · exact hn

theorem capLimit_mono {m n : Int} (h : m ≤ n) :
    pagination.capLimit m ≤ pagination.capLimit n := by
  unfold capLimit
  split <;> split <;> omega

theorem capTotal_nonneg {offset n : Int} (h : 0 ≤ n) :
    0 ≤ pagination.capTotal offset n := by
  unfold capTotal
  split <;> omega

theorem capTotal_le {offset n : Int} (h : 0 ≤ n) :
    pagination.capTotal offset n ≤ n := by
  unfold capTotal
  split <;> omega

theorem capTotal_fits (h : pagination.maxTotal ≠ unbounded) (offset n : Int) :
    pagination.capTotal offset n = 0 ∨
      offset + pagination.capTotal offset n ≤ pagination.maxTotal := by
  unfold capTotal
  rw [if_pos h]
  omega

theorem capTotal_mono (offset : Int) {m n : Int} (h : m ≤ n) :
    pagination.capTotal offset m ≤ pagination.capTotal offset n := by
  unfold capTotal
  split <;> omega

/-- What is capped already is not capped again. -/
theorem capTotal_capLimit_capped (offset n : Int) :
    pagination.capTotal offset
        (pagination.capLimit (pagination.capTotal offset
          (pagination.capLimit n))) =
      pagination.capTotal offset (pagination.capLimit n) := by
  unfold capTotal capLimit
  split_ifs <;> omega

/-- The page that is served for what is asked. -/
theorem serves_apply (hSound : pagination.Sound)
    (hLimit : ∀ n ∈ limit, 0 ≤ n) :
    pagination.Serves limit offset (pagination.apply limit offset) := by
  have hAsked : 0 ≤ limit.getD pagination.defaultLimit := by
    cases limit with
    | none => exact hSound.defaultLimit
    | some n => exact hLimit n rfl
  have hCapped := capLimit_nonneg hSound hAsked
  have hTotal : (pagination.apply limit offset).limit ≤
      pagination.capLimit (limit.getD pagination.defaultLimit) :=
    capTotal_le hCapped
  constructor
  case offset => rfl
  case nonneg => exact capTotal_nonneg hCapped
  case requested =>
    rintro n rfl
    exact Int.le_trans hTotal (capLimit_le n)
  case largest =>
    by_cases hBound : pagination.maxLimit = unbounded
    · exact .inl hBound
    · exact .inr (Int.le_trans hTotal (capLimit_le_maxLimit hBound _))
  case total =>
    by_cases hBound : pagination.maxTotal = unbounded
    · exact .inl hBound
    · exact .inr (capTotal_fits hBound _ _)

/-- A page that is served is served again as it is. -/
theorem apply_apply (pagination : Pagination) (limit offset : Option Int) :
    pagination.apply (some (pagination.apply limit offset).limit)
        (some (pagination.apply limit offset).offset) =
      pagination.apply limit offset :=
  congrArg (Page.mk · (offset.getD 0)) (capTotal_capLimit_capped _ _)

/-- To ask for more rows is to be served no fewer. -/
theorem apply_mono (pagination : Pagination) (offset : Option Int) {m n : Int}
    (h : m ≤ n) :
    (pagination.apply (some m) offset).limit ≤
      (pagination.apply (some n) offset).limit :=
  capTotal_mono _ (capLimit_mono h)

end Pagination

/-! ## Bounds that are asked for -/

open Http (Request Response documentParams paginate replyStatus)

/-- The limit and the offset that a list request asks for: by items of its
query string, or in the document of its body. -/
inductive Asks (request : Request) : Action → Option Int → Option Int → Prop
  | list {items : Items} {limit offset : Option Int}
      (hItems : request.items = .ok items)
      (hLimit : items.clause "limit" none (readBound "limit") = .ok limit)
      (hOffset : items.clause "offset" none (readBound "offset") =
        .ok offset) : Asks request .list limit offset
  | query {value : Value} {document : Document}
      (hBody : request.document = .ok value)
      (hDocument : Document.ofValue value = .ok document) :
      Asks request .query (document.limit.map Int.ofNat)
        (document.offset.map Int.ofNat)

namespace Asks

variable {request : Request} {params : Params}

theorem of_params (h : request.params = .ok params) :
    Asks request .list params.limit params.offset := by
  obtain ⟨items, hItems, h⟩ := bind_eq_ok.1 h
  obtain ⟨selection, -, h⟩ := bind_eq_ok.1 h
  obtain ⟨plain, -, h⟩ := bind_eq_ok.1 h
  obtain ⟨grouped, -, h⟩ := bind_eq_ok.1 h
  obtain ⟨cursorColumn, -, h⟩ := bind_eq_ok.1 h
  obtain ⟨order, -, h⟩ := bind_eq_ok.1 h
  obtain ⟨limit, hLimit, h⟩ := bind_eq_ok.1 h
  obtain ⟨offset, hOffset, h⟩ := bind_eq_ok.1 h
  obtain ⟨count, -, h⟩ := bind_eq_ok.1 h
  obtain ⟨cursor, -, h⟩ := bind_eq_ok.1 h
  rw [← pure_eq_ok.1 h]
  exact .list hItems hLimit hOffset

theorem of_documentParams (h : documentParams request = .ok params) :
    Asks request .query params.limit params.offset := by
  obtain ⟨value, hBody, h⟩ := bind_eq_ok.1 h
  split at h
  · next document hDocument =>
      rw [Document.compile_eq] at h
      obtain ⟨selection, -, h⟩ := bind_eq_ok.1 h
      obtain ⟨filters, -, h⟩ := bind_eq_ok.1 h
      obtain ⟨cursorColumn, -, h⟩ := bind_eq_ok.1 h
      obtain ⟨count, -, h⟩ := bind_eq_ok.1 h
      obtain ⟨cursor, -, h⟩ := bind_eq_ok.1 h
      rw [← pure_eq_ok.1 h]
      exact .query hBody hDocument
  · exact absurd h Result.refuse_ne_ok

/-- A bound in a text is not negative. -/
theorem nonneg_of_readBound {name value : String} {bound : Option Int}
    (h : readBound name value = .ok bound) : ∀ n ∈ bound, 0 ≤ n := by
  unfold readBound at h
  split at h
  · rw [← Except.ok.inj h]
    exact nofun
  · split at h
    · split at h
      · exact absurd h Result.refuse_ne_ok
      · next n _ hNot =>
          rw [← Except.ok.inj h]
          rintro m hm
          rw [← Option.some.inj hm]
          exact Int.not_lt.1 hNot
    · exact absurd h Result.refuse_ne_ok

theorem nonneg_of_clause {items : Items} {name : String}
    {bound : Option Int}
    (h : items.clause name none (readBound name) = .ok bound) :
    ∀ n ∈ bound, 0 ≤ n := by
  unfold Items.clause at h
  split at h
  · exact nonneg_of_readBound h
  · rw [← Except.ok.inj h]
    exact nofun

theorem nonneg_of_natural (bound : Option Nat) :
    ∀ n ∈ bound.map Int.ofNat, 0 ≤ n := by
  intro n hn
  obtain ⟨m, -, rfl⟩ := Option.map_eq_some_iff.1 hn
  exact Int.natCast_nonneg m

variable {action : Action} {limit offset : Option Int}

/-- No limit that is asked for is negative. -/
theorem nonneg (h : Asks request action limit offset) : ∀ n ∈ limit, 0 ≤ n := by
  cases h with
  | list _ hLimit _ => exact nonneg_of_clause hLimit
  | query _ _ => exact nonneg_of_natural _

/-- No offset that is asked for is negative. -/
theorem nonneg_offset (h : Asks request action limit offset) :
    ∀ n ∈ offset, 0 ≤ n := by
  cases h with
  | list _ _ hOffset => exact nonneg_of_clause hOffset
  | query _ _ => exact nonneg_of_natural _

end Asks

/-! ## Bounds in a text -/

namespace Sql

/-- A SELECT ends with the bounds of a page: those are the last of its values,
bound by their names. -/
def PreparedStatement.EndsWith (p : PreparedStatement) (page : Page) : Prop :=
  ∃ text n, p.sql = "SELECT " ++ text ++ " LIMIT :" ++ nameText (n + 1) ++
      " OFFSET :" ++ nameText (n + 2) ∧
    p.params.length = n + 2 ∧
    p.params.lookup (nameText (n + 1)) = some (.int page.limit) ∧
    p.params.lookup (nameText (n + 2)) = some (.int page.offset)

theorem toList_nameText (n : Nat) :
    (nameText n).toList = 'p' :: Text.natDigits n := by
  simp [nameText, Text.natText]

/-- The SELECT of a request with both bounds ends with them. -/
theorem select_endsWith {table : Table} {params : Params} {s : Statement}
    {page : Page} (h : select table params = .ok s)
    (hLimit : params.limit = some page.limit)
    (hOffset : params.offset = some page.offset) :
    s.prepare.EndsWith page := by
  obtain ⟨lead, hPieces⟩ : ∃ lead, s.pieces = .word .select :: (lead ++
      [.word .limit, .bind (.int page.limit), .word .offset,
        .bind (.int page.offset)]) := by
    obtain ⟨target, -, h⟩ := bind_eq_ok.1 h
    obtain ⟨columns, -, h⟩ := bind_eq_ok.1 h
    obtain ⟨filters, -, h⟩ := bind_eq_ok.1 h
    obtain ⟨wherePart, -, h⟩ := bind_eq_ok.1 h
    obtain ⟨groupPart, -, h⟩ := bind_eq_ok.1 h
    obtain ⟨orderPart, -, h⟩ := bind_eq_ok.1 h
    rw [hLimit, hOffset] at h
    refine ⟨columns ++ [.word .fromTable, target] ++ wherePart ++ groupPart ++
      orderPart, ?_⟩
    rw [← pure_eq_ok.1 h]
    simp [boundClause]
  have hArgs : s.args = argsOf lead ++ [.int page.limit, .int page.offset] := by
    rw [Statement.args, hPieces, argsOf_cons rfl, args_append]
    rfl
  refine ⟨.ofList (charsWith named 0 lead), (argsOf lead).length, ?_, ?_, ?_,
    ?_⟩
  · rw [← String.toList_inj, s.toList_prepare, hPieces, charsWith,
      charsWith_append]
    simp only [String.toList_append, String.toList_ofList, toList_nameText]
    simp [charsWith, Piece.chars, Piece.values, named, Piece.text, Word.text]
  · show (namedArgs s.args).length = _
    rw [namedArgs, List.length_map, List.length_zipIdx, hArgs,
      List.length_append]
    rfl
  · exact lookup_namedArgs (by rw [hArgs, List.getElem?_append_right] <;> simp)
  · exact lookup_namedArgs (by rw [hArgs, List.getElem?_append_right] <;> simp)

end Sql

/-! ## What a list sends -/

namespace Engine

variable {δ α β : Type} (engine : Engine δ)

open TableGate.Task (Unshown)

/-- A task that asks and goes on sends what it asks first. -/
theorem ask_bind_events {r : Sql.Rendered} (h : ¬Unshown engine r.prepare)
    (read : QueryResult → Result α) {f : α → Task δ β}
    {Q : Sql.PreparedStatement → Prop} (hNext : ∀ a, Task.Sends Q (f a))
    (world : World δ) :
    ∃ new, ((engine.ask r read >>= f).run.run world).2.events =
        world.events ++ .statement r.prepare :: new ∧
      ∀ p, .statement p ∈ new → Q p := by
  obtain ⟨logger, hRun⟩ := engine.ask_run h read world
  rcases hOutcome : (engine.database.execute world.database
      r.prepare).1.mapError Refusal.error >>= read with e | a
  all_goals rw [hOutcome] at hRun
  · rw [Task.bind_run_error hRun]
    exact ⟨[], rfl, fun _ hMem => absurd hMem List.not_mem_nil⟩
  · rw [Task.bind_run_ok hRun]
    obtain ⟨new, hEvents, hSent⟩ := hNext a _
    refine ⟨new, ?_, hSent⟩
    rw [hEvents, List.append_assoc]
    rfl

/-- What is made of the result of a task leaves the world as it is. -/
theorem bind_lift_world (task : Task δ α) (f : α → Result β)
    (world : World δ) :
    ((task >>= fun a => Task.lift (f a)).run.run world).2 =
      (task.run.run world).2 := by
  rw [ExceptT.run_bind, StateT.run_bind]
  rcases task.run.run world with ⟨_ | _, after⟩ <;> rfl

/-- A transaction that is opened adds its begin and its end to what is done in
it. -/
theorem transaction_events {database : Database δ} {task : Task δ α}
    {world : World δ} {new : List Event}
    (hOpens : database.opens world.database = none)
    (h : (task.run.run { world with
      events := world.events ++ [.begin] }).2.events =
        world.events ++ [.begin] ++ new) :
    ∃ ending, (∀ p, ending ≠ .statement p) ∧
      ((Task.transaction database task).run.run world).2.events =
        world.events ++ .begin :: (new ++ [ending]) := by
  rw [Task.transaction_run hOpens]
  dsimp only
  rw [h]
  generalize hEnding : Task.ending (database.commit _ _) = ending
  refine ⟨ending, fun p hSame => ?_, by simp [List.append_assoc]⟩
  rw [hSame] at hEnding
  unfold Task.ending at hEnding
  split at hEnding <;> exact Event.noConfusion hEnding

/-- A statement counts the rows of a list, or asks for an estimate. -/
def IsTotal (table : Table) (params : Params) (p : Sql.PreparedStatement) :
    Prop :=
  ∃ s, (Sql.count table params = .ok s ∨ Sql.explain table params = .ok s) ∧
    p = s.prepare

/-- What is done to the database for a page with a SELECT. A transaction is
opened, and the SELECT is sent there, and then only statements for the total.
Nothing is sent if the transaction cannot be opened or the log cannot show the
SELECT. -/
inductive PageEvents (table : Table) (before : World δ)
    (p : Sql.PreparedStatement) : List Event → Prop
  | sent {new : List Event}
      (h : ∀ q, .statement q ∈ new → ∃ params, IsTotal table params q) :
      PageEvents table before p (before.events ++ .begin :: .statement p :: new)
  | unopened {message : String}
      (h : engine.database.opens before.database = some message) :
      PageEvents table before p before.events
  | unshown (h : Unshown engine p) :
      PageEvents table before p (before.events ++ [.begin, .rollback])

/-- The transaction of a page. -/
theorem transaction_pageEvents {table : Table} {s : Sql.Statement}
    {f : List Row → Task δ α}
    (hNext : ∀ rows, Task.Sends
      (fun q => ∃ params, IsTotal table params q) (f rows)) (world : World δ) :
    PageEvents engine table world s.prepare
      ((Task.transaction engine.database
        (engine.fetch s.rendered >>= f)).run.run world).2.events := by
  cases hOpens : engine.database.opens world.database with
  | some message =>
      rw [Task.transaction_run_of_opens hOpens]
      exact .unopened hOpens
  | none =>
      by_cases hUnshown : Unshown engine s.prepare
      · have hRun := Task.bind_run_error (f := f)
          (engine.ask_run_of_unshown (r := s.rendered) hUnshown
            QueryResult.decodeRows
            { world with events := world.events ++ [.begin] })
        rw [Task.transaction_run hOpens]
        dsimp only
        rw [show (engine.fetch s.rendered >>= f).run.run
          { world with events := world.events ++ [.begin] } = _ from hRun]
        dsimp only
        rw [List.append_assoc]
        exact .unshown hUnshown
      · obtain ⟨new, hEvents, hSent⟩ := engine.ask_bind_events
          (r := s.rendered) hUnshown QueryResult.decodeRows hNext
          { world with events := world.events ++ [.begin] }
        have hFetched : ((engine.fetch s.rendered >>= f).run.run { world with
            events := world.events ++ [.begin] }).2.events =
              world.events ++ [.begin] ++ .statement s.prepare :: new := hEvents
        obtain ⟨ending, hEnding, hAll⟩ := transaction_events hOpens hFetched
        rw [hAll]
        show PageEvents engine table world s.prepare
          (world.events ++ .begin :: .statement s.prepare :: (new ++ [ending]))
        refine .sent fun q hMem => ?_
        rcases List.mem_append.1 hMem with hNew | hLast
        · exact hSent q hNew
        · exact absurd (List.mem_singleton.1 hLast).symm (hEnding q)

/-- A list is refused and leaves everything as it is, or there is a SELECT for
it. -/
theorem select_run (table : Table) {params : Params}
    (hShown : ¬Sql.TestsUnshown params.filters) (world : World δ) :
    (∃ cause, (engine.select table params).run.run world =
      (.error (.invalid cause), world)) ∨
    ∃ s, Sql.select table params = .ok s ∧
      PageEvents engine table world s.prepare
        ((engine.select table params).run.run world).2.events := by
  have hInvalid : ∀ {e : Error}, (∃ cause, e = .invalid cause) →
      ∃ cause, ((.error e, world) : Result ReadResult × World δ) =
        (.error (.invalid cause), world) := by
    rintro e ⟨cause, rfl⟩
    exact ⟨cause, rfl⟩
  have hBuilds : OnlyRefuses (Sql.select table params) :=
    Sql.select_failsOnly (fun cause => ⟨cause, rfl⟩) table
      fun hTests => absurd hTests hShown
  have hTotals : OnlyRefuses (params.count.mapM (countPlan table params)) :=
    totalPlan_failsOnly (fun cause => ⟨cause, rfl⟩) table
      fun hTests => absurd hTests hShown
  unfold select
  rw [Sql.Builder.select_eq]
  cases hValid : params.validate table with
  | error e =>
      exact .inl (hInvalid (params.validate_onlyRefuses table e hValid))
  | ok checked =>
      cases hSelect : Sql.select table params with
      | error e => exact .inl (hInvalid (hBuilds e hSelect))
      | ok s =>
          cases hPlan : params.count.mapM (countPlan table params) with
          | error e => exact .inl (hInvalid (hTotals e hPlan))
          | ok plan =>
              have hTotal : Task.Sends
                  (fun q => ∃ params, IsTotal table params q)
                  (plan.mapM engine.runCount) :=
                engine.total_sends hPlan fun s hs => ⟨params, s, hs, rfl⟩
              exact .inr ⟨s, rfl, engine.transaction_pageEvents
                (fun rows => hTotal.bind fun total =>
                  .pure (ReadResult.mk rows total)) world⟩

/-- A page is answered with the status 400, or there is a SELECT for it, with
the bounds that are served for those that are read. -/
theorem answerPage_run (table : Table) (request : Request)
    {read : Request → Result Params} (hRead : OnlyRefuses (read request))
    (hShown : ∀ params, read request = .ok params → params.IsShown)
    (world : World δ)
    (hAccepted : replyStatus
      ((engine.answerPage table request read).run.run world).1 ≠ 400) :
    ∃ params p, read request = .ok params ∧
      p.EndsWith
        (engine.config.pagination.apply params.limit params.offset) ∧
      PageEvents engine table world p
        ((engine.answerPage table request read).run.run world).2.events := by
  unfold answerPage at hAccepted ⊢
  dsimp only at hAccepted ⊢
  cases hParams : read request with
  | error e =>
      obtain ⟨cause, rfl⟩ := hRead e hParams
      rw [hParams] at hAccepted
      exact absurd rfl hAccepted
  | ok params =>
      rw [hParams] at hAccepted
      have hFilters : ¬Sql.TestsUnshown (paginate engine.config.pagination
          params request.preferences).filters :=
        Sql.not_testsUnshown (hShown params hParams).filters
      rcases engine.select_run table hFilters world
        with ⟨cause, hRefused⟩ | ⟨s, hSelect, hEvents⟩
      · exact absurd (congrArg (fun run => replyStatus run.1)
          (Task.bind_run_error hRefused)) hAccepted
      · refine ⟨params, s.prepare, rfl,
          Sql.select_endsWith hSelect rfl rfl, ?_⟩
        have hSame := bind_lift_world (engine.select table
          (paginate engine.config.pagination params request.preferences))
          (fun page => Http.pageReply (paginate engine.config.pagination
            params request.preferences) page) world
        rw [← hSame] at hEvents
        exact hEvents

/-- Every list request that is accepted, by its query string or its body, has
a SELECT whose last values are the bounds of a page within the limits. It is
sent before any statement for the total, if anything is sent at all. A page
that is served would be served again, and more rows are served only to who
asks for more. -/
theorem pages_bounded (engine : Engine δ)
    (hSound : engine.config.pagination.Sound) :
    (∀ (request : Request) (route : Route) (segment : String)
        (world : World δ),
      engine.catalog.find request.method request.path =
          .route route segment →
        route.action = .list ∨ route.action = .query →
        ((engine.respond request).run world).1.status ≠ 400 →
        ∃ limit offset page p, Asks request route.action limit offset ∧
          page = engine.config.pagination.apply limit offset ∧
          engine.config.pagination.Serves limit offset page ∧
          p.EndsWith page ∧
          PageEvents engine route.table world p
            ((engine.respond request).run world).2.events) ∧
    (∀ limit offset, engine.config.pagination.apply
        (some (engine.config.pagination.apply limit offset).limit)
        (some (engine.config.pagination.apply limit offset).offset) =
      engine.config.pagination.apply limit offset) ∧
    ∀ (offset : Option Int) (m n : Int), m ≤ n →
      (engine.config.pagination.apply (some m) offset).limit ≤
        (engine.config.pagination.apply (some n) offset).limit := by
  refine ⟨fun request route segment world hRoute hLists hAccepted => ?_,
    Pagination.apply_apply _, fun offset m n => Pagination.apply_mono _ offset⟩
  obtain ⟨hStatus, hEvents, -⟩ :=
    engine.respond_run (Catalog.preflight?_of_find hRoute) world
  rw [hStatus, engine.handle_route hRoute] at hAccepted
  rw [hEvents, engine.handle_route hRoute]
  have hServes : ∀ {limit offset : Option Int},
      Asks request route.action limit offset →
        engine.config.pagination.Serves limit offset
          (engine.config.pagination.apply limit offset) := fun hAsks =>
    Pagination.serves_apply hSound hAsks.nonneg
  obtain ⟨table, action⟩ := route
  rcases hLists with rfl | rfl
  · obtain ⟨params, p, hRead, hEnds, hTrace⟩ :=
      engine.answerPage_run table request (Http.params_onlyRefuses request)
        (fun _ => Http.isShown_params) world hAccepted
    have hAsks := Asks.of_params hRead
    exact ⟨_, _, _, p, hAsks, rfl, hServes hAsks, hEnds, hTrace⟩
  · obtain ⟨params, p, hRead, hEnds, hTrace⟩ :=
      engine.answerPage_run table request
        (Http.documentParams_onlyRefuses request)
        (fun _ => Http.isShown_documentParams) world hAccepted
    have hAsks := Asks.of_documentParams hRead
    exact ⟨_, _, _, p, hAsks, rfl, hServes hAsks, hEnds, hTrace⟩

/-- An engine that serves five items in all. -/
def fiveItems : Engine Unit where
  catalog := { tables := [Sql.items] }
  config := { projectName := "items", pagination := { maxTotal := 5 } }
  database := rowless

/-- A request for seven items, after three others. -/
def sevenMore : Request where
  method := "GET"
  path := "/public/items"
  query := Encoding.Utf8.encode "limit=7&offset=3".toList

/-- Of seven items that are asked for two are left. -/
theorem pages_bounded_five :
    fiveItems.config.pagination.Sound ∧
      (∃ page p new, page = fiveItems.config.pagination.apply (some 7)
          (some 3) ∧
        fiveItems.config.pagination.Serves (some 7) (some 3) page ∧
        p.EndsWith page ∧
        ((fiveItems.respond sevenMore).run ⟨{}, (), []⟩).2.events =
          .begin :: .statement p :: new) ∧
      fiveItems.config.pagination.apply (some 2) (some 3) =
        fiveItems.config.pagination.apply (some 7) (some 3) ∧
      (fiveItems.config.pagination.apply (some 1) (some 3)).limit ≤
        (fiveItems.config.pagination.apply (some 7) (some 3)).limit := by
  have hSound : fiveItems.config.pagination.Sound :=
    ⟨by decide, by decide, by decide⟩
  obtain ⟨hPages, hAgain, hMore⟩ := pages_bounded fiveItems hSound
  obtain ⟨limit, offset, page, p, hAsks, hPage, hServes, hEnds, hEvents⟩ :=
    hPages sevenMore ⟨Sql.items, .list⟩ "" ⟨{}, (), []⟩
      (by decide +kernel) (.inl rfl) (by decide +kernel)
  obtain ⟨rfl, rfl⟩ : limit = some 7 ∧ offset = some 3 := by
    cases hAsks with
    | list hItems hLimit hOffset =>
        obtain rfl := Except.ok.inj (hItems.symm.trans (show
          sevenMore.items = .ok [("limit", "7"), ("offset", "3")] from
            Result.toOption_eq_some.1 (by decide +kernel)))
        exact ⟨(Except.ok.inj hLimit).symm, (Except.ok.inj hOffset).symm⟩
  obtain ⟨new, hSent⟩ : ∃ new,
      ((fiveItems.respond sevenMore).run ⟨{}, (), []⟩).2.events =
        .begin :: .statement p :: new := by
    generalize ((fiveItems.respond sevenMore).run ⟨{}, (), []⟩).2.events =
      events at hEvents ⊢
    cases hEvents with
    | sent => exact ⟨_, rfl⟩
    | unopened h => cases h
    | unshown h => exact absurd h.1 Bool.false_ne_true
  exact ⟨hSound, ⟨page, p, new, hPage, hServes, hEnds, hSent⟩,
    hAgain (some 7) (some 3), hMore (some 3) 1 7 (by decide)⟩

end Engine
end TableGate
