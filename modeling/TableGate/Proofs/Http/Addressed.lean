import TableGate.Proofs.Http.Service
import TableGate.Proofs.Sql.Target

/-!
# The table a request addresses

The first two segments of a path are a schema and a table, and nothing else in
a request says which table is meant. Every statement that is sent for a request
names that table and no other, and the table is one of the catalog.

A collection is also found when a line break follows its path, so the segments
are those of the path without the break.

## Main results

* `Route.segments_eq`: the first two segments of a path that a route takes.
* `Engine.requests_addressed`: what is sent for requests, one after the other,
  is about the tables they address.
* `Engine.addressed_past_break`: a path that ends in a line break.
-/

namespace TableGate

open Http (Request Response)
open Sql (PreparedStatement Statement Command OnlyQualified)
open TableGate.Task (Sends)
open Result (bind_eq_ok pure_eq_ok)

/-! ## Paths -/

/-- A path without the line break that it ends in, if it does. -/
def withoutBreak (cs : List Char) : List Char :=
  if cs.getLast? = some '\n' then cs.dropLast else cs

/-- The segments of a path, each after its slash. -/
def pathSegments (cs : List Char) : List (List Char) :=
  (Text.splitOn '/' cs).drop 1

/-- A line break is taken from the end. -/
theorem withoutBreak_append {front tail : List Char}
    (h : front.getLast? ≠ some '\n') :
    withoutBreak (front ++ tail) = front ++ withoutBreak tail := by
  cases tail with
  | nil =>
      rw [List.append_nil, withoutBreak, if_neg h]
      exact (List.append_nil front).symm
  | cons c rest =>
      have hSome : c :: rest ≠ [] := List.cons_ne_nil c rest
      rw [withoutBreak, withoutBreak, List.getLast?_append_of_ne_nil _ hSome,
        List.dropLast_append_of_ne_nil hSome]
      split <;> rfl

/-- Two names at the start of a path are its first segments. -/
theorem take_pathSegments {schema name tail : List Char}
    (hSchema : '/' ∉ schema) (hName : '/' ∉ name)
    (hTail : tail = [] ∨ ∃ rest, tail = '/' :: rest) :
    (pathSegments ('/' :: (schema ++ '/' :: (name ++ tail)))).take 2 =
      [schema, name] := by
  have hFirst : Text.splitOn '/' ('/' :: (schema ++ '/' :: (name ++ tail))) =
      [] :: schema :: Text.splitOn '/' (name ++ tail) := by
    rw [← List.nil_append ('/' :: _), Text.splitOn_append_cons
      List.not_mem_nil, Text.splitOn_append_cons hSchema]
  rw [pathSegments, hFirst]
  rcases hTail with rfl | ⟨rest, rfl⟩
  · rw [List.append_nil, Text.splitOn_of_not_mem hName]
    rfl
  · rw [Text.splitOn_append_cons hName]
    rfl

namespace Route

variable {route : Route} {path segment : String}

/-- What a route takes past the names of its table, less a line break at the
end, is nothing or begins with a slash. -/
theorem exists_tail (h : route.segment? path = some segment) :
    ∃ tail, path.toList = '/' :: (route.table.schema.toList ++
        '/' :: (route.table.name.toList ++ tail)) ∧
      (withoutBreak tail = [] ∨ ∃ rest, withoutBreak tail = '/' :: rest) := by
  unfold segment? at h
  split at h
  · cases h
  · next rest hPrefix =>
      have hPath := List.isPrefixOf?_eq_some_iff_append_eq.1 hPrefix
      refine ⟨route.action.suffix.toList ++ rest, ?_, ?_⟩
      · rw [← hPath, stem]
        simp
      · split at h
        · next hSingle =>
            have hSuffix : route.action.suffix.toList = ['/'] := by
              cases hAction : route.action <;> rw [hAction] at hSingle <;>
                first | rfl | exact absurd hSingle (by decide)
            rw [hSuffix, withoutBreak_append (by decide)]
            exact .inr ⟨_, rfl⟩
        · next hCollection =>
            split at h
            · next hEnd =>
                cases route.action <;> rcases hEnd with rfl | rfl <;>
                  first
                    | exact .inl (by decide)
                    | exact .inr ⟨_, rfl⟩
            · cases h

/-- The first two segments of a path that a route takes are the schema and the
name of its table, where these are names. -/
theorem segments_eq (h : route.segment? path = some segment)
    {schema name : Identifier} (hSchema : schema.text = route.table.schema)
    (hName : name.text = route.table.name) :
    (pathSegments (withoutBreak path.toList)).take 2 =
      [route.table.schema.toList, route.table.name.toList] := by
  obtain ⟨tail, hPath, hTail⟩ := exists_tail h
  rw [← hSchema, ← hName] at hPath ⊢
  have hFront : ('/' :: schema.text.toList ++ '/' :: name.text.toList).getLast?
      ≠ some '\n' := by
    intro hBreak
    rw [List.getLast?_append_of_ne_nil _ (List.cons_ne_nil _ _),
      List.getLast?_cons_of_ne_nil name.toList_ne_nil] at hBreak
    exact name.notMem_text (by decide) (List.mem_of_getLast? hBreak)
  have hSplit : path.toList =
      ('/' :: schema.text.toList ++ '/' :: name.text.toList) ++ tail := by
    rw [hPath]
    simp
  have hFirst := take_pathSegments (schema.notMem_text (c := '/') (by decide))
    (name.notMem_text (by decide)) hTail
  rw [hSplit, withoutBreak_append hFront, ← hFirst]
  simp

end Route

/-- The routes are those of the tables. -/
theorem Catalog.mem_tables_of_mem_routes {catalog : Catalog} {route : Route}
    (h : route ∈ catalog.routes) : route.table ∈ catalog.tables := by
  obtain ⟨router, hRouter, hRoute⟩ := List.mem_flatMap.1 h
  obtain ⟨schema, -, rfl⟩ := List.mem_map.1 hRouter
  obtain ⟨table, hTable, hRoute⟩ := List.mem_flatMap.1 hRoute
  obtain ⟨action, -, rfl⟩ := List.mem_map.1 hRoute
  exact (List.mem_filter.1 hTable).1

/-! ## Requests -/

/-- A statement is about the table that a request addresses: the first two
segments of its path, less a line break at the end, are the schema and the name
of a table of the catalog, and this is the one table that is named. -/
def Addressed (catalog : Catalog) (request : Request)
    (p : PreparedStatement) : Prop :=
  ∃ table ∈ catalog.tables,
    (pathSegments (withoutBreak request.path.toList)).take 2 =
      [table.schema.toList, table.name.toList] ∧
    OnlyQualified table.schema table.name p.sql

namespace Engine

variable {δ : Type} (engine : Engine δ)

/-- A statement that is made around the table of a route is about the table
that the path addresses. -/
theorem addressed_of_aims {request : Request} {route : Route}
    {segment : String} {s : Statement}
    (hRoute : engine.catalog.find request.method request.path =
      .route route segment) (h : Sql.Aims route.table s.pieces) :
    Addressed engine.catalog request s.prepare := by
  obtain ⟨hMem, -, hSegment⟩ := Catalog.fits_of_find hRoute
  obtain ⟨target, -, -, hTarget, -⟩ := id h
  obtain ⟨schema, hSchema, hTarget⟩ := bind_eq_ok.1 hTarget
  obtain ⟨name, hName, -⟩ := bind_eq_ok.1 hTarget
  exact ⟨route.table, Catalog.mem_tables_of_mem_routes hMem,
    Route.segments_eq hSegment (Sql.identifier_eq_ok hSchema)
      (Sql.identifier_eq_ok hName), h.onlyQualified⟩

/-- What is sent for one request is about the table it addresses. -/
theorem handle_addressed (request : Request) :
    Sends (Addressed engine.catalog request) (engine.handle request) := by
  cases hFind : engine.catalog.find request.method request.path with
  | route route segment =>
      rw [engine.handle_route hFind]
      exact engine.answer_sends route segment request fun command s hs =>
        engine.addressed_of_aims hFind (Command.aims hs)
  | methodNotAllowed =>
      rw [handle, hFind]
      exact .pure _
  | notFound =>
      rw [handle, hFind]
      exact .pure _

/-- Answer requests one after the other. -/
def serve (requests : List Request) : StateM (World δ) (List Response) :=
  requests.mapM engine.respond

/-- The first request is answered, and the others where it leaves the world. -/
theorem serve_cons (request : Request) (others : List Request)
    (world : World δ) :
    (engine.serve (request :: others)).run world =
      (((engine.respond request).run world).1 ::
          ((engine.serve others).run ((engine.respond request).run world).2).1,
        ((engine.serve others).run
          ((engine.respond request).run world).2).2) := by
  rw [serve, List.mapM_cons]
  rfl

/-- Whatever requests are answered one after the other, everything that is sent
for one of them is about the table that it addresses: the trace falls into one
part for each request, the parts of the first requests being what these leave
behind. -/
theorem requests_addressed (requests : List Request) (world : World δ) :
    ∃ parts : List (List Event),
      (∀ n, ((engine.serve (requests.take n)).run world).2.events =
        world.events ++ (parts.take n).flatten) ∧
      List.Forall₂ (fun request new => ∀ p, .statement p ∈ new →
        Addressed engine.catalog request p) requests parts := by
  induction requests generalizing world with
  | nil =>
      refine ⟨[], fun n => ?_, .nil⟩
      rw [List.take_nil, List.take_nil]
      exact (List.append_nil world.events).symm
  | cons request others ih =>
      obtain ⟨new, hEvents, hSent⟩ :=
        engine.respond_sends (engine.handle_addressed request) world
      obtain ⟨parts, hLater, hOthers⟩ :=
        ih ((engine.respond request).run world).2
      refine ⟨new :: parts, fun n => ?_, .cons hSent hOthers⟩
      cases n with
      | zero => exact (List.append_nil world.events).symm
      | succ n =>
          rw [List.take_succ_cons, List.take_succ_cons, serve_cons, hLater,
            hEvents, List.append_assoc, List.flatten_cons]

/-- An engine that serves items. -/
def servedItems : Engine Unit where
  catalog := { tables := [Sql.items] }
  config := { projectName := "items" }
  database := rowless

/-- A request for items, with a line break after the path. -/
def brokenPath : Request where
  method := "GET"
  path := "/public/items\n"

/-- A path that ends in a line break leads to the items, although its second
segment is not the name of a table. -/
theorem addressed_past_break :
    (pathSegments brokenPath.path.toList).take 2 =
        ["public".toList, "items\n".toList] ∧
      (∀ table ∈ servedItems.catalog.tables, table.name ≠ "items\n") ∧
      ∃ p, .statement p ∈
          ((servedItems.respond brokenPath).run ⟨{}, (), []⟩).2.events ∧
        p.sql = "SELECT * FROM \"public\".\"items\" LIMIT :p1 OFFSET :p2" ∧
        ¬OnlyQualified "public" "items\n" p.sql := by
  have hSent : Event.statement
      ⟨"SELECT * FROM \"public\".\"items\" LIMIT :p1 OFFSET :p2",
        [("p1", .int 25), ("p2", .int 0)]⟩ ∈
      ((servedItems.respond brokenPath).run ⟨{}, (), []⟩).2.events := by
    decide +kernel
  refine ⟨by decide +kernel, by decide, _, hSent, rfl, ?_⟩
  -- The text has no line break, and the name in question has one.
  rintro ⟨before, after, hAt, -⟩
  have hMem : '\n' ∈ before ++ '\x22' :: ("public".toList ++ '\x22' ::
      ('.' :: '\x22' :: ("items\n".toList ++ '\x22' :: after))) := by
    simp
  rw [← hAt.quoted.text_eq] at hMem
  exact absurd hMem (by decide +kernel)

end Engine
end TableGate
