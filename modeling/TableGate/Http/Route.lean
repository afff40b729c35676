import TableGate.Table

/-!
# Routes

Every table has the same routes: five on its collection of rows, at
`/schema/name`, and, when its primary key is a single column, three on single
rows, at `/schema/name/key`. The routes of one schema form a router, and the
routers stand in the order in which their schemas first occur in the catalog.

A request goes to the first route whose path and method fit. A path that fits
only with other methods is told apart from one that fits nowhere. The path of a
collection may end in one line break; a key is any segment that is not empty.

## Main results

* `Catalog.findRoute?_fits`: a route that is found takes the path and the
  method.
-/

namespace TableGate

/-- What a route does. -/
inductive Action
  | list
  | query
  | create
  | update
  | delete
  | getOne
  | updateOne
  | deleteOne
deriving DecidableEq, Repr

namespace Action

/-- The actions on the rows of a table together. -/
def collection : List Action := [list, query, create, update, delete]

/-- The actions on a single row. -/
def single : List Action := [getOne, updateOne, deleteOne]

/-- Whether an action is on a single row. -/
def isSingle (action : Action) : Bool := single.contains action

/-- The methods of an action. -/
def methods : Action → List String
  | list | getOne => ["GET"]
  | query | create => ["POST"]
  | update => ["PATCH"]
  | updateOne => ["PATCH", "PUT"]
  | delete | deleteOne => ["DELETE"]

/-- What follows the name of the table in the path. -/
def suffix : Action → String
  | list | create | update | delete => ""
  | query => "/query"
  | getOne | updateOne | deleteOne => "/"

/-- What an action does to a table, in words. -/
def summary (action : Action) (table : String) : String :=
  match action with
  | list => "List " ++ table ++ " rows"
  | query => "Query " ++ table ++ " rows"
  | create => "Insert or upsert " ++ table ++ " rows"
  | update => "Update matching " ++ table ++ " rows"
  | delete => "Delete matching " ++ table ++ " rows"
  | getOne => "Get one " ++ table ++ " row"
  | updateOne => "Update one " ++ table ++ " row"
  | deleteOne => "Delete one " ++ table ++ " row"

end Action

/-- A route: an action on a table. -/
structure Route where
  table : Table
  action : Action
deriving DecidableEq, Repr

namespace Route

/-- The fixed part of the path. -/
def stem (route : Route) : String :=
  "/" ++ route.table.schema ++ "/" ++ route.table.name ++ route.action.suffix

/-- The path as it is shown, with a place for the key of a single row. -/
def pattern (route : Route) : String :=
  route.stem ++ if route.action.isSingle then "\x7bid\x7d" else ""

/-- The segment of a path past the fixed part: the key of a single row, and
nothing for a collection. -/
def segment? (route : Route) (path : String) : Option String :=
  match route.stem.toList.isPrefixOf? path.toList with
  | none => none
  | some rest =>
      if route.action.isSingle then
        if rest = [] ∨ '/' ∈ rest then none else some (.ofList rest)
      else if rest = [] ∨ rest = ['\n'] then some ""
      else none

end Route

/-- Whether single rows of a table can be addressed. -/
def Table.hasSingleKey (table : Table) : Bool := table.primaryKey.length == 1

/-- The routes of a table. -/
def Table.routes (table : Table) : List Route :=
  let actions :=
    if table.hasSingleKey then Action.collection ++ Action.single
    else Action.collection
  actions.map (Route.mk table)

/-- The routes of a schema. -/
structure Router where
  schema : String
  routes : List Route
deriving DecidableEq, Repr

namespace Router

/-- The start of every path of a router. -/
def stem (router : Router) : String := "/" ++ router.schema

/-- The tags of a router. -/
def tags (router : Router) : List String := [Text.upper router.schema]

end Router

/-- Where a request goes. -/
inductive Destination
  | route (route : Route) (segment : String)
  | methodNotAllowed
  | notFound
deriving DecidableEq, Repr

namespace Catalog

/-- The schemas of the catalog, each at its first occurrence. -/
def schemas (catalog : Catalog) : List String :=
  (catalog.tables.map (·.schema)).eraseDups

/-- The tables of a schema. -/
def tablesOf (catalog : Catalog) (schema : String) : List Table :=
  catalog.tables.filter fun table => table.schema == schema

/-- The routers, one for each schema. -/
def routers (catalog : Catalog) : List Router :=
  catalog.schemas.map fun schema =>
    ⟨schema, (catalog.tablesOf schema).flatMap Table.routes⟩

/-- All routes, in the order in which they are tried. -/
def routes (catalog : Catalog) : List Route :=
  catalog.routers.flatMap (·.routes)

/-- The first route that takes a path and a method, with the segment of the
path. -/
def findRoute? (routes : List Route) (method path : String) :
    Option (Route × String) :=
  routes.findSome? fun route =>
    if route.action.methods.contains method then
      (route.segment? path).map (route, ·)
    else none

/-- Where a request goes. -/
def find (catalog : Catalog) (method path : String) : Destination :=
  match findRoute? catalog.routes method path with
  | some (route, segment) => .route route segment
  | none =>
      if catalog.routes.any fun route => (route.segment? path).isSome then
        .methodNotAllowed
      else .notFound

theorem findRoute?_fits {routes : List Route} {route : Route}
    {method path segment : String}
    (h : findRoute? routes method path = some (route, segment)) :
    route ∈ routes ∧ method ∈ route.action.methods ∧
      route.segment? path = some segment := by
  obtain ⟨r, hMem, hFit⟩ := List.exists_of_findSome?_eq_some h
  split at hFit
  · rename_i hMethod
    obtain ⟨s, hSegment, hPair⟩ := Option.map_eq_some_iff.1 hFit
    cases hPair
    exact ⟨hMem, by simpa using hMethod, hSegment⟩
  · simp at hFit

end Catalog
end TableGate
