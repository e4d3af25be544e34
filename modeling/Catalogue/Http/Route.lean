import Catalogue.Http.Framework
import Catalogue.Text.Percent

/-! Routes: what the paths of the server lead to, and with which methods. -/

namespace Catalogue.Http

open Text

inductive Route where
  | entries
  | entry (id : String)
  | categories
  | vocabulary (v : Vocabulary)
  /-- The documentation, which is served by other means. -/
  | documentation
  deriving DecidableEq

namespace Route

/-- The routes with a fixed path. -/
def fixed : List (String × Route) :=
  [("/openapi.json", .documentation), ("/docs", .documentation),
    ("/docs/oauth2-redirect", .documentation), ("/redoc", .documentation),
    (Endpoint.entriesPath, .entries), (Endpoint.listCategories.path, .categories)]
    ++ Vocabulary.all.map fun v => ((Endpoint.listVocabulary v).path, .vocabulary v)

/-- What stands before the number in the path of an entry. -/
def entryStart : List Char := (Endpoint.entryPath "").toList

/-- A path without an end of line at its end. -/
def withoutNewline (path : String) : String :=
  let cs := path.toList
  if cs.getLast? = some '\n' then String.ofList cs.dropLast else path

/-- The route of a path. -/
def ofPath? (path : String) : Option Route :=
  match fixed.lookup (withoutNewline path) with
  | some route => some route
  | none =>
    let cs := path.toList
    let id := cs.drop entryStart.length
    if entryStart.isPrefixOf cs && !id.isEmpty && !id.contains '/' then
      some (.entry (String.ofList id))
    else none

/-- The endpoint of a route for a method. -/
def endpoint? (route : Route) (method : String) : Option Endpoint :=
  match route, method with
  | .entries, "GET" => some .listEntries
  | .entries, "POST" => some .createEntry
  | .entry id, "GET" => some (.showEntry id)
  | .entry id, "PUT" => some (.replaceEntry id)
  | .entry id, "DELETE" => some (.deleteEntry id)
  | .categories, "GET" => some .listCategories
  | .vocabulary v, "GET" => some (.listVocabulary v)
  | _, _ => none

/-- A path without the slashes at its end, or with one where it has none. -/
def otherForm (path : String) : String :=
  let cs := path.toList
  if cs.getLast? = some '/' then String.ofList (cs.reverse.dropWhile (· == '/')).reverse
  else path ++ "/"

/-- A path in an address: a question mark or a number sign would end it. -/
def inAddress (path : String) : String := (path.replace "?" "%3F").replace "#" "%23"

/-- The address to ask instead, where the other form of a path has a route; `origin` is where the
server is found. -/
def redirection? (origin : String) (r : Request) : Option String :=
  let path := otherForm r.path
  if r.path ≠ "/" ∧ (ofPath? path).isSome then
    let query := if r.query = "" then "" else "?" ++ r.query
    some (Percent.encodeAddress (origin ++ inAddress path ++ query))
  else none

/-- The response to a method that a route does not have. -/
def wrongMethod : Response := (Response.detail 405 "Method Not Allowed").withHeader "allow" "GET"

/-- The endpoint that a request is for. -/
def find (origin : String) (r : Request) : Except Response Endpoint :=
  match ofPath? r.path with
  | some route =>
    match route.endpoint? r.method with
    | some endpoint => .ok endpoint
    | none => .error wrongMethod
  | none =>
    match redirection? origin r with
    | some address => .error ((Response.empty 307).withHeader "location" address)
    | none => .error (.detail 404 "Not Found")

end Route

end Catalogue.Http
