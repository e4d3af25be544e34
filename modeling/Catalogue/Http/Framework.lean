import Catalogue.Http.Draft
import Catalogue.Http.Message
import Catalogue.Http.Problem
import Catalogue.Store.Database

/-! The web framework that a server stands on.  It finds the endpoint that a request is for, reads
the data that the endpoint declares, writes responses, and answers by itself what no endpoint is
asked.  How it does so is left open: a server can be built on every framework. -/

namespace Catalogue.Http

/-- What a server can be asked for; the number in a path is still a text. -/
inductive Endpoint where
  | listEntries
  | createEntry
  | showEntry (id : String)
  | replaceEntry (id : String)
  | deleteEntry (id : String)
  | listCategories
  | listVocabulary (v : Vocabulary)
  deriving DecidableEq

namespace Endpoint

/-- The path of the entries. -/
def entriesPath : String := "/api/texts"

/-- The path of a single entry. -/
def entryPath (id : String) : String := entriesPath ++ "/" ++ id

/-- The path for which an endpoint is declared. -/
def path : Endpoint → String
  | .listEntries | .createEntry => entriesPath
  | .showEntry id | .replaceEntry id | .deleteEntry id => entryPath id
  | .listCategories => "/api/categories"
  | .listVocabulary v => "/api/" ++ v.name

/-- The method for which an endpoint is declared. -/
def method : Endpoint → String
  | .createEntry => "POST"
  | .replaceEntry _ => "PUT"
  | .deleteEntry _ => "DELETE"
  | _ => "GET"

/-- The status with which an endpoint answers that it succeeded. -/
def success : Endpoint → Nat
  | .replaceEntry _ | .deleteEntry _ => 204
  | _ => 200

end Endpoint

/-- What a framework makes of the data for an endpoint: a value, a list of problems, or a response
of its own, by which the endpoint is passed over. -/
inductive Received (α : Type) where
  | valid (a : α)
  | invalid (problems : List Problem)
  | refused (response : Response)

/-- The pages that may ask, by their origins, and the methods with which they may. -/
structure OriginRules where
  origins : List String
  methods : List String

/-- A web framework. -/
structure Framework where
  /-- The query in the address of a request; nothing where the address cannot be read. -/
  query? : Request → Option String
  /-- The endpoint that a request is for, or the response where it is for none. -/
  find : Request → Except Response Endpoint
  /-- The number in a path. -/
  readId : String → Received Int
  /-- The draft in the body of a request. -/
  readDraft : Request → Received Draft
  /-- The draft in the body of a request, and the number in its path. -/
  readIdAndDraft : Request → String → Received (Int × Draft)
  /-- The response to a browser that asks beforehand for the page of another origin. -/
  preflight? : OriginRules → Request → Option Response
  /-- A response, marked for the page of another origin that asked. -/
  mark : OriginRules → Request → Response → Response
  /-- The bytes that stand for a JSON value in the body of a response. -/
  render : Json → List UInt8
  /-- How deep the lists and objects of a body may be nested. -/
  nestingLimit : Nat
  /-- The response where a fault escapes. -/
  crash : Response

end Catalogue.Http
