import Catalogue.Http.FormBody
import Catalogue.Http.Origin
import Catalogue.Http.Route
import Catalogue.Json.Parser
import Catalogue.Json.Printer
import Catalogue.Text.Wide

/-! The framework that serves in practice: how it takes a request apart, checks the data in it, and
answers by itself. -/

namespace Catalogue.Http

open Number Text

namespace Request

/-- The request for a target: a path, and a query after the first question mark. -/
def ofTarget (method target : String) (headers : List (String × String)) (body : List UInt8) :
    Request :=
  let (path, query) := (cut? '?' target).getD (target, "")
  ⟨method, Percent.decodeLenient path, query,
    headers.map fun h => (String.ofList (h.1.toList.map Char.toLower), Utf8.bytewise h.2), body⟩

/-- Where the server was found: at the host that the request names, or else at `origin`. -/
def foundAt (origin : String) (r : Request) : String :=
  match r.header? "host" with
  | some host => "http://" ++ host
  | none => origin

/-- The brackets of the host, around an IPv6 address, come in pairs. -/
def hasReadableHost (r : Request) : Bool :=
  match r.header? "host" with
  | some host => host.toList.contains '[' == host.toList.contains ']'
  | none => true

/-- The query in the address of the request: without tabs and ends of lines, and up to a number
sign. -/
def query? (r : Request) : Option String :=
  if r.hasReadableHost then
    let cs := r.query.toList.filter fun c => c != '\t' && c != '\n' && c != '\r'
    some (String.ofList (cs.takeWhile (· != '#')))
  else none

/-- The body is declared as JSON. -/
def declaresJson (r : Request) : Bool :=
  match r.header? "content-type" with
  | none => false
  | some declared =>
    let type := trim ((cut? ';' declared).getD (declared, "")).1
    match pieces '/' (String.ofList (type.toList.map Char.toLower)) with
    | [main, sub] => main == "application" && (sub == "json" || sub.endsWith "+json")
    | _ => false

end Request

/-- The value of a check, or its problems. -/
def Received.ofChecked {α : Type} : Checked α → Received α
  | .ok a => .valid a
  | .error problems => .invalid problems

namespace Standard

/-- The number of an entry in a path. -/
def readId (id : String) : Checked Int :=
  Checked.at_ [.name "path", .name "entry_id"] (integerOfText id)

/-- What the body of a request holds. -/
inductive BodyData where
  | absent
  | value (v : Json)
  | malformed (position : Nat)
  | unreadable

/-- Reads the body of a request; one that is not declared as JSON is no object. -/
def readBody (nestingLimit : Nat) (r : Request) : BodyData :=
  if r.body.isEmpty then .absent
  else if !r.declaresJson then .value .null
  else match Wide.decode? r.body with
    | none => .unreadable
    | some text =>
      match Json.parseWithin nestingLimit text with
      | .ok v => .value v
      | .error (.malformed position) => .malformed position
      | .error _ => .unreadable

/-- The draft in the data of a body. -/
def draftIn : BodyData → Checked Draft
  | .value v => readDraft v
  | _ => Checked.complain [.name "body"] .missing

/-- What is received of a request with a body.  One that is no JSON is the only problem that is
reported, and one that cannot be read is refused, whatever else the request holds. -/
def receive {α : Type} (nestingLimit : Nat) (r : Request) (read : Checked Draft → Checked α) :
    Received α :=
  match readBody nestingLimit r with
  | .malformed position =>
    .ofChecked (Checked.complain [.name "body", .index position] .notJson)
  | .unreadable => .refused (.detail 400 "There was an error parsing the body")
  | body => .ofChecked (read (draftIn body))

end Standard

/-- The framework on a server that is found at `origin`, with room for bodies that are nested so
deep. -/
def Framework.standard (origin : String) (nestingLimit : Nat) : Framework where
  query? := Request.query?
  find r := Route.find (r.foundAt origin) r
  readId id := .ofChecked (Standard.readId id)
  readDraft r := Standard.receive nestingLimit r id
  readIdAndDraft r id :=
    Standard.receive nestingLimit r (Checked.ap ((Standard.readId id).map Prod.mk))
  preflight? := OriginRules.preflight?
  mark := OriginRules.mark
  render v := Utf8.encode v.print
  nestingLimit := nestingLimit
  crash := .text 500 "Internal Server Error"

end Catalogue.Http
