import Catalogue.Json.Basic

/-! Requests and responses. -/

namespace Catalogue.Http

open Text

/-- A request: its path is decoded, its query is not; the names of its headers are in small letters,
and their values are read byte by byte. -/
structure Request where
  method : String
  path : String
  query : String
  headers : List (String × String)
  body : List UInt8

/-- What a response carries. -/
inductive Content where
  | empty
  | text (s : String)
  | json (value : Json)

structure Response where
  status : Nat
  headers : List (String × String)
  content : Content

namespace Request

/-- The value of a header. -/
def header? (r : Request) (name : String) : Option String := r.headers.lookup name

end Request

namespace Response

/-- A response with a JSON value. -/
def json (status : Nat) (value : Json) : Response := ⟨status, [], .json value⟩

/-- A response with a text. -/
def text (status : Nat) (s : String) : Response := ⟨status, [], .text s⟩

/-- A response without content. -/
def empty (status : Nat) : Response := ⟨status, [], .empty⟩

/-- A response that says what is wrong. -/
def error (status : Nat) (message : String) : Response :=
  json status (.object [("error", .text message)])

/-- A response that says why there is nothing to ask. -/
def detail (status : Nat) (message : String) : Response :=
  json status (.object [("detail", .text message)])

/-- The response with a header set. -/
def withHeader (r : Response) (name value : String) : Response :=
  { r with headers := r.headers.filter (·.1 != name) ++ [(name, value)] }

/-- The type of a content. -/
def contentType? : Content → Option String
  | .empty => none
  | .text _ => some "text/plain; charset=utf-8"
  | .json _ => some "application/json"

/-- All headers of a response, its type included. -/
def allHeaders (r : Response) : List (String × String) :=
  ((contentType? r.content).map fun type => ("content-type", type)).toList ++ r.headers

end Response

end Catalogue.Http
