import Catalogue.Json.Basic

/-! Problems in the data of a request, by their places in it. -/

namespace Catalogue.Http

/-- A step on the way to a value: the name of a field, or a place in a list or a text. -/
inductive Place where
  | name (s : String)
  | index (n : Nat)
  deriving DecidableEq

def Place.toJson : Place → Json
  | .name s => .text s
  | .index n => .int n

/-- What is wrong with the value at a location: in words, and by the name of its kind. -/
structure Problem where
  location : List Place
  message : String
  kind : String
  deriving DecidableEq

def Problem.toJson (p : Problem) : Json :=
  .object [("loc", .list (p.location.map (·.toJson))), ("msg", .text p.message),
    ("type", .text p.kind)]

end Catalogue.Http
