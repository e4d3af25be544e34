import Catalogue.Json.Basic

/-! The kinds of entries and the measure that comes with each: a number of pages, or a length in
seconds. -/

namespace Catalogue

open Number

inductive Kind where
  | article
  | paper
  | book
  | video
  | audio
  deriving DecidableEq

/-- What the measure of an entry counts. -/
inductive Measure where
  | pages
  | seconds
  deriving DecidableEq

def Measure.name : Measure → String
  | .pages => "pages"
  | .seconds => "length_in_seconds"

namespace Kind

/-- The kinds in the order of their numbers. -/
def all : List Kind := [.article, .paper, .book, .video, .audio]

/-- The number that stands for a kind in storage. -/
def index : Kind → Nat
  | .article => 0
  | .paper => 1
  | .book => 2
  | .video => 3
  | .audio => 4

/-- The word for a kind. -/
def token : Kind → String
  | .article => "article"
  | .paper => "paper"
  | .book => "book"
  | .video => "video"
  | .audio => "audio"

def measure : Kind → Measure
  | .video | .audio => .seconds
  | _ => .pages

/-- The kind that a word names. -/
def ofToken? (word : String) : Option Kind := all.find? (·.token == word)

/-- The kind with a number. -/
def ofIndex? (n : Int) : Option Kind := all.find? fun k => (k.index : Int) == n

end Kind

/-- A kind with its measure. -/
structure EntryType where
  kind : Kind
  amount : Int
  deriving DecidableEq

/-- Why two stored values are no kind with its measure. -/
inductive TypeFault where
  | numeral (fault : IntegerFault)
  | unknownKind (index : Int)
  deriving DecidableEq

def TypeFault.message : TypeFault → String
  | .numeral fault => fault.message
  | .unknownKind index => intText index ++ " is not a valid EntryKind"

namespace EntryType

/-- Reads a kind's number and its measure from stored values; an empty measure is zero. -/
def ofStored (index amount : Json) : Except TypeFault EntryType := do
  let n ← index.toInteger.mapError .numeral
  match Kind.ofIndex? n with
  | none => throw (.unknownKind n)
  | some kind =>
    let amount ← (if amount.isTruthy then amount.toInteger else .ok 0).mapError .numeral
    return ⟨kind, amount⟩

end EntryType

end Catalogue
