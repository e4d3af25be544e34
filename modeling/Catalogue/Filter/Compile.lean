import Catalogue.Filter.Clause
import Catalogue.Text.Percent

/-! Reading a query from the text `key=value&key=value`, where keys and values are percent encoded.
Arguments are read from left to right, and the first one that offends refuses the text. -/

namespace Catalogue.Filter

open Number Text

/-- Why a text is no query. -/
inductive Rejection where
  | malformedArgument (segment : String)
  | undecodable
  | unknownKey (key : String)
  | unknownKind (word : String)
  | invalidDate (key text : String)
  | notNatural (key text : String)
  | outOfRange (key text : String)
  deriving DecidableEq

def Rejection.message : Rejection → String
  | .malformedArgument segment => "malformed filter argument " ++ quoted segment
  | .undecodable => "filter query is not valid percent-encoded UTF-8"
  | .unknownKey key => "unrecognized filter key " ++ quoted key
  | .unknownKind word => "unknown entry type " ++ quoted word
  | .invalidDate key text => "invalid date " ++ quoted text ++ " for " ++ key
  | .notNatural key text => key ++ " must be a non-negative integer, got " ++ quoted text
  | .outOfRange key text => key ++ " out of range: " ++ quoted text

/-- Why a text is not compiled: it is refused, or a number in it is too long to be read. -/
inductive CompileError where
  | rejected (cause : Rejection)
  | numeral (fault : IntegerFault)
  deriving DecidableEq

def CompileError.message : CompileError → String
  | .rejected cause => cause.message
  | .numeral fault => fault.message

/-- The largest offset of a page. -/
def maxOffset : Nat := Nat.pow 2 63 - 1

/-- The largest seed that a query may give. -/
def maxSeed : Nat := Nat.pow 2 64 - 1

/-- What an argument is about. -/
inductive Key where
  | contains (column : TextColumn)
  | author
  | holds (column : ListColumn)
  | category
  | kind
  | dated (column : DateColumn) (bound : Bound)
  | exceptional
  | offset
  | seed
  deriving DecidableEq

/-- The keys by name. -/
def Key.names : List (String × Key) :=
  [("link", .contains .link), ("title", .contains .title), ("description", .contains .description),
    ("category", .category), ("author", .author), ("authors", .author),
    ("themes", .holds .themes), ("works_mentioned", .holds .worksMentioned),
    ("tags", .holds .tags), ("type", .kind),
    ("published_between_from", .dated .published .atLeast),
    ("published_between_until", .dated .published .atMost),
    ("saved_between_from", .dated .saved .atLeast),
    ("saved_between_until", .dated .saved .atMost),
    ("exceptional", .exceptional), ("offset", .offset), ("seed", .seed)]

/-- The key with a name. -/
def Key.ofName? (name : String) : Option Key := names.lookup name

/-- The segments of a query text: what stands between the ampersands, empty ones left out. -/
def segments (text : String) : List String := (pieces '&' text).filter (· ≠ "")

/-- Decodes a key or a value. -/
def decodeText (raw : String) : Except CompileError String :=
  (Percent.decode raw).mapError fun _ => .rejected .undecodable

/-- The key and the value of a segment. -/
def readPair (segment : String) : Except CompileError (String × String) :=
  match cut? '=' segment with
  | none => .error (.rejected (.malformedArgument segment))
  | some (key, value) => do return (← decodeText key, ← decodeText value)

/-- Reads a number written in ASCII digits, up to `limit`. -/
def readNatural (name value : String) (limit : Nat) : Except CompileError Nat :=
  let cs := value.toList
  if cs.isEmpty || !cs.all isAsciiDigit then .error (.rejected (.notNatural name value))
  else if digitLimit < cs.length then .error (.numeral (.tooLong cs.length))
  else if limit < digitsValue cs then .error (.rejected (.outOfRange name value))
  else .ok (digitsValue cs)

/-- What an argument does to a query: it adds clauses, or sets the offset or the seed. -/
inductive Argument where
  | clauses (added : List Clause)
  | offset (n : Nat)
  | seed (n : Nat)
  deriving DecidableEq

/-- The argument with the key `key`, which is called `name`, and a value. -/
def Key.argument (key : Key) (name value : String) : Except CompileError Argument :=
  match key with
  | .contains column => .ok (.clauses [.contains column value])
  | .author => .ok (.clauses [.holds .authors value])
  | .holds column => .ok (.clauses ((pieces FieldList.bar value).map (.holds column)))
  | .category => .ok (.clauses [.inCategory value])
  | .kind =>
    match Kind.ofToken? value with
    | some named => .ok (.clauses [.ofKind named])
    | none => .error (.rejected (.unknownKind value))
  | .dated column bound =>
    match Date.parse? value with
    | some date => .ok (.clauses [.dated column bound date])
    | none => .error (.rejected (.invalidDate name value))
  | .exceptional => .ok (.clauses [.exceptional (value == "true")])
  | .offset => (readNatural name value maxOffset).map .offset
  | .seed => (readNatural name value maxSeed).map .seed

/-- The argument that a pair gives. -/
def readArgument (pair : String × String) : Except CompileError Argument :=
  match Key.ofName? pair.1 with
  | some key => key.argument pair.1 pair.2
  | none => .error (.rejected (.unknownKey pair.1))

/-- The query after an argument. -/
def Argument.apply (q : Query) : Argument → Query
  | .clauses added => { q with clauses := q.clauses ++ added }
  | .offset n => { q with offset := n }
  | .seed n => { q with seed := some n }

/-- The query after a segment. -/
def addSegment (q : Query) (segment : String) : Except CompileError Query := do
  let argument ← readArgument (← readPair segment)
  return argument.apply q

/-- Reads a query. -/
def compile (text : String) : Except CompileError Query := (segments text).foldlM addSegment .all

end Catalogue.Filter
