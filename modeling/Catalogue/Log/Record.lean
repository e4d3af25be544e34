import Catalogue.Json.Printer
import Catalogue.Log.Template

/-! Log records, and the line of JSON that one makes: the time, the level, the name, the message, an
exception where there is one, and the further attributes of the record. -/

namespace Catalogue.Log

open Number Text

/-- Why JSON does not write a value of a kind that it can write. -/
inductive DumpFault where
  /-- The value holds itself. -/
  | circular
  /-- The value is nested deeper than the writer goes. -/
  | tooDeep
  deriving DecidableEq

def DumpFault.message : DumpFault → String
  | .circular => "Circular reference detected"
  | .tooDeep => "maximum recursion depth exceeded while encoding a JSON object"

/-- An attribute of a record: a value that JSON writes, one of a kind that it cannot write, or one
at which it breaks off. -/
inductive Attribute where
  | json (value : Json)
  | unwritable
  | failing (fault : DumpFault) (kind : String)

/-- The name of the kind of an attribute. -/
def Attribute.kindName : Attribute → String
  | .json value => value.kindName
  | .unwritable => "object"
  | .failing _ kind => kind

/-- An exception as it is reported: its kind and its text, below the lines of the traceback and of
the exceptions that it came from, and above its notes. -/
structure ExceptionNote where
  above : List String
  kind : String
  text : String
  below : List String

/-- The exception of a record: one that was raised, or the mark of a call that was to tell of an
exception where none was there. -/
inductive ExceptionInfo where
  | raised (note : ExceptionNote)
  | empty

def ExceptionInfo.report : ExceptionInfo → String
  | .raised e =>
    let last := if e.text = "" then e.kind else e.kind ++ ": " ++ e.text
    join "\n" (e.above ++ last :: e.below)
  | .empty => "NoneType: None"

structure Record where
  name : Json
  level : Json
  template : Json
  arguments : Arguments
  exception : Option ExceptionInfo
  /-- The further attributes, in order. -/
  extras : List (LooseText × Attribute)

/-- The attributes that every record has. -/
def standardAttributes : List String :=
  ["name", "msg", "args", "levelname", "levelno", "pathname", "filename", "module", "exc_info",
    "exc_text", "stack_info", "lineno", "funcName", "created", "msecs", "relativeCreated",
    "thread", "threadName", "processName", "process"]

/-- The attributes that no caller may set: those of every record, and two that are filled in when a
record is written. -/
def reservedAttributes : List String := standardAttributes ++ ["message", "asctime"]

/-- There are arguments to fill a template with. -/
def Arguments.isEmpty : Arguments → Bool
  | .values items => items.isEmpty
  | .mapping members => members.isEmpty

/-- The arguments of a call: a single object that is not empty is a mapping. -/
def Arguments.ofCall (items : List Json) : Arguments :=
  match items with
  | [.object (m :: members)] => .mapping (m :: members)
  | items => .values items

/-- Why a record makes no line. -/
inductive RecordFault where
  | template (e : TemplateFault)
  | dump (e : DumpFault)

def RecordFault.message : RecordFault → String
  | .template e => e.message
  | .dump e => e.message

namespace Record

/-- The attribute under which a record makes its message; an attribute of this name takes its place,
and makes none. -/
def messageMaker : String := "getMessage"

/-- The message: the template, filled where there are arguments. -/
def message (r : Record) : Except TemplateFault LooseText :=
  match r.extras.lookup (.sound messageMaker) with
  | some maker => .error (.notCallable maker.kindName)
  | none =>
    if r.arguments.isEmpty then .ok r.template.display
    else fillTemplate r.template.display.patched r.arguments

/-- An attribute stands in the line under its own name. -/
def isShown (name : LooseText) : Bool :=
  name.patched.toList.head? != some '_' && !reservedAttributes.any fun r => .sound r == name

/-- The line with the further attributes after its members. -/
def addExtras (line : Members) : List (LooseText × Attribute) → Except DumpFault Members
  | [] => .ok line
  | (name, content) :: extras =>
    if !isShown name || line.has name then addExtras line extras
    else match content with
      | .json value => addExtras (line ++ [(name, value)]) extras
      | .unwritable => addExtras line extras
      | .failing fault _ => .error fault

/-- The members of the line that a record makes at a time. -/
def members (r : Record) (time : Binary64) : Except RecordFault Members := do
  let head : Members := [("ts", .real time), ("level", r.level), ("name", r.name),
    ("message", .string (← r.message.mapError .template))]
  let exception : Members :=
    (r.exception.map fun e => (LooseText.sound "exc_info", Json.text e.report)).toList
  (addExtras (head ++ exception) r.extras).mapError .dump

/-- The line that a record makes at a time. -/
def line (r : Record) (time : Binary64) : Except RecordFault LooseText := do
  return (Json.object (← r.members time)).line

end Record

end Catalogue.Log
