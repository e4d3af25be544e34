import Catalogue.Number.Numeral

/-! Options on a command line.  A long option may be cut short as long as one option alone begins
like it; its value follows an equals sign or is the next word.  Words that start with a dash are
options, unless they are a dash alone, a negative number, or hold a space. -/

namespace Catalogue.Launch

open Number Text

/-- The options of a launch. -/
structure Options where
  host : Option String
  port : Option Int
  database : Option String
  origins : Option (List String)
  jsonLogs : Bool

/-- Why there are no options: help is asked for, or the line is not understood. -/
inductive Stop where
  | help
  | usage
  deriving DecidableEq

def Stop.exitCode : Stop → Nat
  | .help => 0
  | .usage => 2

inductive Switch where
  | help
  | host
  | port
  | database
  | origin
  | jsonLogs
  deriving DecidableEq

/-- The switches by name. -/
def Switch.names : List (String × Switch) :=
  [("-h", .help), ("--help", .help), ("--host", .host), ("--port", .port), ("--db", .database),
    ("--cors", .origin), ("--json-logs", .jsonLogs)]

def Switch.ofName? (name : String) : Option Switch := names.lookup name

/-- A switch has a value. -/
def Switch.takesValue : Switch → Bool
  | .help | .jsonLogs => false
  | _ => true

/-- What a word on the line is. -/
inductive Word where
  | value (text : String)
  | terminator
  | switch (s : Switch) (name : String) (attached : Option String)
  | unknown

/-- A negative number. -/
def isNegativeNumber (cs : List Char) : Bool :=
  let isDigit (c : Char) : Bool := (digitValue? c).isSome
  match cs with
  | '-' :: body =>
    let body := if body.getLast? = some '\n' then body.dropLast else body
    let whole := body.takeWhile isDigit
    match body.dropWhile isDigit with
    | [] => !whole.isEmpty
    | '.' :: fraction => !fraction.isEmpty && fraction.all isDigit
    | _ => false
  | _ => false

/-- The switches that a word may stand for: those whose names it begins, or for a word with a single
dash also the one that its first letter names, with the rest of it attached. -/
def candidates (word : String) : List (Switch × String × Option String) :=
  let cs := word.toList
  if cs.take 2 = ['-', '-'] then
    let (start, attached) := match cut? '=' word with
      | some (start, value) => (start, some value)
      | none => (word, none)
    Switch.names.filterMap fun (name, switch) =>
      if name.startsWith start then some (switch, name, attached) else none
  else
    Switch.names.filterMap fun (name, switch) =>
      if name.toList = cs.take 2 then some (switch, name, some (String.ofList (cs.drop 2)))
      else if name.startsWith word then some (switch, name, none)
      else none

/-- The switch that a word names in full, with the value behind its equals sign. -/
def fullMatch? (word : String) : Option Word :=
  match Switch.ofName? word with
  | some switch => some (.switch switch word none)
  | none =>
    match cut? '=' word with
    | some (name, value) => (Switch.ofName? name).map fun switch => .switch switch name (some value)
    | none => none

/-- What a word is; a word that may stand for two switches is not understood. -/
def classify (word : String) : Except Stop Word :=
  let cs := word.toList
  if cs.head? ≠ some '-' then .ok (.value word)
  else match fullMatch? word with
    | some found => .ok found
    | none =>
      if cs.length = 1 then .ok (.value word)
      else match candidates word with
        | [] =>
          if isNegativeNumber cs || cs.contains ' ' then .ok (.value word) else .ok .unknown
        | [(switch, name, attached)] => .ok (.switch switch name attached)
        | _ => .error .usage

/-- What the words of a line are; after two dashes alone every word is a value. -/
def classifyAll : List String → Except Stop (List Word)
  | [] => .ok []
  | word :: words =>
    if word = "--" then .ok (.terminator :: words.map .value)
    else do return (← classify word) :: (← classifyAll words)

/-- The options after a switch that takes no value. -/
def Options.flag (o : Options) : Switch → Except Stop Options
  | .help => .error .help
  | .jsonLogs => .ok { o with jsonLogs := true }
  | _ => .ok o

/-- The options after a switch with a value. -/
def Options.set (o : Options) (switch : Switch) (value : String) : Except Stop Options :=
  match switch with
  | .host => .ok { o with host := some value }
  | .port =>
    match readInteger value with
    | .ok n => .ok { o with port := some n }
    | .error _ => .error .usage
  | .database => .ok { o with database := some value }
  | .origin => .ok { o with origins := some (o.origins.getD [] ++ [value]) }
  | _ => .ok o

/-- What a value attached to a switch without values means: after a single letter it is taken for
more letters, of which help is the only one that is understood. -/
def stopFor (name attached : String) : Stop :=
  if name = "-h" ∧ attached ≠ "" ∧ attached.toList.all (· == 'h') then .help else .usage

/-- Goes through the words; `extra` tells that one was of no use. -/
def readWords (o : Options) (extra : Bool) : List Word → Except Stop Options
  | [] => if extra then .error .usage else .ok o
  | .value _ :: words | .terminator :: words | .unknown :: words => readWords o true words
  | .switch s name (some attached) :: words =>
    if s.takesValue then do readWords (← o.set s attached) extra words
    else .error (stopFor name attached)
  | .switch s _ none :: words =>
    if s.takesValue then
      match words with
      | .value text :: words => do readWords (← o.set s text) extra words
      | _ => .error .usage
    else do readWords (← o.flag s) extra words

/-- Reads the words of a command line. -/
def readOptions (words : List String) : Except Stop Options := do
  readWords ⟨none, none, none, none, false⟩ false (← classifyAll words)

end Catalogue.Launch
