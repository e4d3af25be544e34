import Catalogue.Json.Inspect

/-! Levels of log records: numbers, some of which have names, and truth values, which count as one
and zero.  A logger takes a level by its value or by its name. -/

namespace Catalogue.Log

open Number Text

/-- The named levels. -/
def levelNames : List (String × Int) :=
  [("CRITICAL", 50), ("FATAL", 50), ("ERROR", 40), ("WARNING", 30), ("WARN", 30), ("INFO", 20),
    ("DEBUG", 10), ("NOTSET", 0)]

/-- A level by its value. -/
inductive Level where
  | number (n : Int)
  | flag (b : Bool)
  deriving DecidableEq

namespace Level

/-- The number that a level counts as. -/
def rank : Level → Int
  | .number n => n
  | .flag b => if b then 1 else 0

def toJson : Level → Json
  | .number n => .int n
  | .flag b => .bool b

/-- The name of a level; one without a name is called by its value. -/
def name (level : Level) : String :=
  match levelNames.find? (·.2 == level.rank) with
  | some (name, _) => name
  | none => "Level " ++ level.toJson.inspect

end Level

/-- The level of a logger that no level is set for. -/
def defaultLevel : Int := 30

/-- Why a value is no level. -/
inductive LevelFault where
  | unknown (name : LooseText)
  | wrongKind (value : String)
  deriving DecidableEq

def LevelFault.message : LevelFault → String
  | .unknown name => "Unknown level: " ++ name.quoted
  | .wrongKind value => "Level not an integer or a valid string: " ++ value

/-- The level that a value gives. -/
def readLevel (value : Json) : Except LevelFault Level :=
  match value with
  | .int n => .ok (.number n)
  | .bool b => .ok (.flag b)
  | .string w =>
    match w.sound?.bind (List.lookup · levelNames) with
    | some n => .ok (.number n)
    | none => .error (.unknown w)
  | _ => .error (.wrongKind value.inspect)

end Catalogue.Log
