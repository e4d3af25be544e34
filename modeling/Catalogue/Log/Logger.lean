import Catalogue.File.WorkingDir
import Catalogue.Log.Level
import Catalogue.Log.Record

/-! Loggers that write their records to files, a line for each record.  Configuring a logger for a
working directory gives it a handler on the log file there, unless it has one under that name. -/

namespace Catalogue.Log

open Number Text

/-- A logger: its level, the files of its handlers, and whether it passes records on. -/
structure Logger where
  name : String
  level : Level
  files : List Path
  propagates : Bool

/-- Why a logger is not configured or does not take a record. -/
inductive LoggerFault where
  | path (e : PathFault)
  | level (e : LevelFault)
  | reserved (name : String)
  | levelNotInteger
  | unknownHome
  deriving DecidableEq

def LoggerFault.message : LoggerFault → String
  | .path e => e.message
  | .level e => e.message
  | .reserved name => quoted ("Attempt to overwrite " ++ quoted name ++ " in LogRecord")
  | .levelNotInteger => "level must be an integer"
  | .unknownHome => HomeFault.unknownUser.message

/-- The name of the logger above all others. -/
def rootName : String := "root"

namespace Logger

/-- A logger before it is configured. -/
def fresh (name : String) : Logger :=
  if name = "" ∨ name = rootName then ⟨rootName, .number defaultLevel, [], true⟩
  else ⟨name, .number 0, [], true⟩

/-- The least level of the records that a logger takes. -/
def threshold (l : Logger) : Int :=
  if l.level.rank = 0 ∧ l.name ≠ rootName then defaultLevel else l.level.rank

/-- A logger takes records of a level. -/
def takes (l : Logger) (level : Level) : Bool :=
  decide (0 < level.rank) && decide (l.threshold ≤ level.rank)

/-- A logger with a handler on a log file, and the file made where it is missing.  A handler has the
path of its file without `..`, and is found again under that path alone. -/
def addFile (l : Logger) (file : Path) : Disk Logger := do
  if l.files.any (·.text == file.text) then return l
  let opened := file.normalise (← get).here
  Disk.append opened []
  return { l with files := l.files ++ [opened] }

/-- An operation on files inside one that may fail otherwise too. -/
def onDisk {α : Type} (operation : Disk α) : EStateM LoggerFault FileTree α := fun tree =>
  match operation tree with
  | .ok a after => .ok a after
  | .error e after => .error (.path e) after

/-- The search for a working directory on the way to a logger. -/
def resolving {α : Type} (steps : WorkingDir.Steps α) : EStateM LoggerFault FileTree α :=
  fun tree =>
    match steps tree with
    | .ok a after => .ok a after
    | .error (.path e) after => .error (.path e) after
    | .error .unknownHome after => .error .unknownHome after

/-- Configures a logger for a working directory. -/
def configure (l : Logger) (dir : Path) (level : Json) : EStateM LoggerFault FileTree Logger := do
  onDisk (Disk.makeDirectories (WorkingDir.logsDir dir))
  match readLevel level with
  | .error e => throw (.level e)
  | .ok level => do
    let l ← onDisk ({ l with level := level }.addFile (WorkingDir.logFile dir))
    return { l with propagates := false }

/-- The record of a call. -/
def record (l : Logger) (level : Level) (template : Json) (arguments : List Json)
    (extras : Members) : Except LoggerFault Record :=
  match extras.findSome? fun m => reservedAttributes.find? fun r => .sound r == m.1 with
  | some name => .error (.reserved name)
  | none => .ok {
      name := .text l.name
      level := .text level.name
      template := template
      arguments := .ofCall arguments
      exception := none
      extras := extras.map fun m => (m.1, .json m.2) }

/-- Writes a record to the files of a logger; one whose template cannot be filled or whose line has
no UTF-8 form is dropped. -/
def emit (l : Logger) (time : Binary64) (r : Record) : Disk Unit :=
  match (r.line time).toOption.bind fun line => (line ++ "\n").encode.toOption with
  | none => return
  | some bytes => l.files.forM fun file => do
    let _ ← Disk.attempt (Disk.append file bytes)

/-- Logs a message, if the logger takes its level. -/
def log (l : Logger) (time : Binary64) (level : Level) (template : Json)
    (arguments : List Json) (extras : Members) : EStateM LoggerFault FileTree Unit := do
  if !l.takes level then return
  match l.record level template arguments extras with
  | .error e => throw e
  | .ok r => onDisk (l.emit time r)

end Logger

end Catalogue.Log
