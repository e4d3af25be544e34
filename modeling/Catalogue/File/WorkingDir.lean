import Catalogue.File.Environment
import Catalogue.File.Tree
import Catalogue.Number.Numeral
import Catalogue.Text.Utf8

/-! The working directory of the catalogue.  The candidates are the directory that a variable names
and one below the home directory; the first one that can be written to is taken, and else one where
the program is installed. -/

namespace Catalogue.WorkingDir

open Number Text

def dataDir (dir : Path) : Path := dir.child "data"

def databasePath (dir : Path) : Path := (dataDir dir).child "archive.db"

def logsDir (dir : Path) : Path := dir.child "logs"

def logFile (dir : Path) : Path := (logsDir dir).child "archive.log.jsonl"

/-- The places of the settings, in the order of the search. -/
def settingsFiles (env : Environment) (dir : Path) : List Path :=
  [dir.child "settings.json", env.project.child "settings.json"]

/-- The name of the directory where the variable gives none. -/
def defaultName : String := ".content-archive"

/-- The variable that names the working directory. -/
def homeVariable : String := "CONTENT_ARCHIVE_HOME"

/-- The file that is written to find out whether a directory can be written to. -/
def probe (env : Environment) (dir : Path) : Path :=
  dir.child (".write_test_" ++ natText env.processId)

/-- Writes a probe in a directory and takes it away again.  Where that fails, one more attempt is
made to take it away. -/
def tryProbe (env : Environment) (dir : Path) : Disk Bool := do
  let tried ← Disk.attempt do
    Disk.writeOn env.device (probe env dir) (Utf8.encode "ok")
    Disk.removeFrom env.device (probe env dir)
  if tried.isSome then return true
  let _ ← Disk.attempt (Disk.removeFrom env.device (probe env dir))
  return false

/-- Makes a directory and its place for data, if a probe can be written there and taken away. -/
def prepare (env : Environment) (dir : Path) : Disk Bool := do
  if (← Disk.attempt (Disk.makeDirectories dir)).isNone then return false
  if !(← tryProbe env dir) then return false
  return (← Disk.attempt (Disk.makeDirectories (dataDir dir))).isSome

/-- Why there is no working directory. -/
inductive Fault where
  | path (e : PathFault)
  | unknownHome
  deriving DecidableEq

def Fault.message : Fault → String
  | .path e => e.message
  | .unknownHome => HomeFault.unknownUser.message

/-- Steps on a file tree on the way to a working directory. -/
abbrev Steps (α : Type) := EStateM Fault FileTree α

/-- An operation on the tree. -/
def onDisk {α : Type} (operation : Disk α) : Steps α := fun tree =>
  match operation tree with
  | .ok a after => .ok a after
  | .error e after => .error (.path e) after

/-- The directories that are tried; nothing stands for one below a home directory that is not
known. -/
def candidates (env : Environment) (here : List String) : List (Option Path) :=
  let named := match env.get? homeVariable with
    | none => []
    | some s =>
      if s = "" then []
      else [some ((Path.ofText (env.expandVariables (env.expandHome s))).resolve here)]
  let home? := ((Path.ofText "~").expandHome env).toOption
  named ++ [home?.map (·.child defaultName)]

/-- Takes the first of some directories that can be prepared. -/
def firstPrepared (env : Environment) : List (Option Path) → Steps (Option Path)
  | [] => return none
  | none :: _ => throw .unknownHome
  | some dir :: others => do
    if (← onDisk (prepare env dir)) then return some dir
    firstPrepared env others

/-- Finds the working directory and makes it where it is missing. -/
def resolve (env : Environment) : Steps Path := do
  match (← firstPrepared env (candidates env (← get).here)) with
  | some dir => return dir
  | none => do
    let dir := env.project.child defaultName
    onDisk (Disk.makeDirectories dir)
    onDisk (Disk.makeDirectories (dataDir dir))
    return dir

/-- Makes a working directory with its parts. -/
def ensureStructure (dir : Path) : Disk Unit := do
  Disk.makeDirectories dir
  Disk.makeDirectories (dataDir dir)
  Disk.makeDirectories (logsDir dir)

end Catalogue.WorkingDir
