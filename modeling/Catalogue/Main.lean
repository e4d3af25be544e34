import Catalogue.Launch.Run
import Std.Time.DateTime.Timestamp

/-! The command line.  The files that a launch may look at are read into a tree, the launch runs on
that tree, and what it changed is written back. -/

namespace Catalogue.CommandLine

open Launch Number Text

/-- The names of the variables in a text. -/
def variableNames (s : String) : List String :=
  ((pieces '$' s).drop 1).filterMap fun piece => (Environment.variableAt? piece.toList).map (·.1)

/-- A file of the system as lines; none where it cannot be read. -/
def readLines (path : String) : IO (List String) := do
  try
    return pieces '\n' (← IO.FS.readFile path)
  catch _ => return []

/-- The users of this system: their names, numbers and home directories. -/
def readUsers : IO (List (String × String × String)) := do
  return (← readLines "/etc/passwd").filterMap fun line =>
    match pieces ':' line with
    | [name, _, number, _, _, home, _] => some (name, number, home)
    | _ => none

/-- The number of the user who runs this process. -/
def readUserNumber? : IO (Option String) := do
  return (← readLines "/proc/self/status").findSome? fun line =>
    match pieces '\t' line with
    | "Uid:" :: number :: _ => some number
    | _ => none

/-- The environment of this process. -/
def readEnvironment : IO Environment := do
  let named := (← IO.getEnv WorkingDir.homeVariable).getD ""
  let mut bindings := []
  for name in ["HOME", WorkingDir.homeVariable] ++ variableNames named do
    if let some value ← IO.getEnv name then bindings := bindings ++ [(name, value)]
  let now := (← Std.Time.Timestamp.now).toMillisecondsSinceUnixEpoch.val
  let users ← readUsers
  let own ← readUserNumber?
  return {
    bindings := bindings
    project := .ofText (← IO.appDir).toString
    processId := ← IO.monoNanosNow
    clock := .ofDecimal (now < 0) now.natAbs (-3)
    users := users.map fun (name, _, home) => (name, home)
    ownHome := users.findSome? fun (_, number, home) =>
      if some number = own then some home else none
    nestingLimit := 991 }

/-- What stands at a place. -/
def readNode? (place : List String) : IO (Option Node) := do
  try
    return some (.file (← IO.FS.readBinFile (Path.ofPlace place).text).toList)
  catch
    | .noFileOrDirectory .. => return none
    | _ => return some .directory

/-- The tree with what stands at the places from `above` on down the names `below`. -/
def readAlong (tree : FileTree) (above : List String) : (below : List String) → IO FileTree
  | [] => return tree
  | name :: below => do
    let place := above ++ [name]
    match (← readNode? place) with
    | none => return tree
    | some node => readAlong (tree.put place node) place below

/-- The paths below a working directory that a launch reads. -/
def readPaths (dir : Path) : List Path :=
  [WorkingDir.dataDir dir, WorkingDir.logFile dir,
    (WorkingDir.logsDir dir).child "settings_unknown.json", dir.child "settings.json"]

/-- The tree with what stands on the way to some paths. -/
def readTree (tree : FileTree) (paths : List Path) : IO FileTree :=
  paths.foldlM (fun tree path => readAlong tree [] (path.place tree.here)) tree

/-- The tree that a launch starts from. -/
def startTree (env : Environment) (words : List String) : IO FileTree := do
  let here := (Path.ofText (← IO.currentDir).toString).names
  let fallback := env.project.child WorkingDir.defaultName
  let tree ← readTree ⟨here, []⟩
    (env.project.child "settings.json" ::
      ((WorkingDir.candidates env here).filterMap id ++ [fallback]).flatMap readPaths)
  match (readOptions words).map (configure env · tree) with
  | .ok (.ok c _) => readTree tree [c.database.path]
  | _ => return tree

/-- Writes the nodes that a launch changed. -/
def writeChanges (before after : FileTree) : IO Unit :=
  for (place, node) in after.nodes do
    if before.node? place != some node then
      let path := (Path.ofPlace place).text
      match node with
      | .directory => IO.FS.createDirAll path
      | .sealed => pure ()
      | .file bytes => IO.FS.writeBinFile path ⟨bytes.toArray⟩
      | .database => if (before.node? place).isNone then IO.FS.writeBinFile path .empty

/-- Launches the program, and gives its exit code. -/
def launch (words : List String) : IO UInt32 := do
  let env ← readEnvironment
  let tree ← startTree env words
  match run {} env words tree with
  | .ok outcome after => do
    writeChanges tree after
    IO.eprint outcome.errors
    IO.print outcome.output
    return outcome.exitCode.toUInt32
  | .error (.stop reason) _ => return reason.exitCode.toUInt32
  | .error e after => do
    writeChanges tree after
    IO.eprintln e.message
    return 1

end Catalogue.CommandLine

def main (words : List String) : IO UInt32 := Catalogue.CommandLine.launch words
