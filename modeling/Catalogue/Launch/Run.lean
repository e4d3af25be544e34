import Catalogue.Launch.Configuration
import Catalogue.Store.Basic

/-! A launch from the command line: configure, set up the logs, open the store, announce the server
and serve, then close the store. -/

namespace Catalogue.Launch

open Number Text

/-- What is handed to the server. -/
structure Serving where
  host : String
  port : Int
  logLevel : String
  accessLog : Bool

/-- What a launch leaves: its exit code, what was served, and what it wrote to the console. -/
structure Outcome where
  exitCode : Nat
  served : List Serving
  output : String
  errors : String

/-- The levels that the server knows. -/
def serverLevels : List String := ["critical", "error", "warning", "info", "debug", "trace"]

/-- The name of the logger that all parts of the program pass their records to. -/
def loggerName : String := "archive"

/-- The name under which the store logs. -/
def storeLoggerName : String := "archive.store"

/-- A line on the console. -/
def consoleLine (level : Log.Level) (name message : String) : String :=
  "[" ++ level.name ++ "] " ++ name ++ ": " ++ message ++ "\n"

/-- Where the records of a launch go: those below a level nowhere, the others to files, if there are
any, and else to the console. -/
structure Logs where
  level : Log.Level
  files : Option Log.Logger

/-- The level of the records that say what the store does. -/
def infoLevel : Log.Level := .number 20

/-- The level of the record of an error that ends the launch. -/
def errorLevel : Log.Level := .number 40

/-- Logs a message of the store; gives what is written to the console. -/
def Logs.note (logs : Logs) (env : Environment) (message : String) : Steps String := do
  if infoLevel.rank < logs.level.rank then return ""
  match logs.files with
  | none => return consoleLine infoLevel storeLoggerName message
  | some logger => do
    let record : Log.Record :=
      ⟨.text storeLoggerName, .text infoLevel.name, .text message, .values [], none, []⟩
    onDisk (logger.emit env.clock record)
    return ""

/-- What is written to the console of an error that ends the launch. -/
def Logs.error (logs : Logs) (message : String) : String :=
  if errorLevel.rank < logs.level.rank then "" else consoleLine errorLevel Log.rootName message

/-- The name of the level in the settings. -/
def levelSetting (settings : Members) : LooseText :=
  ((given? (Settings.section? settings "logging") "level").getD (.text "INFO")).display.mapSound
    toUpper

/-- Sets up the logs of a launch. -/
def setUpLogs (options : Options) (settings : Members) : Steps Logs := do
  let name := levelSetting settings
  let level ← computing (fun e => .logging (.level e)) (Log.readLevel (.string name))
  if !(options.jsonLogs || (given? (Settings.section? settings "logging") "json").isSome) then
    return ⟨level, none⟩
  match (settings.get? "working_dir").getD .null with
  | .string dir => do
    let dir := LoosePath.ofText dir
    if let some e := dir.unnameable then throw (.unnameable e)
    let logger ← adapting .logging
      ((Log.Logger.fresh loggerName).configure dir.path (.string name))
    return ⟨level, some logger⟩
  | value => throw (.workingDirNotText value.kindName)

/-- Announces and serves; gives what is handed to the server. -/
def serve (c : Configuration) : Except Fault Serving :=
  let level := toLower (levelSetting c.settings).patched
  if serverLevels.contains level then .ok ⟨c.host, c.port, level, false⟩
  else .error (.unknownServerLevel level)

/-- The line that announces the server. -/
def announcement (c : Configuration) : String :=
  "API listening on http://" ++ c.host ++ ":" ++ intText c.port ++ " (database: "
    ++ c.database.path.text ++ ")\n"

/-- Refuses a database whose name has no form in bytes.  The directories above it are made before,
unless the fault is in the name of one of them. -/
def checkDatabase (database : LoosePath) : Steps Unit := do
  if let some e := database.unnameable then
    if database.path.parent.text.length ≤ e.position then
      adapting (fun e => .store (.path e)) (Disk.makeDirectories database.path.parent)
    throw (.unnameable e)

/-- Opens the store, serves and closes the store. -/
def runServer (circumstances : Circumstances) (env : Environment) (c : Configuration)
    (logs : Logs) : Steps Outcome := do
  checkDatabase c.database
  match (Store.new c.database.path).open_ (← get) circumstances with
  | (.error (.storage e), tree) => do
    set tree
    return ⟨1, [], "", logs.error e.message⟩
  | (.error e, tree) => do
    set tree
    throw (.store e)
  | (.ok _, tree) => do
    set tree
    let before ← logs.note env ("Opened entry store at " ++ c.database.path.text)
    let served := serve c
    let after ← logs.note env ("Closed entry store at " ++ c.database.path.text)
    return ⟨0, [← computing id served], announcement c, before ++ after⟩

/-- Launches the program with the words of its command line. -/
def run (circumstances : Circumstances) (env : Environment) (words : List String) :
    Steps Outcome := do
  let options ← computing .stop (readOptions words)
  let tree ← get
  match configure env options tree with
  | .error e tree => do
    set tree
    if e.isRefusal then return ⟨2, [], "", "[ERROR] " ++ e.message ++ "\n"⟩
    throw e
  | .ok c tree => do
    set tree
    let logs ← setUpLogs options c.settings
    match given? (Settings.section? c.settings "database") "timeout_s" with
    | none => runServer circumstances env c logs
    | some value => do
      computing .timeout (checkTimeout value)
      runServer circumstances env c logs

end Catalogue.Launch
