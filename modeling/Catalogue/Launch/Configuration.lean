import Catalogue.Launch.Host
import Catalogue.Launch.Options
import Catalogue.Log.Logger
import Catalogue.Number.RealText
import Catalogue.Settings.File
import Catalogue.Store.Fault

/-! The configuration of a launch.  Each part comes from the command line where that gives it, else
from the settings, else from a default. -/

namespace Catalogue.Launch

open Number Text

/-- Why a time limit is none. -/
inductive TimeoutFault where
  | malformed (text : LooseText)
  | wrongKind (kind : String)
  | tooLarge
  deriving DecidableEq

def TimeoutFault.message : TimeoutFault → String
  | .malformed text => "could not convert string to float: " ++ text.quoted
  | .wrongKind kind =>
    "float() argument must be a string or a real number, not '" ++ kind ++ "'"
  | .tooLarge => "int too large to convert to float"

/-- Why a launch ends without a server. -/
inductive Fault where
  | stop (reason : Stop)
  | settings (e : Settings.Fault)
  | hostRefused (candidate : String)
  | hostNotText (kind : String)
  | portInfinite
  | home (e : HomeFault)
  /-- A name of a file has no form in bytes. -/
  | unnameable (e : LooseText.EncodeError)
  | logging (e : Log.LoggerFault)
  | workingDirNotText (kind : String)
  | timeout (e : TimeoutFault)
  | store (e : StoreFault)
  | unknownServerLevel (name : String)
  deriving DecidableEq

def Fault.message : Fault → String
  | .stop reason => natText reason.exitCode
  | .settings e => e.message
  | .hostRefused candidate => refusal candidate
  | .hostNotText kind => "'" ++ kind ++ "' object has no attribute 'strip'"
  | .portInfinite => IntegerFault.infinite.message
  | .home e => e.message
  | .unnameable e => e.message
  | .logging e => e.message
  | .workingDirNotText kind => "expected str, bytes or os.PathLike object, not " ++ kind
  | .timeout e => e.message
  | .store e => e.message
  | .unknownServerLevel name => quoted name

/-- Steps of a launch, which read and change a file tree. -/
abbrev Steps (α : Type) := EStateM Fault FileTree α

/-- Steps whose faults become faults of the launch. -/
def adapting {ε α : Type} (fault : ε → Fault) (steps : EStateM ε FileTree α) : Steps α :=
  fun tree =>
    match steps tree with
    | .ok a after => .ok a after
    | .error e after => .error (fault e) after

/-- The value of a computation whose faults become faults of the launch. -/
def computing {ε α : Type} (fault : ε → Fault) (result : Except ε α) : Steps α :=
  match result with
  | .ok a => return a
  | .error e => throw (fault e)

/-- An operation on the file tree. -/
def onDisk {α : Type} (operation : Disk α) : Steps α :=
  adapting (fun e => .settings (.path e)) operation

/-- What a fault on the way to the working directory is to a launch. -/
def Fault.ofWorkingDir : WorkingDir.Fault → Fault
  | .path e => .settings (.path e)
  | .unknownHome => .home .unknownUser

/-- The configuration of a launch. -/
structure Configuration where
  host : String
  port : Int
  origins : List Json
  database : LoosePath
  settings : Members

/-- The port where none is given. -/
def defaultPort : Int := 8080

/-- The origins where none are given. -/
def defaultOrigins : List Json := [.text "http://localhost", .text "http://127.0.0.1"]

/-- The value under a key of a section, where it is neither missing nor empty. -/
def given? (section_ : Members) (key : String) : Option Json :=
  match section_.get? key with
  | some value => if value.isTruthy then some value else none
  | none => none

/-- The address to bind for a host.  A half of a surrogate pair in it is shown as U+FFFD. -/
def hostFor (candidate : Json) : Except Fault String :=
  match candidate with
  | .string w =>
    match bindHost? w.patched with
    | some host => .ok host
    | none => .error (.hostRefused w.patched)
  | value => .error (.hostNotText value.kindName)

/-- The host of a launch. -/
def chooseHost (options : Options) (api : Members) : Except Fault String :=
  match options.host.filter (· ≠ "") with
  | some host => hostFor (.text host)
  | none => hostFor ((given? api "host").getD (.text defaultHost))

/-- The port of a launch; a setting that is no number counts as none. -/
def choosePort (options : Options) (api : Members) : Except Fault Int :=
  match options.port.filter (· ≠ 0) with
  | some port => .ok port
  | none =>
    match (given? api "port").map Json.toInteger with
    | none => .ok defaultPort
    | some (.ok port) => .ok port
    | some (.error .infinite) => .error .portInfinite
    | some (.error _) => .ok defaultPort

/-- The origins of a launch. -/
def chooseOrigins (options : Options) (api : Members) : List Json :=
  match options.origins with
  | some (origin :: origins) => (origin :: origins).map .text
  | _ =>
    match api.get? "cors_origins" with
    | some (.list (origin :: origins)) => origin :: origins
    | _ => defaultOrigins

/-- The database of a launch. -/
def chooseDatabase (env : Environment) (options : Options) (settings : Members) (dir : Path) :
    Except HomeFault LoosePath :=
  match options.database.filter (· ≠ "") with
  | some path => .ok (.ofText path)
  | none => Settings.databasePath env settings dir

/-- Finds the working directory, loads the settings and chooses each part of the configuration. -/
def configure (env : Environment) (options : Options) : Steps Configuration := do
  let dir ← adapting Fault.ofWorkingDir (WorkingDir.resolve env)
  onDisk (WorkingDir.ensureStructure dir)
  let settings ← adapting .settings (Settings.load env dir)
  let api := Settings.section? settings "api"
  let host ← computing id (chooseHost options api)
  let port ← computing id (choosePort options api)
  let database ← computing .home (chooseDatabase env options settings dir)
  return ⟨host, port, chooseOrigins options api, database, settings⟩

/-- A fault of the configuration that ends the launch with a message instead of with the fault. -/
def Fault.isRefusal : Fault → Bool
  | .hostRefused _ => true
  | .settings (.undecodable _) => true
  | .settings (.numeral (.tooLong _)) => true
  | .settings (.unencodable _) => true
  | .home .nullCharacter | .home (.unnameable _) => true
  | _ => false

/-- A time limit that is given is a number. -/
def checkTimeout (value : Json) : Except TimeoutFault Unit :=
  match value with
  | .bool _ | .real _ => .ok ()
  | .int n => if (Binary64.ofInt n).isFinite then .ok () else .error .tooLarge
  | .text s => if isRealText s then .ok () else .error (.malformed s)
  | .string w => .error (.malformed w)
  | value => .error (.wrongKind value.kindName)

end Catalogue.Launch
