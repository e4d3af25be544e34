import Catalogue.File.LoosePath
import Catalogue.File.WorkingDir
import Catalogue.Json.Parser
import Catalogue.Json.Printer
import Catalogue.Settings.Defaults
import Catalogue.Settings.Schema

/-! Settings on disk.  They are read from the first of the candidate files that holds a JSON object,
and written with a line for each member. -/

namespace Catalogue.Settings

open Number Text

/-- Why settings are not read or written. -/
inductive Fault where
  | path (e : PathFault)
  | undecodable (e : Utf8.DecodeError)
  | numeral (e : IntegerFault)
  | tooDeep (kind : String)
  | unencodable (e : LooseText.EncodeError)
  /-- Values to set hold a name that has another meaning there. -/
  | nameTwice (name : String)
  deriving DecidableEq

def Fault.message : Fault → String
  | .path e => e.message
  | .undecodable e => e.message
  | .numeral e => e.message
  | .tooDeep kind => Json.tooDeepMessage kind
  | .unencodable e => e.message
  | .nameTwice name => "update_settings() got multiple values for argument " ++ quoted name

/-- Operations on settings that read and change a file tree. -/
abbrev FileSteps (α : Type) := EStateM Fault FileTree α

/-- An operation on the tree. -/
def onDisk {α : Type} (operation : Disk α) : FileSteps α := fun tree =>
  match operation tree with
  | .ok a after => .ok a after
  | .error e after => .error (.path e) after

/-- The value of a computation that may meet a number which is no integer. -/
def counting {α : Type} (result : Except IntegerFault α) : FileSteps α :=
  match result with
  | .ok a => return a
  | .error e => throw (.numeral e)

/-- The JSON object in a file; nothing where its text is no JSON or another value. -/
def readObject? (nestingLimit : Nat) (bytes : List UInt8) : Except Fault (Option Members) :=
  match Utf8.decode bytes with
  | .error e => .error (.undecodable e)
  | .ok cs =>
    match Json.parseWithin nestingLimit (.sound (String.ofList cs)) with
    | .ok value => .ok value.members?
    | .error (.malformed _) => .ok none
    | .error (.integerTooLong digits) => .error (.numeral (.tooLong digits))
    | .error (.tooDeep kind) => .error (.tooDeep kind)

/-- The object in the first of some files that can be read and holds one, and an empty object where
there is none. -/
def readFirst (nestingLimit : Nat) : List Path → FileSteps Members
  | [] => return []
  | file :: others => do
    match (← onDisk (Disk.attempt (Disk.read file))) with
    | none => readFirst nestingLimit others
    | some bytes =>
      match readObject? nestingLimit bytes with
      | .error e => throw e
      | .ok (some members) => return members
      | .ok none => readFirst nestingLimit others

/-- The bytes of pieces of text up to the first one that has no UTF-8 form, and what is wrong with
that one. -/
def encodePieces : List LooseText → List UInt8 × Option LooseText.EncodeError
  | [] => ([], none)
  | piece :: pieces =>
    match piece.encode with
    | .error e => ([], some e)
    | .ok bytes =>
      let (more, e) := encodePieces pieces
      (bytes ++ more, e)

/-- Writes a value into a file, as far as it has a UTF-8 form; `strict` tells that a file which
cannot be written is a failure. -/
def writeValue (strict : Bool) (file : Path) (value : Json) : FileSteps Unit := do
  let (bytes, e) := encodePieces value.linePieces
  let written ← onDisk (if strict then some <$> Disk.write file bytes
    else Disk.attempt (Disk.write file bytes))
  if let (some _, some e) := (written, e) then throw (.unencodable e)

/-- The file that names the unknown keys. -/
def reportFile (dir : Path) : Path := (WorkingDir.logsDir dir).child "settings_unknown.json"

/-- Reports the unknown keys of settings, if there are any. -/
def reportUnknown (env : Environment) (dir : Path) (settings : Members) : FileSteps Unit := do
  let unknown := unknownKeys schema settings
  if unknown.isEmpty then return
  onDisk (Disk.makeDirectories (WorkingDir.logsDir dir))
  let report : Json := .object [("ts", .real env.clock), ("unknown", .list (unknown.map .string))]
  writeValue false (reportFile dir) report

/-- Loads the settings of a working directory. -/
def load (env : Environment) (dir : Path) : FileSteps Members := do
  let given ← readFirst env.nestingLimit (WorkingDir.settingsFiles env dir)
  let settings ← counting (normalise given dir.text)
  reportUnknown env dir settings
  return settings

/-- Saves settings in a working directory. -/
def save (dir : Path) (settings : Members) : FileSteps Unit := do
  let settings ← counting (normalise settings dir.text)
  onDisk (Disk.makeDirectories dir)
  writeValue true (dir.child "settings.json") (.object settings)

/-- Loads settings, sets some of their members and saves them.  The working directory is no member
that can be set. -/
def update (env : Environment) (dir : Path) (values : Members) : FileSteps Unit := do
  if values.has workingDirKey then throw (.nameTwice workingDirKey)
  let settings ← load env dir
  save dir (settings.putAll values)

/-- The path of the database. -/
def databasePath (env : Environment) (settings : Members) (dir : Path) :
    Except HomeFault LoosePath :=
  match (section? settings "database").get? "path" with
  | some (.string path) =>
    if trim path.patched = "" then .ok ⟨WorkingDir.databasePath dir, none⟩
    else LoosePath.ofTextInHome env path
  | _ => .ok ⟨WorkingDir.databasePath dir, none⟩

end Catalogue.Settings
