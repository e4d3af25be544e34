import Catalogue.Json.Basic

/-! Settings: JSON objects in which every default has its place.  Merging puts the defaults first,
in their order and with the given values, and other members after them; a section that is no object
is replaced by its default, as is a list that is no list. -/

namespace Catalogue.Settings

open Number Text

/-- The version that settings have now. -/
def currentVersion : Int := 1

/-- The settings without any given values. -/
def defaults : Members :=
  [("version", .int currentVersion),
    ("database", .object [("path", .null), ("timeout_s", .real (.ofInt 5))]),
    ("api", .object [("host", .text "127.0.0.1"), ("port", .int 8080),
      ("cors_origins", .list [.text "http://localhost", .text "http://127.0.0.1"])]),
    ("logging", .object [("level", .text "INFO"), ("json", .bool false)])]

mutual

/-- The value that stands in the place of a default when `given` is given for it. -/
def mergeValue (given : Option Json) : Json → Json
  | .object members =>
    let members' := (given.bind Json.members?).getD []
    .object (mergeMembers members' members
      ++ members'.filter fun m => !Members.has members m.1)
  | .list items =>
    match given with
    | some (.list items) => .list items
    | _ => .list items
  | value => given.getD value

/-- The defaults of one section with the given members in their places. -/
def mergeMembers (given : Members) : List (LooseText × Json) → List (LooseText × Json)
  | [] => []
  | (key, value) :: rest => (key, mergeValue (given.get? key) value) :: mergeMembers given rest

end

/-- Settings with all defaults. -/
def merge (given : Members) : Members :=
  mergeMembers given defaults ++ given.filter fun m => !defaults.has m.1

/-- A member of a section. -/
def section? (settings : Members) (name : String) : Members :=
  ((settings.get? name).bind Json.members?).getD []

/-- Moves the path of the database to where it belongs, unless one stands there. -/
def adoptPath (settings : Members) : Members :=
  let database := section? settings "database"
  match settings.get? "database_path" with
  | some (.string path) =>
    if path ≠ "" ∧ !((database.get? "path").elim false Json.isTruthy) then
      settings.put "database" (.object (database.put "path" (.string path)))
    else settings
  | _ => settings

/-- The version of settings; what is no number counts as version zero. -/
def version (settings : Members) : Except IntegerFault Int :=
  match ((settings.get? "version").getD .null).toInteger with
  | .ok n => .ok n
  | .error .infinite => .error .infinite
  | .error _ => .ok 0

/-- Brings settings of older versions up to date. -/
def migrate (settings : Members) : Except IntegerFault Members := do
  let settings := (adoptPath settings).erase "database_path"
  if (← version settings) < currentVersion then
    return settings.put "version" (.int currentVersion)
  return settings

/-- The key of the working directory. -/
def workingDirKey : String := "working_dir"

/-- Settings with the working directory, unless they name one. -/
def withWorkingDir (settings : Members) (dir : String) : Members :=
  if settings.has workingDirKey then settings else settings.put workingDirKey (.text dir)

/-- Settings merged with the defaults, brought up to date, and with their working directory. -/
def normalise (given : Members) (dir : String) : Except IntegerFault Members := do
  return withWorkingDir (← migrate (merge given)) dir

end Catalogue.Settings
