import Catalogue.Json.Basic

/-! The keys that settings may have.  A key that no rule allows is reported by its path, with dots
between the keys. -/

namespace Catalogue.Settings

open Text

/-- What the value of a key may be. -/
inductive Rule where
  | anything
  | keys (allowed : List String)
  | nested (rules : List (String × Rule))

/-- The rules of an object. -/
abbrev Schema := List (String × Rule)

/-- The rules of the settings. -/
def schema : Schema :=
  [("database", .keys ["path", "timeout_s"]), ("api", .keys ["host", "port", "cors_origins"]),
    ("logging", .keys ["level", "json"]), ("working_dir", .anything), ("version", .anything)]

/-- The rule for a key, with the name of the key; only a sound key has one. -/
def ruleFor? (rules : Schema) (key : LooseText) : Option (String × Rule) :=
  rules.find? fun r => .sound r.1 == key

mutual

/-- The paths of the keys of `members` that `rules` do not allow, each behind `path`. -/
def unknownFrom (path : String) (rules : Schema) : List (LooseText × Json) → List LooseText
  | [] => []
  | (key, value) :: rest =>
    (match ruleFor? rules key with
      | none => [key.prepend path]
      | some (name, rule) => unknownIn (path ++ name ++ ".") rule value)
      ++ unknownFrom path rules rest

/-- The paths of the keys of a value that a rule does not allow. -/
def unknownIn (path : String) (rule : Rule) : Json → List LooseText
  | .object members =>
    match rule with
    | .anything => []
    | .keys allowed =>
      (members.filter fun m => !allowed.any fun name => .sound name == m.1).map fun m =>
        m.1.prepend path
    | .nested rules => unknownFrom path rules members
  | _ => []

end

/-- The paths of all keys that a schema does not allow, sorted. -/
def unknownKeys (rules : Schema) (members : Members) : List LooseText :=
  (unknownFrom "" rules members).mergeSort LooseText.le

end Catalogue.Settings
