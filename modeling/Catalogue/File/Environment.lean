import Catalogue.File.Tree
import Catalogue.Number.Binary64
import Catalogue.Text.Loose

/-! The environment of a program: its variables, where it is installed, its process and its clock,
the users of the system, the device of its files and the depth of its stack; and the expansion of
`~` and of variables in texts of paths. -/

namespace Catalogue

open Number Text

structure Environment where
  bindings : List (String × String)
  /-- The directory in which the program is installed. -/
  project : Path
  processId : Nat
  /-- Seconds since 1970. -/
  clock : Binary64
  /-- The home directories of the users, by their names. -/
  users : List (String × String) := []
  /-- The home directory of the user who runs the program, where the system knows it. -/
  ownHome : Option String := none
  device : Device := .free
  /-- How deep the lists and objects of a JSON text may be nested, by the stack of the process. -/
  nestingLimit : Nat

namespace Environment

/-- The value of a variable. -/
def get? (env : Environment) (name : String) : Option String := env.bindings.lookup name

/-- The home directory of a user, or of the one who runs the program where the name is empty. -/
def home? (env : Environment) (user : String) : Option String :=
  if user = "" then (env.get? "HOME").or env.ownHome else env.users.lookup user

/-- A text without the slashes at its end. -/
def withoutSlashes (s : String) : String :=
  String.ofList (s.toList.reverse.dropWhile (· == '/')).reverse

/-- A text with the home directory for `~` or `~user` at its front, where the user is known. -/
def expandHome (env : Environment) (s : String) : String :=
  match s.toList with
  | '~' :: cs =>
    let (user, rest) := cs.span (· ≠ '/')
    match env.home? (String.ofList user) with
    | none => s
    | some home =>
      let expanded := withoutSlashes home ++ String.ofList rest
      if expanded = "" then "/" else expanded
  | _ => s

/-- A character of a variable's name. -/
def isNameChar (c : Char) : Bool := c.isAlphanum || c == '_'

/-- The name of the variable that stands after a dollar sign, and what follows it. -/
def variableAt? (cs : List Char) : Option (String × List Char) :=
  match cs with
  | '\x7b' :: rest =>
    match rest.dropWhile (· ≠ '\x7d') with
    | _ :: after => some (String.ofList (rest.takeWhile (· ≠ '\x7d')), after)
    | [] => none
  | _ =>
    let name := cs.takeWhile isNameChar
    if name.isEmpty then none else some (String.ofList name, cs.dropWhile isNameChar)

theorem variableAt?_shorter {cs : List Char} {name : String} {after : List Char}
    (h : variableAt? cs = some (name, after)) : after.length ≤ cs.length := by
  unfold variableAt? at h
  split at h
  · rename_i rest
    have hd := (List.dropWhile_sublist (fun c => decide (c ≠ '\x7d')) (l := rest)).length_le
    split at h
    · rename_i heq
      rw [heq] at hd
      simp only [Option.some.injEq, Prod.mk.injEq] at h
      simp only [List.length_cons] at hd ⊢
      rw [← h.2]; omega
    · cases h
  · have hd := (List.dropWhile_sublist isNameChar (l := cs)).length_le
    simp only at h
    split at h
    · cases h
    · simp only [Option.some.injEq, Prod.mk.injEq] at h
      rw [← h.2]; exact hd

/-- The characters with the value of every known variable for `$NAME` and `$\x7bNAME\x7d`, behind
the characters `done` in reverse order.  Values are not looked into. -/
def expandFrom (env : Environment) (done : List Char) (cs : List Char) : List Char :=
  match cs with
  | [] => done.reverse
  | '$' :: rest =>
    match _h : variableAt? rest with
    | none => expandFrom env ('$' :: done) rest
    | some (name, after) =>
      match env.get? name with
      | some value => expandFrom env (value.toList.reverse ++ done) after
      | none =>
        let written := ('$' :: rest).take (rest.length + 1 - after.length)
        expandFrom env (written.reverse ++ done) after
  | c :: rest => expandFrom env (c :: done) rest
termination_by cs.length
decreasing_by
  · simp
  · exact Nat.lt_succ_of_le (variableAt?_shorter _h)
  · exact Nat.lt_succ_of_le (variableAt?_shorter _h)
  · simp

/-- A text with the values of its variables. -/
def expandVariables (env : Environment) (s : String) : String :=
  String.ofList (env.expandFrom [] s.toList)

end Environment

/-- Why there is no home directory. -/
inductive HomeFault where
  | unknownUser
  /-- The name of the user holds U+0000, which no name may hold. -/
  | nullCharacter
  | unnameable (e : LooseText.EncodeError)
  deriving DecidableEq

def HomeFault.message : HomeFault → String
  | .unknownUser => "Could not determine home directory."
  | .nullCharacter => "embedded null byte"
  | .unnameable e => e.message

/-- A path with the home directory for `~` or `~user` in its first place. -/
def Path.expandHome (env : Environment) (p : Path) : Except HomeFault Path :=
  match p.root, p.names with
  | .relative, first :: rest =>
    if first.toList.head? ≠ some '~' then .ok p
    else if first.toList.contains '\x00' then .error .nullCharacter
    else
      let home := env.expandHome first
      if home.toList.head? = some '~' then .error .unknownUser
      else .ok ((Path.ofText home).append ⟨.relative, rest⟩)
  | _, _ => .ok p

end Catalogue
