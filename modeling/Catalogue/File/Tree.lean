import Catalogue.File.Path
import Catalogue.Number.Numeral

/-! A tree of directories and files, and the operations that a program has on it.  A path is
followed name by name, each of which but the last has to be a directory. -/

namespace Catalogue

open Number Text

/-- What stands at a place of a file tree.  Nothing can be made in a sealed directory, and nothing
taken away from there. -/
inductive Node where
  | directory
  | sealed
  | file (bytes : List UInt8)
  | database
  deriving DecidableEq

def Node.isDirectory : Node → Bool
  | .directory | .sealed => true
  | _ => false

/-- Why an operation on a path fails. -/
inductive Obstacle where
  | missing
  | occupied
  | notDirectory
  | isDirectory
  | nameTooLong
  | notPermitted
  | noSpace
  /-- A name holds U+0000, which no name of a file may hold. -/
  | nullCharacter
  deriving DecidableEq

/-- The number and the words by which the system reports an obstacle; nothing where it is not
asked. -/
def Obstacle.report? : Obstacle → Option (Nat × String)
  | .notPermitted => some (1, "Operation not permitted")
  | .missing => some (2, "No such file or directory")
  | .occupied => some (17, "File exists")
  | .notDirectory => some (20, "Not a directory")
  | .isDirectory => some (21, "Is a directory")
  | .noSpace => some (28, "No space left on device")
  | .nameTooLong => some (36, "File name too long")
  | .nullCharacter => none

/-- An operation that fails, and the path that it was asked for. -/
structure PathFault where
  obstacle : Obstacle
  path : Path
  deriving DecidableEq

def PathFault.message (e : PathFault) : String :=
  match e.obstacle.report? with
  | some (number, words) =>
    "[Errno " ++ natText number ++ "] " ++ words ++ ": " ++ quoted e.path.text
  | none => "embedded null byte"

/-- The nodes of a tree by their places, and the place where relative paths start. -/
structure FileTree where
  here : List String
  nodes : List (List String × Node)

/-- What the device of a tree allows at a place, beyond what the nodes there show. -/
structure Device where
  /-- A file at the place takes bytes: there is room for them. -/
  stores : List String → Bool
  /-- A file at the place can be taken away: its directory is not for appending alone. -/
  removes : List String → Bool

/-- A device that allows everything. -/
def Device.free : Device := ⟨fun _ => true, fun _ => true⟩

/-- Operations that read and change a tree. -/
abbrev Disk (α : Type) := EStateM PathFault FileTree α

namespace FileTree

/-- What stands at a place; the root is a directory. -/
def node? (tree : FileTree) (place : List String) : Option Node :=
  if place = [] then some .directory else tree.nodes.lookup place

/-- Puts a node at a place. -/
def put (tree : FileTree) (place : List String) (node : Node) : FileTree :=
  if (tree.nodes.lookup place).isSome then
    { tree with nodes := tree.nodes.map fun n => if n.1 = place then (place, node) else n }
  else { tree with nodes := tree.nodes ++ [(place, node)] }

/-- Takes the node at a place away. -/
def remove (tree : FileTree) (place : List String) : FileTree :=
  { tree with nodes := tree.nodes.filter (·.1 ≠ place) }

/-- The most bytes that a name may have. -/
def nameLimit : Nat := 255

/-- The number of bytes from which on a path is too long. -/
def pathLimit : Nat := 4096

/-- The place one name on from a directory. -/
def step (tree : FileTree) (place : List String) (name : String) :
    Except Obstacle (List String) :=
  match tree.node? place with
  | none => .error .missing
  | some node =>
    if !node.isDirectory then .error .notDirectory
    else if nameLimit < name.utf8ByteSize then .error .nameTooLong
    else .ok (if name = ".." then place.dropLast else place ++ [name])

/-- The place of a path, every name but the last of which is a directory. -/
def follow (tree : FileTree) (path : Path) : Except Obstacle (List String) :=
  if path.names.any fun name => name.toList.contains '\x00' then .error .nullCharacter
  else if pathLimit ≤ path.text.utf8ByteSize then .error .nameTooLong
  else path.names.foldlM tree.step (if path.root = .relative then tree.here else [])

/-- What a path leads to. -/
def find (tree : FileTree) (path : Path) : Except Obstacle Node := do
  match tree.node? (← tree.follow path) with
  | some node => return node
  | none => throw .missing

/-- A path leads to a directory. -/
def isDirectory (tree : FileTree) (path : Path) : Bool :=
  match tree.find path with
  | .ok node => node.isDirectory
  | .error _ => false

/-- Entries can be made and taken away at a place: its directory is not sealed. -/
def isFree (tree : FileTree) (place : List String) : Bool :=
  tree.node? place.dropLast != some .sealed

/-- The tree with a new directory at a path. -/
def makeDirectory? (tree : FileTree) (path : Path) : Except Obstacle FileTree := do
  let place ← tree.follow path
  if (tree.node? place).isSome then throw .occupied
  if !tree.isFree place then throw .missing
  return tree.put place .directory

/-- The place where a file can be written. -/
def writable? (tree : FileTree) (path : Path) : Except Obstacle (List String) := do
  let place ← tree.follow path
  match tree.node? place with
  | some node => if node.isDirectory then throw .isDirectory else return place
  | none => if tree.isFree place then return place else throw .missing

/-- The entries below a place, by the text of their paths from there, a slash after directories. -/
def listing (tree : FileTree) (place : List String) : List String :=
  let texts := tree.nodes.filterMap fun (at_, node) =>
    if place.isPrefixOf at_ && place ≠ at_ then
      some (join "/" (at_.drop place.length) ++ (if node.isDirectory then "/" else ""))
    else none
  texts.mergeSort (fun a b => decide (a ≤ b))

end FileTree

/-- A device lets a file at a place of a tree be taken away. -/
def Device.erases (device : Device) (tree : FileTree) (place : List String) : Bool :=
  tree.isFree place && device.removes place

namespace Disk

/-- Fails for a path. -/
def fail {α : Type} (path : Path) (obstacle : Obstacle) : Disk α := throw ⟨obstacle, path⟩

/-- The result of reading the tree for a path. -/
def reading {α : Type} (path : Path) (result : FileTree → Except Obstacle α) : Disk α := do
  match result (← get) with
  | .ok a => return a
  | .error obstacle => fail path obstacle

/-- Makes a directory, unless the path leads to one. -/
def ensureDirectory (path : Path) : Disk Unit := do
  match (← get).makeDirectory? path with
  | .ok tree => set tree
  | .error obstacle => if !(← get).isDirectory path then fail path obstacle

/-- Makes a directory and the directories above it where they are missing; `names` are those of the
path, the last one first. -/
def makeDirectoriesFrom (root : Root) : (names : List String) → Disk Unit
  | [] => ensureDirectory ⟨root, []⟩
  | name :: above => do
    let path : Path := ⟨root, (name :: above).reverse⟩
    match (← get).makeDirectory? path with
    | .ok tree => set tree
    | .error .missing => do
      makeDirectoriesFrom root above
      ensureDirectory path
    | .error obstacle => if !(← get).isDirectory path then fail path obstacle

/-- Makes a directory and the directories above it where they are missing. -/
def makeDirectories (path : Path) : Disk Unit := makeDirectoriesFrom path.root path.names.reverse

/-- Writes a file. -/
def write (path : Path) (bytes : List UInt8) : Disk Unit := do
  let place ← reading path (·.writable? path)
  modify (·.put place (.file bytes))

/-- The bytes of a node that is a file. -/
def bytesOf : Node → List UInt8
  | .file bytes => bytes
  | _ => []

/-- Writes at the end of a file, which is made where it is missing. -/
def append (path : Path) (bytes : List UInt8) : Disk Unit := do
  let place ← reading path (·.writable? path)
  modify fun tree =>
    tree.put place (.file ((tree.node? place).elim [] bytesOf ++ bytes))

/-- Reads a file. -/
def read (path : Path) : Disk (List UInt8) := do
  let node ← reading path (·.find path)
  if node.isDirectory then fail path .isDirectory
  return bytesOf node

/-- Writes a file on a device.  One that does not take the bytes is there all the same, empty. -/
def writeOn (device : Device) (path : Path) (bytes : List UInt8) : Disk Unit := do
  let place ← reading path (·.writable? path)
  if device.stores place then modify (·.put place (.file bytes))
  else
    modify (·.put place (.file []))
    fail path .noSpace

/-- Removes a file from a device, if it is there. -/
def removeFrom (device : Device) (path : Path) : Disk Unit := do
  match (← get).find path with
  | .error .missing => return
  | .error obstacle => fail path obstacle
  | .ok node =>
    if node.isDirectory then fail path .isDirectory
    let place ← reading path (·.follow path)
    if !device.erases (← get) place then fail path .notPermitted
    modify (·.remove place)

/-- What an operation gives, or nothing where it fails; what it changed before stays changed. -/
def attempt {α : Type} (operation : Disk α) : Disk (Option α) := fun tree =>
  match operation tree with
  | .ok a after => .ok (some a) after
  | .error _ after => .ok none after

end Disk

end Catalogue
