import Catalogue.Text.Blank

/-! Paths: a mark for the root and the names below it.  Empty names and `.` are dropped when a path
is read, `..` is kept, and two slashes at the front are a root of their own. -/

namespace Catalogue

open Text

/-- Where a path starts. -/
inductive Root where
  | relative
  | slash
  | doubleSlash
  deriving DecidableEq

def Root.text : Root → String
  | .relative => ""
  | .slash => "/"
  | .doubleSlash => "//"

structure Path where
  root : Root
  names : List String
  deriving DecidableEq

namespace Path

/-- The names in a text between slashes. -/
def namesOf (s : String) : List String := (pieces '/' s).filter fun n => n ≠ "" ∧ n ≠ "."

/-- The root of a text: exactly two slashes at the front are kept apart from one and from more. -/
def rootOf (s : String) : Root :=
  match (s.toList.takeWhile (· == '/')).length with
  | 0 => .relative
  | 2 => .doubleSlash
  | _ => .slash

/-- Reads a path. -/
def ofText (s : String) : Path := ⟨rootOf s, namesOf s⟩

/-- The written form of a path. -/
def text (p : Path) : String :=
  if p.root = .relative ∧ p.names = [] then "." else p.root.text ++ join "/" p.names

/-- A path taken below another one; one with a root stands for itself. -/
def append (p q : Path) : Path := if q.root = .relative then ⟨p.root, p.names ++ q.names⟩ else q

/-- The path one name below. -/
def child (p : Path) (name : String) : Path := { p with names := p.names ++ [name] }

/-- The path without its last name. -/
def parent (p : Path) : Path := { p with names := p.names.dropLast }

/-- Names without `..`: each one takes the name before it away. -/
def flatten (names : List String) : List String :=
  names.foldl (fun kept name => if name = ".." then kept.dropLast else kept ++ [name]) []

/-- The place of a path seen from `here`, written without `..`. -/
def place (here : List String) (p : Path) : List String :=
  flatten (if p.root = .relative then here ++ p.names else p.names)

/-- The path with a single slash to a place. -/
def ofPlace (place : List String) : Path := ⟨.slash, place⟩

/-- The path from the root, without `..`. -/
def resolve (here : List String) (p : Path) : Path := ofPlace (p.place here)

/-- The path from the root, without `..`; two slashes at the front stay. -/
def normalise (here : List String) (p : Path) : Path :=
  ⟨if p.root = .doubleSlash then .doubleSlash else .slash, p.place here⟩

end Path

end Catalogue
