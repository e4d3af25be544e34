import Catalogue.File.Path
import Catalogue.Text.Percent

/-! Names of databases: the path of a file, the name of a database that is kept in memory alone, or
an address, which starts with `file:` and may have options after a question mark.  An address is cut
at its marks first; then the escapes in each part are decoded. -/

namespace Catalogue

open Number Text

/-- What an address asks to do with its file. -/
inductive OpenMode where
  | readOnly
  | readWrite
  | create
  | memory
  deriving DecidableEq

namespace OpenMode

/-- The modes by name. -/
def names : List (String × OpenMode) :=
  [("ro", .readOnly), ("rw", .readWrite), ("rwc", .create), ("memory", .memory)]

/-- How much a mode allows. -/
def rank : OpenMode → Nat
  | .readOnly => 1
  | .readWrite => 2
  | .create => 3
  | .memory => 4

/-- A mode after which another one is named: it may not allow more, unless it is for memory. -/
def followedBy? (mode next : OpenMode) : Option OpenMode :=
  if next = .memory ∨ next.rank ≤ mode.rank then some next else none

end OpenMode

/-- Where a name finds a database. -/
inductive DatabaseName where
  | memory (readOnly : Bool)
  | file (path : Path) (mode : OpenMode) (immutable : Bool)
  deriving DecidableEq

namespace DatabaseName

/-- The name of a database that is kept in memory alone. -/
def memoryName : String := ":memory:"

/-- What an address starts with. -/
def scheme : List Char := "file:".toList

/-- The bytes of a part of an address.  An escaped zero ends the part. -/
def octets (cs : List Char) : List UInt8 :=
  match cs with
  | [] => []
  | '%' :: high :: low :: rest =>
    match Percent.escape? high low with
    | some b => if b = 0 then [] else b :: octets rest
    | none => 0x25 :: octets (high :: low :: rest)
  | c :: rest => Utf8.encodeChar c ++ octets rest
termination_by cs.length
decreasing_by all_goals (simp; try omega)

/-- A part of an address as text. -/
def decodePart (cs : List Char) : String := String.ofList (Utf8.decodeLenient (octets cs))

/-- An option: a name and a value, which is empty where no equals sign stands. -/
def optionOf (part : String) : String × String :=
  let (name, value) := (cut? '=' part).getD (part, "")
  (decodePart name.toList, decodePart value.toList)

/-- The options of an address; those without a name do not count. -/
def optionsOf (s : String) : List (String × String) :=
  ((pieces '&' s).map optionOf).filter (·.1 ≠ "")

/-- The mode that options ask for; none where one of them is not known or allows too much. -/
def modeOf? (mode : OpenMode) : List (String × String) → Option OpenMode
  | [] => some mode
  | (name, value) :: others => do
    if name = "cache" ∧ value ≠ "shared" ∧ value ≠ "private" then none
    else if name = "mode" then modeOf? (← mode.followedBy? (← OpenMode.names.lookup value)) others
    else modeOf? mode others

/-- The ways to reach files. -/
def fileSystems : List String := ["unix", "unix-none", "unix-dotfile", "unix-excl"]

/-- The way to reach databases in memory. -/
def memorySystem : String := "memdb"

/-- An option that is turned on: by a word, or by a number whose last byte is not zero. -/
def isOn (value : String) : Bool :=
  let digits := value.toList.takeWhile isAsciiDigit
  if digits.isEmpty then ["on", "yes", "true"].contains value.toLower
  else
    let n := digitsValue digits
    decide (n < Nat.pow 2 31) && n % 256 != 0

/-- The database at a decoded path under some options. -/
def withOptions? (name : String) (options : List (String × String)) : Option DatabaseName := do
  let mode ← modeOf? .create options
  let system := (options.reverse.lookup "vfs").getD "unix"
  let immutable := ((options.lookup "immutable").map isOn).getD false
  if system = memorySystem then some (.memory (mode = .readOnly || immutable))
  else if !fileSystems.contains system then none
  else if mode = .memory then some (.memory false)
  else if name = "" ∨ name = memoryName then some (.memory (mode = .readOnly))
  else some (.file (.ofText name) mode immutable)

/-- The database that a text names; none where it is an address with options that are not
understood.  A library reads addresses only if it was built to. -/
def ofText? (readsAddresses : Bool) (s : String) : Option DatabaseName :=
  if readsAddresses ∧ scheme.isPrefixOf s.toList then
    let address := String.ofList ((s.toList.drop scheme.length).takeWhile (· ≠ '#'))
    let (name, options) := (cut? '?' address).getD (address, "")
    withOptions? (decodePart name.toList) (optionsOf options)
  else if s = memoryName then some (.memory false)
  else some (.file (.ofText s) .create false)

end DatabaseName

end Catalogue
