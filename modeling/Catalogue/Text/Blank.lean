/-! Blank characters, the ends that trimming removes, and the pieces of a text between separators.
-/

namespace Catalogue.Text

/-- The code points of the blank characters: white space of Unicode 14 and the four information
separators U+001C to U+001F. -/
def blankCodes : List Nat :=
  [9, 10, 11, 12, 13, 28, 29, 30, 31, 32, 133, 160, 5760, 8192, 8193, 8194, 8195, 8196, 8197, 8198,
    8199, 8200, 8201, 8202, 8232, 8233, 8239, 8287, 12288]

/-- The character `c` is blank. -/
def isBlank (c : Char) : Bool := blankCodes.contains c.toNat

/-- The characters `cs` without the characters at both ends that `p` holds of. -/
def trimBy (p : Char → Bool) (cs : List Char) : List Char :=
  ((cs.dropWhile p).reverse.dropWhile p).reverse

/-- A text without the blanks at both ends. -/
def trim (s : String) : String := String.ofList (trimBy isBlank s.toList)

/-- The pieces of `cs` between the places where `separator` stands, gathered behind `piece`, which
holds the characters of the current piece in reverse order. -/
def piecesFrom (separator : Char) (piece : List Char) (done : List (List Char)) :
    List Char → List (List Char)
  | [] => (piece.reverse :: done).reverse
  | c :: cs =>
    if c = separator then piecesFrom separator [] (piece.reverse :: done) cs
    else piecesFrom separator (c :: piece) done cs

/-- The pieces of a text between the places where `separator` stands: one more than there are
separators. -/
def pieces (separator : Char) (s : String) : List String :=
  (piecesFrom separator [] [] s.toList).map String.ofList

/-- The texts joined with `separator` between them. -/
def join (separator : String) (texts : List String) : String := separator.intercalate texts

/-- The parts of a text before and after the first `separator`; none where it does not occur. -/
def cut? (separator : Char) (s : String) : Option (String × String) :=
  match s.toList.span (· ≠ separator) with
  | (before, _ :: after) => some (String.ofList before, String.ofList after)
  | (_, []) => none

end Catalogue.Text
