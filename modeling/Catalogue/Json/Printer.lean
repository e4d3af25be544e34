import Catalogue.Json.Basic

/-! JSON text of a value: on one line, or with each item on a line of its own.  Characters outside
ASCII stand for themselves; the quote, the backslash and control characters are escaped. -/

namespace Catalogue.Json

open Number Text

/-- How a character is written inside a text. -/
def escapedChar (c : Char) : List Char :=
  if c = '"' then ['\\', '"']
  else if c = '\\' then ['\\', '\\']
  else if c = '\n' then ['\\', 'n']
  else if c = '\r' then ['\\', 'r']
  else if c = '\t' then ['\\', 't']
  else if c = '\x08' then ['\\', 'b']
  else if c = '\x0c' then ['\\', 'f']
  else if c.toNat < 32 then '\\' :: 'u' :: hexPadded 4 c.toNat
  else [c]

/-- A sound text with its characters escaped. -/
def escaped (s : String) : String := String.ofList (s.toList.flatMap escapedChar)

/-- A text as JSON. -/
def textLiteral (w : LooseText) : LooseText := (w.mapSound escaped).prepend "\"" ++ "\""

/-- A number as JSON, with names for those that are not finite. -/
def realLiteral (x : Binary64) : String :=
  if x.isFinite then x.finiteText
  else if x.isNaN then "NaN"
  else if x.isNegative then "-Infinity" else "Infinity"

/-- The text between the parts of a list or an object: the start of the first line, what separates
two parts, and the start of the last line. -/
structure Layout where
  opening : String
  between : String
  closing : String

/-- Everything on one line. -/
def Layout.compact : Layout := ⟨"", ", ", ""⟩

/-- A line for each part, indented by `depth` steps of two. -/
def Layout.indented (depth : Nat) : Layout :=
  let line (d : Nat) : String := String.ofList ('\n' :: List.replicate (2 * d) ' ')
  ⟨line (depth + 1), "," ++ line (depth + 1), line depth⟩

/-- The pieces of an item behind a lead; the lead of a text is in one piece with it. -/
def behindLead (lead : String) (item : Json) (pieces : List LooseText) : List LooseText :=
  match item, pieces with
  | .string _, piece :: rest => piece.prepend lead :: rest
  | _, _ => .sound lead :: pieces

mutual

/-- The pieces of the JSON text of a value that stands `depth` levels deep, laid out by `layout`;
each piece is written at once. -/
def piecesAt (layout : Nat → Layout) (depth : Nat) : Json → List LooseText
  | .null => ["null"]
  | .bool b => [if b then "true" else "false"]
  | .int n => [intText n]
  | .real x => [realLiteral x]
  | .string w => [textLiteral w]
  | .list [] => ["[]"]
  | .list (item :: items) =>
    let l := layout depth
    itemPieces layout (depth + 1) l.between ("[" ++ l.opening) (item :: items)
      ++ [.sound (l.closing ++ "]")]
  | .object [] => ["\x7b\x7d"]
  | .object (m :: members) =>
    let l := layout depth
    memberPieces layout (depth + 1) l.between ("\x7b" ++ l.opening) (m :: members)
      ++ [.sound (l.closing ++ "\x7d")]

/-- The pieces of items, of which the first stands behind `lead` and the others behind
`between`. -/
def itemPieces (layout : Nat → Layout) (depth : Nat) (between lead : String) :
    List Json → List LooseText
  | [] => []
  | item :: items =>
    behindLead lead item (piecesAt layout depth item)
      ++ itemPieces layout depth between between items

/-- The pieces of members, of which the first stands behind `lead` and the others behind
`between`. -/
def memberPieces (layout : Nat → Layout) (depth : Nat) (between lead : String) :
    List (LooseText × Json) → List LooseText
  | [] => []
  | (key, value) :: members =>
    .sound lead :: textLiteral key :: .sound ": " :: piecesAt layout depth value
      ++ memberPieces layout depth between between members

end

/-- The pieces of the JSON text with a line for each part. -/
def linePieces (value : Json) : List LooseText := piecesAt .indented 0 value

/-- JSON text on one line. -/
def line (value : Json) : LooseText := .concat (piecesAt (fun _ => .compact) 0 value)

/-- JSON text on one line, with U+FFFD in the place of every half of a pair that stands alone. -/
def print (value : Json) : String :=
  String.join ((piecesAt (fun _ => .compact) 0 value).map (·.patched))

end Catalogue.Json
