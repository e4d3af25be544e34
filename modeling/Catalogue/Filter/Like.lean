/-! Pattern search in text.  In a pattern `%` stands for any run of characters and `_` for one
character; ASCII letters match in either case, and the last two code points of the first plane,
which are for no interchange, are taken for U+FFFD.  A search that has come to the end of the text
with some of the pattern left is given up, since no later start has more text. -/

namespace Catalogue.Filter.Like

/-- How the comparison of a pattern with a text ends. -/
inductive Outcome where
  | found
  | failed
  | exhausted
  deriving DecidableEq

/-- A character as it is compared: ASCII capitals as small letters, U+FFFE and U+FFFF as U+FFFD. -/
def fold (c : Char) : Char :=
  if 'A'.toNat ≤ c.toNat ∧ c.toNat ≤ 'Z'.toNat then Char.ofNat (c.toNat + 32)
  else if c = '\uFFFE' ∨ c = '\uFFFF' then '\uFFFD'
  else c

/-- Compares the ends of a text, from the longest on, until one is found or none is left. -/
def seek (compare : List Char → Outcome) : List Char → Outcome
  | [] => match compare [] with
    | .found => .found
    | _ => .exhausted
  | c :: cs => match compare (c :: cs) with
    | .failed => seek compare cs
    | outcome => outcome

/-- Compares a pattern with the whole of a text. -/
def compare : (pattern text : List Char) → Outcome
  | [], [] => .found
  | [], _ :: _ => .failed
  | p :: pattern, text =>
    if p = '%' then seek (compare pattern) text
    else match text with
      | [] => .exhausted
      | c :: cs => if p = '_' ∨ fold p = fold c then compare pattern cs else .failed

/-- A text up to its first U+0000: the rest takes no part in a search. -/
def visible (s : String) : List Char := s.toList.takeWhile (· ≠ '\x00')

/-- A text matches a pattern. -/
def isMatch (pattern text : String) : Bool := compare (visible pattern) (visible text) == .found

/-- The most bytes that a pattern may have. -/
def patternLimit : Nat := 50000

/-- A pattern is short enough to be searched for. -/
def isSearchable (pattern : String) : Bool := pattern.utf8ByteSize ≤ patternLimit

end Catalogue.Filter.Like
