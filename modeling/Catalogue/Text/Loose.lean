import Catalogue.Text.Utf8

/-! Loose texts: texts in which halves of surrogate pairs may stand alone.  A sound text has no such
half; it alone has a UTF-8 form. -/

namespace Catalogue.Text

open Number

/-- Half of a surrogate pair: a code point that is no character. -/
structure Half where
  code : Nat
  isHalf : 0xD800 ≤ code ∧ code < 0xE000
  deriving DecidableEq

/-- The half with a code point. -/
def Half.ofCode? (n : Nat) : Option Half :=
  if h : 0xD800 ≤ n ∧ n < 0xE000 then some ⟨n, h⟩ else none

/-- A text with its halves: those that stand alone divide it into sound parts. -/
inductive LooseText where
  | sound (s : String)
  | torn (before : String) (half : Half) (after : LooseText)
  deriving DecidableEq

namespace LooseText

instance : Coe String LooseText := ⟨.sound⟩

/-- The text, where it is sound. -/
def sound? : LooseText → Option String
  | .sound s => some s
  | .torn .. => none

/-- The code points of a text. -/
def codes : LooseText → List Nat
  | .sound s => s.toList.map Char.toNat
  | .torn before half after => before.toList.map Char.toNat ++ half.code :: after.codes

/-- The order of lists of code points: the first place where they differ decides. -/
def codesLe : List Nat → List Nat → Bool
  | [], _ => true
  | _ :: _, [] => false
  | m :: ms, n :: ns => if m = n then codesLe ms ns else decide (m < n)

/-- The order of the code points. -/
def le (a b : LooseText) : Bool := codesLe a.codes b.codes

/-- The text with U+FFFD in the place of every half. -/
def patched : LooseText → String
  | .sound s => s
  | .torn before _ after => before ++ "\uFFFD" ++ after.patched

/-- The halves of a text with their places, in which the text itself has the place `start`. -/
def halvesFrom (start : Nat) : LooseText → List (Nat × Half)
  | .sound _ => []
  | .torn before half after =>
    (start + before.length, half) :: after.halvesFrom (start + before.length + 1)

/-- The text behind parts that end with halves, the last part first. -/
def behind (parts : List (String × Half)) (last : LooseText) : LooseText :=
  parts.foldl (fun after (before, half) => .torn before half after) last

/-- The text behind a sound one. -/
def prepend (s : String) : LooseText → LooseText
  | .sound t => .sound (s ++ t)
  | .torn before half after => .torn (s ++ before) half after

/-- Two texts one after the other. -/
def append (a b : LooseText) : LooseText :=
  match a with
  | .sound s => b.prepend s
  | .torn before half after => .torn before half (after.append b)

instance : Append LooseText := ⟨append⟩

/-- The text with every sound part changed. -/
def mapSound (f : String → String) : LooseText → LooseText
  | .sound s => .sound (f s)
  | .torn before half after => .torn (f before) half (after.mapSound f)

/-- The number of code points. -/
def length : LooseText → Nat
  | .sound s => s.length
  | .torn before _ after => before.length + 1 + after.length

/-- The first `n` code points. -/
def take (n : Nat) : LooseText → LooseText
  | .sound s => .sound (String.ofList (s.toList.take n))
  | .torn before half after =>
    if n ≤ before.length then .sound (String.ofList (before.toList.take n))
    else .torn before half (after.take (n - before.length - 1))

/-- Texts one after the other. -/
def concat (texts : List LooseText) : LooseText := texts.foldr append ""

/-- The characters of a quoted text between two `quote`s. -/
def quotedChars (quote : Char) : LooseText → List Char
  | .sound s => s.toList.flatMap (quotedChar quote)
  | .torn before half after =>
    before.toList.flatMap (quotedChar quote)
      ++ '\\' :: 'u' :: (hexPadded 4 half.code ++ after.quotedChars quote)

/-- A text between quotes. -/
def quoted (w : LooseText) : String :=
  let quote := quoteFor w.patched.toList
  String.ofList (quote :: (w.quotedChars quote ++ [quote]))

/-- The number of halves at the front. -/
def leadingHalves : LooseText → Nat
  | .torn "" _ after => after.leadingHalves + 1
  | _ => 0

/-- Halves that have no UTF-8 form: `length` of them from `position` on, of which `first` is the
first. -/
structure EncodeError where
  position : Nat
  length : Nat
  first : Half
  deriving DecidableEq

def EncodeError.message (e : EncodeError) : String :=
  let place :=
    if e.length = 1 then
      "character '\\u" ++ String.ofList (hexPadded 4 e.first.code) ++ "' in position "
        ++ natText e.position
    else
      "characters in position " ++ natText e.position ++ "-" ++ natText (e.position + e.length - 1)
  "'utf-8' codec can't encode " ++ place ++ ": surrogates not allowed"

/-- The UTF-8 form of a text. -/
def encode : LooseText → Except EncodeError (List UInt8)
  | .sound s => .ok (Utf8.encode s)
  | .torn before half after => .error ⟨before.length, after.leadingHalves + 1, half⟩

end LooseText

end Catalogue.Text
