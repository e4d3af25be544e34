import Catalogue.Text.Utf8

/-! Percent encoding of UTF-8.  Decoding cuts a text into the longest runs of ASCII characters and
of other characters: in an ASCII run an escape `%XX` stands for a byte and every other character for
itself, and the bytes of one run together are UTF-8.  A percent sign that two hexadecimal digits do
not follow stands for itself. -/

namespace Catalogue.Text

/-- The character `c` is one of ASCII. -/
def isAscii (c : Char) : Bool := c.toNat < 128

/-- The value of a hexadecimal digit of either case. -/
def hexValue? (c : Char) : Option Nat :=
  let n := c.toNat
  if 48 ≤ n ∧ n ≤ 57 then some (n - 48)
  else if 65 ≤ n ∧ n ≤ 70 then some (n - 55)
  else if 97 ≤ n ∧ n ≤ 102 then some (n - 87)
  else none

namespace Percent

/-- The byte that an escape with the digits `high` and `low` stands for. -/
def escape? (high low : Char) : Option UInt8 :=
  match hexValue? high, hexValue? low with
  | some h, some l => some (.ofNat (h * 16 + l))
  | _, _ => none

/-- The bytes of an ASCII run, behind the bytes `done` in reverse order. -/
def bytesFrom (done : List UInt8) : List Char → List UInt8
  | [] => done.reverse
  | c :: cs =>
    match c, cs with
    | '%', high :: low :: rest =>
      match escape? high low with
      | some b => bytesFrom (b :: done) rest
      | none => bytesFrom (0x25 :: done) (high :: low :: rest)
    | c, cs => bytesFrom (.ofNat c.toNat :: done) cs
termination_by cs => cs.length
decreasing_by all_goals (simp; try omega)

/-- The bytes of an ASCII run. -/
def bytes (run : List Char) : List UInt8 := bytesFrom [] run

/-- The longest runs of ASCII characters and of other characters, in order. -/
def runs (cs : List Char) : List (List Char) := cs.splitBy fun a b => isAscii a == isAscii b

/-- The characters that one run stands for. -/
def decodeRun (run : List Char) : Except Utf8.DecodeError (List Char) :=
  if run.all isAscii then Utf8.decode (bytes run) else .ok run

/-- Decodes a text; the first run whose bytes are not UTF-8 is the error. -/
def decode (s : String) : Except Utf8.DecodeError String := do
  let texts ← (runs s.toList).mapM decodeRun
  return String.ofList texts.flatten

/-- Decodes a text with U+FFFD for bytes that are not UTF-8. -/
def decodeLenient (s : String) : String :=
  String.ofList ((runs s.toList).flatMap fun run =>
    if run.all isAscii then Utf8.decodeLenient (bytes run) else run)

/-- An upper case hexadecimal digit. -/
def upperHexDigit (n : Nat) : Char := Char.ofNat (if n < 10 then 48 + n else 55 + n)

/-- The characters that an address may hold as they are, besides ASCII letters and digits. -/
def addressSafe : List Char := "_.-~:/%#?=@[]!$&'()*+,;".toList

/-- The character `c` stands for itself in an address. -/
def isAddressChar (c : Char) : Bool :=
  (isAscii c && c.isAlphanum) || addressSafe.contains c

/-- Escapes what an address may not hold as it is. -/
def encodeAddress (s : String) : String :=
  String.ofList (s.toList.flatMap fun c =>
    if isAddressChar c then [c]
    else (Utf8.encodeChar c).flatMap fun b =>
      ['%', upperHexDigit (b.toNat / 16), upperHexDigit (b.toNat % 16)])

end Percent

end Catalogue.Text
