import Catalogue.Text.Loose

/-! Texts in code units of two or four bytes, and the encoding of a JSON text, which its first bytes
tell: most of the bytes of an ASCII character are zero in the wide encodings.  Halves of surrogate
pairs that stand alone are kept. -/

namespace Catalogue.Text.Wide

/-- The order of the bytes in a code unit. -/
inductive ByteOrder where
  | littleEndian
  | bigEndian
  deriving DecidableEq

/-- The encodings that a JSON text may have. -/
inductive Encoding where
  | utf8
  | utf16 (order : ByteOrder)
  | utf32 (order : ByteOrder)
  deriving DecidableEq

/-- The number that bytes make. -/
def ByteOrder.number (order : ByteOrder) (bytes : List UInt8) : Nat :=
  let digits := match order with
    | .littleEndian => bytes.reverse
    | .bigEndian => bytes
  digits.foldl (fun n b => n * 256 + b.toNat) 0

/-- The code units of two bytes; none where a byte is left over. -/
def units16? (order : ByteOrder) (done : List Nat) : List UInt8 → Option (List Nat)
  | [] => some done.reverse
  | a :: b :: rest => units16? order (order.number [a, b] :: done) rest
  | _ => none

/-- The code units of four bytes; none where bytes are left over. -/
def units32? (order : ByteOrder) (done : List Nat) : List UInt8 → Option (List Nat)
  | [] => some done.reverse
  | a :: b :: c :: d :: rest => units32? order (order.number [a, b, c, d] :: done) rest
  | _ => none

/-- The character beyond U+FFFF that a pair of code units stands for. -/
def joined? (high low : Nat) : Option Char :=
  if 0xD800 ≤ high ∧ high < 0xDC00 ∧ 0xDC00 ≤ low ∧ low < 0xE000 then
    some (Char.ofNat (0x10000 + (high - 0xD800) * 1024 + (low - 0xDC00)))
  else none

/-- The code points of code units of two bytes, behind the code points `done` in reverse order. -/
def joinPairs (done : List Nat) : List Nat → List Nat
  | high :: low :: rest =>
    match joined? high low with
    | some c => joinPairs (c.toNat :: done) rest
    | none => joinPairs (high :: done) (low :: rest)
  | [unit] => (unit :: done).reverse
  | [] => done.reverse

/-- The text with some code points, behind the `parts` that end with halves and the characters
`done`, both in reverse order; none where a number is no code point. -/
def ofCodes? (parts : List (String × Half)) (done : List Char) : List Nat → Option LooseText
  | [] => some (.behind parts (String.ofList done.reverse))
  | n :: rest =>
    match Half.ofCode? n with
    | some half => ofCodes? ((String.ofList done.reverse, half) :: parts) [] rest
    | none => if n < 0x110000 then ofCodes? parts (Char.ofNat n :: done) rest else none

/-- The encoding that the first bytes tell. -/
def detect (bytes : List UInt8) : Encoding :=
  match bytes with
  | 0xEF :: 0xBB :: 0xBF :: _ => .utf8
  | 0 :: b :: _ :: _ :: _ => if b = 0 then .utf32 .bigEndian else .utf16 .bigEndian
  | _ :: 0 :: c :: d :: _ =>
    if c = 0 ∧ d = 0 then .utf32 .littleEndian else .utf16 .littleEndian
  | [0, _] => .utf16 .bigEndian
  | [_, 0] => .utf16 .littleEndian
  | _ => .utf8

/-- Bytes without a byte order mark. -/
def withoutMark : List UInt8 → List UInt8
  | 0xEF :: 0xBB :: 0xBF :: rest => rest
  | bytes => bytes

/-- Reads bytes in the encoding that the first of them tell. -/
def decode? (bytes : List UInt8) : Option LooseText :=
  match detect bytes with
  | .utf8 => ((Utf8.decode (withoutMark bytes)).toOption).map fun cs => String.ofList cs
  | .utf16 order => (units16? order [] bytes).bind fun units => ofCodes? [] [] (joinPairs [] units)
  | .utf32 order => (units32? order [] bytes).bind (ofCodes? [] [])

end Catalogue.Text.Wide
