import Catalogue.Number.Numeral

/-! UTF-8 as a strict code and as a lenient one.  A strict reader stops at the first sequence that
no character has and tells its place, its length and what is wrong with it; a lenient reader puts
U+FFFD in its place and goes on. -/

namespace Catalogue.Text.Utf8

open Number

/-- What is wrong with a sequence of bytes. -/
inductive Fault where
  | invalidStart
  | invalidContinuation
  | unexpectedEnd
  deriving DecidableEq

def Fault.reason : Fault → String
  | .invalidStart => "invalid start byte"
  | .invalidContinuation => "invalid continuation byte"
  | .unexpectedEnd => "unexpected end of data"

/-- The bytes from `position` on, `length` of them, the first of which is `first`, are no
character. -/
structure DecodeError where
  fault : Fault
  position : Nat
  length : Nat
  first : UInt8
  deriving DecidableEq

/-- A byte in two hexadecimal digits. -/
def hexByte (b : UInt8) : String :=
  String.ofList (hexPadded 2 b.toNat)

def DecodeError.message (e : DecodeError) : String :=
  let place :=
    if e.length = 1 then "byte 0x" ++ hexByte e.first ++ " in position " ++ natText e.position
    else "bytes in position " ++ natText e.position ++ "-" ++ natText (e.position + e.length - 1)
  "'utf-8' codec can't decode " ++ place ++ ": " ++ e.fault.reason

/-- What stands at the front of a sequence of bytes. -/
inductive Reading where
  | finished
  | char (c : Char) (width : Nat) (rest : List UInt8)
  | fault (f : Fault) (width : Nat) (rest : List UInt8)

/-- The byte `b` continues a character. -/
def isContinuation (b : UInt8) : Bool := 128 ≤ b.toNat && b.toNat < 192

/-- The low six bits that a continuation byte adds to `high`. -/
def extend (high : Nat) (b : UInt8) : Nat := high * 64 + b.toNat % 64

/-- The byte `b` may follow the first byte `a` of a character of three or four bytes: the second
byte rules out overlong forms, surrogates and code points past U+10FFFF. -/
def maySecond (a b : UInt8) : Bool :=
  isContinuation b &&
    (a.toNat != 0xE0 || 0xA0 ≤ b.toNat) && (a.toNat != 0xED || b.toNat < 0xA0) &&
    (a.toNat != 0xF0 || 0x90 ≤ b.toNat) && (a.toNat != 0xF4 || b.toNat < 0x90)

/-- Reads one character or one fault. -/
def read : List UInt8 → Reading
  | [] => .finished
  | a :: r =>
    if a.toNat < 0x80 then .char (Char.ofNat a.toNat) 1 r
    else if a.toNat < 0xC2 ∨ 0xF4 < a.toNat then .fault .invalidStart 1 r
    else match r with
      | [] => .fault .unexpectedEnd 1 []
      | b :: r₂ =>
        if a.toNat < 0xE0 then
          if isContinuation b then .char (Char.ofNat (extend (a.toNat % 32) b)) 2 r₂
          else .fault .invalidContinuation 1 r
        else if !maySecond a b then .fault .invalidContinuation 1 r
        else match r₂ with
          | [] => .fault .unexpectedEnd 2 []
          | c :: r₃ =>
            if !isContinuation c then .fault .invalidContinuation 2 r₂
            else if a.toNat < 0xF0 then
              .char (Char.ofNat (extend (extend (a.toNat % 16) b) c)) 3 r₃
            else match r₃ with
              | [] => .fault .unexpectedEnd 3 []
              | d :: r₄ =>
                if isContinuation d then
                  .char (Char.ofNat (extend (extend (extend (a.toNat % 8) b) c) d)) 4 r₄
                else .fault .invalidContinuation 3 r₃

/-- Reading takes at least one byte off. -/
theorem read_shorter (bytes : List UInt8) :
    (∀ c w rest, read bytes = .char c w rest → rest.length < bytes.length) ∧
      ∀ f w rest, read bytes = .fault f w rest → rest.length < bytes.length := by
  unfold read
  constructor <;> intro x w rest <;> (repeat' split) <;> intro h <;> cases h <;> simp <;> omega

/-- Reads the bytes from `position` on strictly, behind the characters `done` in reverse order. -/
def decodeFrom (position : Nat) (done : List Char) (bytes : List UInt8) :
    Except DecodeError (List Char) :=
  match _h : read bytes with
  | .finished => .ok done.reverse
  | .char c width rest => decodeFrom (position + width) (c :: done) rest
  | .fault fault width _ => .error ⟨fault, position, width, bytes.head?.getD 0⟩
termination_by bytes.length
decreasing_by exact (read_shorter bytes).1 _ _ _ _h

/-- Reads bytes strictly. -/
def decode (bytes : List UInt8) : Except DecodeError (List Char) := decodeFrom 0 [] bytes

/-- Reads bytes with U+FFFD for every fault, behind the characters `done` in reverse order. -/
def decodeLenientFrom (done : List Char) (bytes : List UInt8) : List Char :=
  match _h : read bytes with
  | .finished => done.reverse
  | .char c _ rest => decodeLenientFrom (c :: done) rest
  | .fault _ _ rest => decodeLenientFrom ('\uFFFD' :: done) rest
termination_by bytes.length
decreasing_by
  · exact (read_shorter bytes).1 _ _ _ _h
  · exact (read_shorter bytes).2 _ _ _ _h

/-- Reads bytes with U+FFFD for every fault. -/
def decodeLenient (bytes : List UInt8) : List Char := decodeLenientFrom [] bytes

/-- The bytes of a character. -/
def encodeChar (c : Char) : List UInt8 :=
  let n := c.toNat
  if n < 0x80 then [.ofNat n]
  else if n < 0x800 then [.ofNat (0xC0 + n / 64), .ofNat (0x80 + n % 64)]
  else if n < 0x10000 then
    [.ofNat (0xE0 + n / 4096), .ofNat (0x80 + n / 64 % 64), .ofNat (0x80 + n % 64)]
  else
    [.ofNat (0xF0 + n / 262144), .ofNat (0x80 + n / 4096 % 64), .ofNat (0x80 + n / 64 % 64),
      .ofNat (0x80 + n % 64)]

/-- The bytes of a text. -/
def encode (s : String) : List UInt8 := s.toList.flatMap encodeChar

/-- A text read byte by byte: each byte of its UTF-8 form as the character with that number. -/
def bytewise (s : String) : String := String.ofList ((encode s).map fun b => Char.ofNat b.toNat)

/-- The text that was read byte by byte. -/
def ofBytewise (s : String) : String :=
  String.ofList (decodeLenient (s.toList.map fun c => UInt8.ofNat c.toNat))

end Catalogue.Text.Utf8
