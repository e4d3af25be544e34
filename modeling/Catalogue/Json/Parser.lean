import Catalogue.Json.Basic
import Catalogue.Text.Percent

/-! Reading JSON text.  `NaN`, `Infinity` and `-Infinity` are numbers too, of two members with one
name the last counts, and text that is not JSON is refused at the place where the reader stops.  A
half of a surrogate pair that stands alone belongs to the text in which it is escaped or stands. -/

namespace Catalogue.Json

open Number Text

/-- Why a text is not read: it is no JSON from `position` on, a whole number in it has more digits
than a numeral may have, or its lists and objects are nested too deep. -/
inductive ReadError where
  | malformed (position : Nat)
  | integerTooLong (digits : Nat)
  | tooDeep (kind : String)
  deriving DecidableEq

/-- What is said of lists or objects nested too deep. -/
def tooDeepMessage (kind : String) : String :=
  "maximum recursion depth exceeded while decoding a JSON " ++ kind ++ " from a unicode string"

/-- What was read, the place after it, and the characters from there on. -/
structure Parsed (α : Type) where
  value : α
  position : Nat
  rest : List Char

abbrev Reader (α : Type) := Except ReadError (Parsed α)

/-- White space between the parts of a text. -/
def isSpace (c : Char) : Bool := c == ' ' || c == '\t' || c == '\n' || c == '\r'

/-- Skips white space. -/
def skip (position : Nat) : List Char → Nat × List Char
  | [] => (position, [])
  | c :: cs => if isSpace c then skip (position + 1) cs else (position, c :: cs)

/-- The code unit that four hexadecimal digits write. -/
def codeUnit? : List Char → Option Nat
  | a :: b :: c :: d :: _ => do
    let a ← hexValue? a
    let b ← hexValue? b
    let c ← hexValue? c
    let d ← hexValue? d
    return ((a * 16 + b) * 16 + c) * 16 + d
  | _ => none

/-- The character that a short escape stands for. -/
def shortEscape? : Char → Option Char
  | '"' => some '"'
  | '\\' => some '\\'
  | '/' => some '/'
  | 'b' => some '\x08'
  | 'f' => some '\x0c'
  | 'n' => some '\n'
  | 'r' => some '\r'
  | 't' => some '\t'
  | _ => none

/-- The low half of a surrogate pair that an escape at the front writes. -/
def lowHalf? (position : Nat) (cs : List Char) : Except ReadError (Option Nat) :=
  match cs with
  | '\\' :: 'u' :: digits =>
    if (digits.drop 4).isEmpty then .ok none
    else match codeUnit? digits with
      | none => .error (.malformed (position + 1))
      | some low => .ok (if 0xDC00 ≤ low ∧ low < 0xE000 then some low else none)
  | _ => .ok none

/-- What an escape writes: a character, or half of a pair. -/
abbrev Escaped := Char ⊕ Half

/-- What a single code unit stands for. -/
def Escaped.ofUnit (unit : Nat) : Escaped :=
  match Half.ofCode? unit with
  | some half => .inr half
  | none => .inl (Char.ofNat unit)

/-- Reads the escape whose backslash stands at `position`; `cs` follows the backslash.  Gives what
it writes and the number of characters after the backslash. -/
def readEscape (start position : Nat) (cs : List Char) : Except ReadError (Escaped × Nat) :=
  match cs with
  | [] => .error (.malformed start)
  | 'u' :: digits =>
    if (digits.drop 4).isEmpty then .error (.malformed (position + 1))
    else match codeUnit? digits with
      | none => .error (.malformed (position + 1))
      | some unit =>
        if 0xD800 ≤ unit ∧ unit < 0xDC00 then
          match lowHalf? (position + 6) (digits.drop 4) with
          | .error e => .error e
          | .ok (some low) =>
            .ok (.inl (Char.ofNat (0x10000 + (unit - 0xD800) * 1024 + (low - 0xDC00))), 11)
          | .ok none => .ok (.ofUnit unit, 5)
        else .ok (.ofUnit unit, 5)
  | c :: _ =>
    match shortEscape? c with
    | some image => .ok (.inl image, 1)
    | none => .error (.malformed position)

/-- The half that stands at a place, which the text shows as U+FFFD. -/
def halfAt? (halves : List (Nat × Half)) (position : Nat) (c : Char) : Option Half :=
  if c = '\uFFFD' then halves.lookup position else none

/-- Reads the text whose opening quote stands at `start`, behind the `parts` that end with halves
and the characters `done`, both in reverse order. -/
def readText (halves : List (Nat × Half)) (start position : Nat) (parts : List (String × Half))
    (done : List Char) (cs : List Char) : Reader LooseText :=
  match cs with
  | [] => .error (.malformed start)
  | '"' :: rest => .ok ⟨.behind parts (String.ofList done.reverse), position + 1, rest⟩
  | '\\' :: rest =>
    match readEscape start position rest with
    | .error e => .error e
    | .ok (.inl c, width) =>
      readText halves start (position + 1 + width) parts (c :: done) (rest.drop width)
    | .ok (.inr half, width) =>
      readText halves start (position + 1 + width)
        ((String.ofList done.reverse, half) :: parts) [] (rest.drop width)
  | c :: rest =>
    if c.toNat < 32 then .error (.malformed position)
    else match halfAt? halves position c with
      | some half =>
        readText halves start (position + 1) ((String.ofList done.reverse, half) :: parts) [] rest
      | none => readText halves start (position + 1) parts (c :: done) rest
termination_by cs.length
decreasing_by all_goals simp; try omega

/-- The digits at the front of a text and what follows them. -/
def takeDigits (cs : List Char) : List Char × List Char := cs.span isAsciiDigit

/-- The fraction at the front: the digits after a point, none where no digit follows one. -/
def takeFraction (cs : List Char) : List Char × List Char :=
  match cs with
  | '.' :: rest =>
    match takeDigits rest with
    | ([], _) => ([], cs)
    | taken => taken
  | _ => ([], cs)

/-- The exponent at the front with the number of its characters, where digits follow its mark and
sign. -/
def takeExponent (cs : List Char) : Option (Int × Nat) × List Char :=
  match cs with
  | c :: rest =>
    if c = 'e' ∨ c = 'E' then
      let (negative, body) := takeSign rest
      match takeDigits body with
      | ([], _) => (none, cs)
      | (digits, after) =>
        let size : Int := digitsValue digits
        let signWidth := if rest.head? = some '-' ∨ rest.head? = some '+' then 1 else 0
        (some (if negative then -size else size, 1 + signWidth + digits.length), after)
    else (none, cs)
  | [] => (none, cs)

/-- Reads the number at the front. -/
def readNumber (position : Nat) (cs : List Char) : Reader Json :=
  let (negative, body) := match cs with
    | '-' :: rest => (true, rest)
    | _ => (false, cs)
  let (whole, afterWhole) := match body with
    | '0' :: rest => (['0'], rest)
    | _ => takeDigits body
  let (fraction, afterFraction) := takeFraction afterWhole
  let (exponent, rest) := takeExponent afterFraction
  let width := (if negative then 1 else 0) + whole.length
    + (if fraction.isEmpty then 0 else fraction.length + 1) + (exponent.elim 0 (·.2))
  if whole.isEmpty then .error (.malformed position)
  else if fraction.isEmpty && exponent.isNone then
    if digitLimit < whole.length then .error (.integerTooLong whole.length)
    else
      let size : Int := digitsValue whole
      .ok ⟨.int (if negative then -size else size), position + width, rest⟩
  else
    let x := Binary64.ofDecimal negative (digitsValue (whole ++ fraction))
      (exponent.elim 0 (·.1) - fraction.length)
    .ok ⟨.real x, position + width, rest⟩

/-- The values that have names. -/
def names : List (String × Json) :=
  [("null", .null), ("true", .bool true), ("false", .bool false), ("NaN", .real Binary64.nan),
    ("Infinity", .real (.infinity false)), ("-Infinity", .real (.infinity true))]

/-- Reads a value with a name or a number at the front. -/
def readWord (position : Nat) (cs : List Char) : Reader Json :=
  match names.find? fun n => n.1.toList.isPrefixOf cs with
  | some (name, value) => .ok ⟨value, position + name.length, cs.drop name.length⟩
  | none => readNumber position cs

mutual

/-- Reads the value at the front, with `depth` levels of nesting left, in at most `fuel`
steps. -/
def readValue (halves : List (Nat × Half)) : (fuel depth position : Nat) → List Char →
    Reader Json
  | 0, _, position, _ => .error (.malformed position)
  | fuel + 1, depth, position, cs =>
    match cs with
    | [] => .error (.malformed position)
    | '"' :: rest =>
      (readText halves position (position + 1) [] [] rest).map fun p =>
        ⟨.string p.value, p.position, p.rest⟩
    | '[' :: rest =>
      let (position, rest) := skip (position + 1) rest
      match depth, rest with
      | 0, _ => .error (.tooDeep "array")
      | _, ']' :: rest => .ok ⟨.list [], position + 1, rest⟩
      | depth + 1, rest => readItems halves fuel depth [] position rest
    | '\x7b' :: rest =>
      let (position, rest) := skip (position + 1) rest
      match depth, rest with
      | 0, _ => .error (.tooDeep "object")
      | _, '\x7d' :: rest => .ok ⟨.object [], position + 1, rest⟩
      | depth + 1, rest => readMembers halves fuel depth [] position rest
    | cs => readWord position cs

/-- Reads the items of a list up to its bracket, behind the items `done` in reverse order. -/
def readItems (halves : List (Nat × Half)) : (fuel depth : Nat) → (done : List Json) →
    (position : Nat) → List Char → Reader Json
  | 0, _, _, position, _ => .error (.malformed position)
  | fuel + 1, depth, done, position, cs =>
    match readValue halves fuel depth position cs with
    | .error e => .error e
    | .ok item =>
      let (position, rest) := skip item.position item.rest
      match rest with
      | ']' :: rest => .ok ⟨.list (item.value :: done).reverse, position + 1, rest⟩
      | ',' :: rest =>
        let (position, rest) := skip (position + 1) rest
        readItems halves fuel depth (item.value :: done) position rest
      | _ => .error (.malformed position)

/-- Reads the members of an object up to its brace, after the members `done`. -/
def readMembers (halves : List (Nat × Half)) : (fuel depth : Nat) → (done : Members) →
    (position : Nat) → List Char → Reader Json
  | 0, _, _, position, _ => .error (.malformed position)
  | fuel + 1, depth, done, position, cs =>
    match cs with
    | '"' :: rest =>
      match readText halves position (position + 1) [] [] rest with
      | .error e => .error e
      | .ok key =>
        let (position, rest) := skip key.position key.rest
        match rest with
        | ':' :: rest =>
          let (position, rest) := skip (position + 1) rest
          match readValue halves fuel depth position rest with
          | .error e => .error e
          | .ok value =>
            let done := done.put key.value value.value
            let (position, rest) := skip value.position value.rest
            match rest with
            | '\x7d' :: rest => .ok ⟨.object done, position + 1, rest⟩
            | ',' :: rest =>
              let (position, rest) := skip (position + 1) rest
              readMembers halves fuel depth done position rest
            | _ => .error (.malformed position)
        | _ => .error (.malformed position)
    | _ => .error (.malformed position)

end

/-- Reads a text that is one JSON value with white space around it, nested at most `depth` levels
deep. -/
def parseWithin (depth : Nat) (w : LooseText) : Except ReadError Json :=
  let cs := w.patched.toList
  if cs.head? = some '\uFEFF' then .error (.malformed 0)
  else
    let (position, body) := skip 0 cs
    match readValue (w.halvesFrom 0) (2 * cs.length + 2) depth position body with
    | .error e => .error e
    | .ok p =>
      match skip p.position p.rest with
      | (_, []) => .ok p.value
      | (position, _) => .error (.malformed position)

end Catalogue.Json
