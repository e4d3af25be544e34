import Catalogue.Json.Inspect

/-! Message templates.  Two percent signs stand for one.  A directive starts with a single one and
may have a key between parentheses, flags, a width and a precision before its letter; it takes the
value under its key, or the next argument.  Every argument has to be used, unless the arguments are
a mapping. -/

namespace Catalogue.Log

open Number Text

/-- The arguments of a template: values in order, or values by key. -/
inductive Arguments where
  | values (items : List Json)
  | mapping (members : Members)

/-- The two extents of a directive. -/
inductive ExtentKind where
  | width
  | precision
  deriving DecidableEq

/-- The largest extent of a kind. -/
def ExtentKind.limit : ExtentKind → Nat
  | .width => Nat.pow 2 63 - 1
  | .precision => Nat.pow 2 31 - 1

/-- Why a template cannot be filled. -/
inductive TemplateFault where
  | tooFewArguments
  | unusedArguments
  | notMapping
  | missingKey (key : String)
  | unclosedKey
  | incomplete
  | starNotInteger
  | starTooLarge (extent : ExtentKind)
  | extentTooBig (extent : ExtentKind)
  | notReal (letter : Char) (kind : String)
  | notInteger (letter : Char) (kind : String)
  | notFloat (kind : String)
  | floatTooLarge
  | notCharacter
  | noSuchCharacter
  | number (fault : IntegerFault)
  | unsupported (letter : Char) (position : Nat)
  /-- The record has something else where its message is made. -/
  | notCallable (kind : String)
  deriving DecidableEq

def TemplateFault.message : TemplateFault → String
  | .notCallable kind => "'" ++ kind ++ "' object is not callable"
  | .tooFewArguments => "not enough arguments for format string"
  | .unusedArguments => "not all arguments converted during string formatting"
  | .notMapping => "format requires a mapping"
  | .missingKey key => quoted key
  | .unclosedKey => "incomplete format key"
  | .incomplete => "incomplete format"
  | .starNotInteger => "* wants int"
  | .starTooLarge .width => "Python int too large to convert to C ssize_t"
  | .starTooLarge .precision => "Python int too large to convert to C int"
  | .extentTooBig .width => "width too big"
  | .extentTooBig .precision => "precision too big"
  | .notReal letter kind =>
    "%" ++ letter.toString ++ " format: a real number is required, not " ++ kind
  | .notInteger letter kind =>
    "%" ++ letter.toString ++ " format: an integer is required, not " ++ kind
  | .notFloat kind => "must be real number, not " ++ kind
  | .floatTooLarge => "int too large to convert to float"
  | .notCharacter => "%c requires int or char"
  | .noSuchCharacter => "%c arg not in range(0x110000)"
  | .number fault => fault.message
  | .unsupported letter position =>
    let shown := if 31 ≤ letter.toNat ∧ letter.toNat < 127 then letter else '?'
    let code := String.ofList ((Nat.toDigits 16 letter.toNat))
    "unsupported format character '" ++ shown.toString ++ "' (0x" ++ code ++ ") at index "
      ++ natText position

/-- The key of a directive. -/
inductive DirectiveKey where
  | absent
  | unclosed
  | named (key : String)

/-- A width or a precision: a number, or a star for the next argument. -/
inductive Extent where
  | absent
  | number (n : Nat)
  | star

/-- The flags of a directive. -/
structure Flags where
  left : Bool := false
  plus : Bool := false
  blank : Bool := false
  alternate : Bool := false
  zero : Bool := false

/-- A directive; its letter is missing where the template ends before it. -/
structure Directive where
  key : DirectiveKey
  flags : Flags
  width : Extent
  precision : Extent
  letter : Option Char

/-- The key that runs up to the parenthesis which closes `depth` open ones. -/
def takeKey (depth : Nat) (done : List Char) : List Char → DirectiveKey × List Char
  | [] => (.unclosed, [])
  | c :: cs =>
    if c = ')' then
      if depth = 0 then (.named (String.ofList done.reverse), cs)
      else takeKey (depth - 1) (c :: done) cs
    else takeKey (if c = '(' then depth + 1 else depth) (c :: done) cs

/-- The flags at the front. -/
def takeFlags (flags : Flags) : List Char → Flags × List Char
  | [] => (flags, [])
  | c :: cs =>
    if c = '-' then takeFlags { flags with left := true } cs
    else if c = '+' then takeFlags { flags with plus := true } cs
    else if c = ' ' then takeFlags { flags with blank := true } cs
    else if c = '#' then takeFlags { flags with alternate := true } cs
    else if c = '0' then takeFlags { flags with zero := true } cs
    else (flags, c :: cs)

/-- The star or the number at the front. -/
def takeExtent (cs : List Char) : Extent × List Char :=
  match cs with
  | '*' :: rest => (.star, rest)
  | _ =>
    let digits := cs.takeWhile isAsciiDigit
    if digits.isEmpty then (.absent, cs)
    else (.number (digitsValue digits), cs.dropWhile isAsciiDigit)

/-- The precision at the front: a point alone is a precision of zero. -/
def takePrecision (cs : List Char) : Extent × List Char :=
  match cs with
  | '.' :: rest =>
    match takeExtent rest with
    | (.absent, rest) => (.number 0, rest)
    | taken => taken
  | _ => (.absent, cs)

/-- A mark of size, which has no meaning, taken off the front. -/
def dropSizeMark (cs : List Char) : List Char :=
  match cs with
  | c :: rest => if c = 'h' ∨ c = 'l' ∨ c = 'L' then rest else cs
  | [] => []

/-- Reads what follows a percent sign. -/
def takeDirective (cs : List Char) : Directive × List Char :=
  let (key, rest) := match cs with
    | '(' :: rest => takeKey 0 [] rest
    | _ => (.absent, cs)
  let (flags, rest) := takeFlags {} rest
  let (width, rest) := takeExtent rest
  let (precision, rest) := takePrecision rest
  let rest := dropSizeMark rest
  (⟨key, flags, width, precision, rest.head?⟩, rest.tail)

/-- The first argument that is left, and the others. -/
def nextArgument : List Json → Except TemplateFault (Json × List Json)
  | [] => .error .tooFewArguments
  | item :: items => .ok (item, items)

/-- The value of a width or a precision, and the arguments left after it. -/
def resolveExtent (kind : ExtentKind) (left : List Json) :
    Extent → Except TemplateFault (Option Int × List Json)
  | .absent => .ok (none, left)
  | .number n => if n ≤ kind.limit then .ok (some n, left) else .error (.extentTooBig kind)
  | .star => do
    let (item, left) ← nextArgument left
    match item with
    | .int n =>
      if -(kind.limit + 1 : Int) ≤ n ∧ n ≤ kind.limit then return (some n, left)
      else throw (.starTooLarge kind)
    | .bool b => return (some (if b then 1 else 0), left)
    | _ => throw .starNotInteger

/-- A field to be written: a sign, what stands before the digits, and the body. -/
structure Field where
  sign : String
  lead : String
  body : LooseText

/-- The digits of a number in base 8 or 16. -/
def baseDigits (base n : Nat) : String := String.ofList (Nat.toDigits base n)

/-- The text with zeros before it up to a length. -/
def zeroFilled (length : Nat) (s : String) : String :=
  String.ofList (List.replicate (length - s.length) '0' ++ s.toList)

/-- The sign of a number under some flags. -/
def signOf (flags : Flags) (negative : Bool) : String :=
  if negative then "-" else if flags.plus then "+" else if flags.blank then " " else ""

/-- The integer that a directive for decimal or other integers writes. -/
def integerOf (letter : Char) (value : Json) : Except TemplateFault Int :=
  let decimal := letter = 'd' ∨ letter = 'i' ∨ letter = 'u'
  match value with
  | .int n => .ok n
  | .bool b => .ok (if b then 1 else 0)
  | .real x =>
    if decimal then (Json.real x).toInteger.mapError .number
    else .error (.notInteger letter value.kindName)
  | _ =>
    if decimal then .error (.notReal letter value.kindName)
    else .error (.notInteger letter value.kindName)

/-- An integer as a field. -/
def integerField (flags : Flags) (precision : Nat) (letter : Char) (n : Int) : Field :=
  let sign := signOf flags (n < 0)
  if letter = 'o' then
    ⟨sign, if flags.alternate then "0o" else "", zeroFilled precision (baseDigits 8 n.natAbs)⟩
  else if letter = 'x' then
    ⟨sign, if flags.alternate then "0x" else "", zeroFilled precision (baseDigits 16 n.natAbs)⟩
  else if letter = 'X' then
    ⟨sign, if flags.alternate then "0X" else "",
      zeroFilled precision (baseDigits 16 n.natAbs).toUpper⟩
  else ⟨sign, "", zeroFilled precision (natText n.natAbs)⟩

/-- The number that a directive for floating point numbers writes. -/
def realOf : Json → Except TemplateFault Binary64
  | .real x => .ok x
  | .int n =>
    let x := Binary64.ofInt n
    if x.isFinite then .ok x else .error .floatTooLarge
  | .bool b => .ok (.ofInt (if b then 1 else 0))
  | value => .error (.notFloat value.kindName)

/-- A text with a point in its mantissa. -/
def pointed (s : String) : String :=
  let mantissa := s.toList.takeWhile (· ≠ 'e')
  if mantissa.contains '.' then s
  else String.ofList (mantissa ++ '.' :: s.toList.dropWhile (· ≠ 'e'))

/-- Significant digits with the zeros at their end. -/
def fullGeneral (x : Binary64) (count : Nat) : String :=
  let d := x.significantDigits count
  if -3 ≤ d.point ∧ d.point ≤ count then pointed (x.fixedSize (count - d.point).toNat)
  else pointed d.scientific

/-- A floating point number as a field. -/
def realField (flags : Flags) (precision : Option Nat) (letter : Char) (x : Binary64) : Field :=
  let places := precision.getD 6
  let small := letter.toLower
  let size :=
    if x.isNaN then "nan"
    else if x.isInfinite then "inf"
    else if small = 'f' then
      if flags.alternate then pointed (x.fixedSize places) else x.fixedSize places
    else if small = 'e' then
      if flags.alternate then pointed (x.scientificSize places) else x.scientificSize places
    else if flags.alternate then fullGeneral x (max places 1)
    else x.generalSize places
  ⟨signOf flags (x.isNegative && !x.isNaN), "", if letter.isUpper then size.toUpper else size⟩

/-- How a character outside ASCII is written where only ASCII may stand. -/
def asciiChar (c : Char) : List Char :=
  let n := c.toNat
  if n < 128 then [c]
  else if n < 256 then '\\' :: 'x' :: hexPadded 2 n
  else if n < 65536 then '\\' :: 'u' :: hexPadded 4 n
  else '\\' :: 'U' :: hexPadded 8 n

/-- A value as shown, in ASCII alone. -/
def inspectAscii (value : Json) : String := String.ofList (value.inspect.toList.flatMap asciiChar)

/-- A text, cut to a precision, as a field. -/
def textField (precision : Option Nat) (w : LooseText) : Field :=
  match precision with
  | none => ⟨"", "", w⟩
  | some n => ⟨"", "", w.take n⟩

/-- The text of a single code point. -/
def textOfCode (n : Nat) : LooseText :=
  match Half.ofCode? n with
  | some half => .torn "" half ""
  | none => (Char.ofNat n).toString

/-- The code point that a value stands for, as a text. -/
def characterOf : Json → Except TemplateFault LooseText
  | .string w => if w.length = 1 then .ok w else .error .notCharacter
  | .int n => if 0 ≤ n ∧ n < 0x110000 then .ok (textOfCode n.toNat) else .error .noSuchCharacter
  | .bool b => .ok (textOfCode (if b then 1 else 0))
  | _ => .error .notCharacter

/-- The field that a value makes under a letter; `position` is the place of the letter. -/
def fieldOf (flags : Flags) (precision : Option Nat) (letter : Char) (position : Nat)
    (value : Json) : Except TemplateFault Field :=
  if letter = 's' then .ok (textField precision value.display)
  else if letter = 'r' then .ok (textField precision value.inspect)
  else if letter = 'a' then .ok (textField precision (inspectAscii value))
  else if "diuoxX".toList.contains letter then
    (integerOf letter value).map (integerField flags (precision.getD 0) letter)
  else if "eEfFgG".toList.contains letter then
    (realOf value).map (realField flags precision letter)
  else if letter = 'c' then (characterOf value).map fun c => ⟨"", "", c⟩
  else .error (.unsupported letter position)

/-- A field in its width: blanks before it or after it, or zeros between its sign and its body. -/
def Field.inWidth (f : Field) (flags : Flags) (letter : Char) (width : Nat) : LooseText :=
  let text := f.body.prepend (f.sign ++ f.lead)
  let missing := width - text.length
  let numeric := "diuoxXeEfFgG".toList.contains letter
  let fill (c : Char) : String := String.ofList (List.replicate missing c)
  if flags.left then text ++ fill ' '
  else if flags.zero && numeric then f.body.prepend (f.sign ++ f.lead ++ fill '0')
  else text.prepend (fill ' ')

/-- The arguments that a directive takes from: those under its key, or those left. -/
def chooseArguments (mapping : Option Members) (left : List Json) :
    DirectiveKey → Except TemplateFault (List Json)
  | .absent => .ok left
  | key =>
    match mapping, key with
    | none, _ => .error .notMapping
    | some members, .named key =>
      match members.get? key with
      | some value => .ok [value]
      | none => .error (.missingKey key)
    | some _, _ => .error .unclosedKey

/-- What a directive writes, and the arguments left after it; `position` is the place of its
letter. -/
def Directive.fill (d : Directive) (mapping : Option Members) (left : List Json)
    (position : Nat) : Except TemplateFault (LooseText × List Json) := do
  let left ← chooseArguments mapping left d.key
  let (width, left) ← resolveExtent .width left d.width
  let (precision, left) ← resolveExtent .precision left d.precision
  match d.letter with
  | none => throw .incomplete
  | some letter =>
    let (value, left) ← nextArgument left
    let flags := if width.any (· < 0) then { d.flags with left := true } else d.flags
    let field ← fieldOf flags (precision.map Int.toNat) letter position value
    return (field.inWidth flags letter (width.getD 0).natAbs, left)

/-- Fills a template of `size` characters from `cs` on, behind the texts `done` in reverse order, by
at most `fuel` directives. -/
def fillFrom (size : Nat) (mapping : Option Members) :
    (fuel : Nat) → (left : List Json) → (done : List LooseText) → List Char →
    Except TemplateFault LooseText
  | 0, left, done, cs =>
    if mapping.isNone && !left.isEmpty then .error .unusedArguments
    else .ok (.concat (.sound (String.ofList cs) :: done).reverse)
  | fuel + 1, left, done, cs =>
    let plain := String.ofList (cs.takeWhile (· ≠ '%'))
    match cs.dropWhile (· ≠ '%') with
    | [] =>
      if mapping.isNone && !left.isEmpty then .error .unusedArguments
      else .ok (.concat (.sound plain :: done).reverse)
    | _ :: '%' :: rest => fillFrom size mapping fuel left (.sound "%" :: .sound plain :: done) rest
    | _ :: rest => do
      let (directive, rest) := takeDirective rest
      let (text, left) ← directive.fill mapping left (size - rest.length - 1)
      fillFrom size mapping fuel left (text :: .sound plain :: done) rest

/-- Fills a template with arguments. -/
def fillTemplate (template : String) (arguments : Arguments) :
    Except TemplateFault LooseText :=
  let cs := template.toList
  match arguments with
  | .values items => fillFrom cs.length none (cs.length + 1) items [] cs
  | .mapping members =>
    fillFrom cs.length (some members) (cs.length + 1) [.object members] [] cs

end Catalogue.Log
