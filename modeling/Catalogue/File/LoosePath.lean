import Catalogue.File.Environment

/-! Paths read from loose texts.  In the name of a file a half from U+DC80 to U+DCFF stands for a
byte that is no UTF-8; a name with another half has no form in bytes, so nothing can be opened under
it. -/

namespace Catalogue

open Text

/-- The half stands for a byte. -/
def Text.Half.isByte (h : Half) : Bool := decide (0xDC80 ≤ h.code ∧ h.code ≤ 0xDCFF)

/-- The first halves of a text that have no form in bytes; the text itself has the place `start`. -/
def unnameableFrom (start : Nat) : LooseText → Option LooseText.EncodeError
  | .sound _ => none
  | .torn before half after =>
    let position := start + before.length
    if half.isByte then unnameableFrom (position + 1) after
    else some ⟨position, after.leadingHalves + 1, half⟩

/-- A path, with U+FFFD in the place of every half, and those halves in its written form that have
no form in bytes. -/
structure LoosePath where
  path : Path
  unnameable : Option LooseText.EncodeError

namespace LoosePath

/-- Reads a path as `read` does, which may fail; halves keep their place in the name in which they
stand. -/
def ofTextBy {ε : Type} (read : Path → Except ε Path) (w : LooseText) : Except ε LoosePath := do
  let path ← read (Path.ofText w.patched)
  match unnameableFrom 0 w with
  | none => return ⟨path, none⟩
  | some e =>
    let upToHalf ← read (Path.ofText (String.ofList (w.patched.toList.take (e.position + 1))))
    return ⟨path, some { e with position := upToHalf.text.length - 1 }⟩

/-- Reads a path. -/
def ofText (w : LooseText) : LoosePath :=
  match ofTextBy (ε := Empty) .ok w with
  | .ok path => path

/-- The halves that stand in the name of a user at the front of a path, by their place in it. -/
def unnameableUser (w : LooseText) : Option LooseText.EncodeError := do
  let e ← unnameableFrom 0 w
  match Path.ofText (String.ofList (w.patched.toList.take (e.position + 1))) with
  | ⟨.relative, [name]⟩ =>
    if name.toList.head? = some '~' then some { e with position := name.length - 2 } else none
  | _ => none

/-- Reads a path with the home directory for `~` or `~user` in its first place. -/
def ofTextInHome (env : Environment) (w : LooseText) : Except HomeFault LoosePath :=
  match unnameableUser w with
  | some e => .error (.unnameable e)
  | none => ofTextBy (Path.expandHome env) w

end LoosePath

end Catalogue
