import Catalogue.Http.Day
import Catalogue.Http.Draft

/-! Drafts in the body of a request: a JSON object, of which some members have defaults and members
of other names are passed over. -/

namespace Catalogue.Http

open Number Text

/-- The location of a member of the body. -/
def inBody (name : String) : List Place := [.name "body", .name name]

/-- A member that has to be there. -/
def required {α : Type} (members : Members) (location : String → List Place) (name : String)
    (read : Json → Except Complaint α) : Checked α :=
  match members.get? name with
  | none => Checked.complain (location name) .missing
  | some value => Checked.at_ (location name) (read value)

/-- A member that has a default. -/
def defaulted {α : Type} (members : Members) (name : String) (default : α)
    (read : Json → Except Complaint α) : Checked α :=
  match members.get? name with
  | none => .ok default
  | some value => Checked.at_ (inBody name) (read value)

/-- The texts of a list, of which the first has the place `index`. -/
def readTexts (location : List Place) (index : Nat) : List Json → Checked (List LooseText)
  | [] => .ok []
  | item :: items =>
    Checked.ap
      ((Checked.at_ (location ++ [.index index]) (readText item)).map fun s rest => s :: rest)
      (readTexts location (index + 1) items)

/-- A list of texts; empty where it is missing. -/
def textsMember (members : Members) (name : String) : Checked (List LooseText) :=
  match members.get? name with
  | none => .ok []
  | some (.list items) => readTexts (inBody name) 0 items
  | some _ => Checked.complain (inBody name) .notList

/-- The word for a kind. -/
def readKind (value : Json) : Except Complaint Kind :=
  match value with
  | .text word =>
    match Kind.ofToken? word with
    | some kind => .ok kind
    | none => .error .notKind
  | .string _ => .error .notUnicode
  | _ => .error .notKind

/-- The location of a member of the kind. -/
def inType (name : String) : List Place := inBody "entry_type" ++ [.name name]

/-- A measure, which may be missing or null. -/
def amountMember (members : Members) (m : Measure) : Checked (Option Int) :=
  match members.get? m.name with
  | none | some .null => .ok none
  | some value => Checked.at_ (inType m.name) ((readNatural value).map some)

/-- The kind of an entry with the measures that are given. -/
def typeMember (members : Members) : Checked Measures :=
  match members.get? "entry_type" with
  | none => Checked.complain (inBody "entry_type") .missing
  | some (.object type) =>
    let withKind := (required type inType "kind" readKind).map Measures.mk
    Checked.ap (Checked.ap withKind (amountMember type .pages)) (amountMember type .seconds)
  | some _ => Checked.complain (inBody "entry_type") .notObject

/-- The draft in a JSON object. -/
def draftOf (members : Members) : Checked Draft :=
  let link := (required members inBody "link" readText).map Draft.mk
  let title := Checked.ap link (required members inBody "title" readText)
  let description := Checked.ap title (defaulted members "description" "" readText)
  let authors := Checked.ap description (textsMember members "authors")
  let category := Checked.ap authors (defaulted members "category" "" readText)
  let themes := Checked.ap category (textsMember members "themes")
  let works := Checked.ap themes (textsMember members "works_mentioned")
  let tags := Checked.ap works (textsMember members "tags")
  let published := Checked.ap tags (required members inBody "date_published" readDate)
  let exceptional := Checked.ap published (defaulted members "exceptional" false readBoolean)
  Checked.ap exceptional (typeMember members)

/-- The draft in a JSON value. -/
def readDraft (value : Json) : Checked Draft :=
  match value with
  | .object members => draftOf members
  | _ => Checked.complain [.name "body"] .notObject

end Catalogue.Http
