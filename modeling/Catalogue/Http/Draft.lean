import Catalogue.Entry.Basic
import Catalogue.Text.Loose

/-! Drafts: what a body gives of an entry.  Their texts may be loose; then no column can hold them.
-/

namespace Catalogue.Http

open Text

/-- A kind with the measures that are given, of which a kind has one. -/
structure Measures where
  kind : Kind
  pages : Option Int
  seconds : Option Int
  deriving DecidableEq

/-- The kind with its own measure, which is zero where it is not given. -/
def Measures.type (m : Measures) : EntryType :=
  ⟨m.kind, (match m.kind.measure with
    | .pages => m.pages
    | .seconds => m.seconds).getD 0⟩

/-- A form with loose texts. -/
structure Draft where
  link : LooseText
  title : LooseText
  description : LooseText
  authors : List LooseText
  category : LooseText
  themes : List LooseText
  worksMentioned : List LooseText
  tags : List LooseText
  published : Date
  exceptional : Bool
  measures : Measures

/-- The form of a draft whose texts are all sound. -/
def Draft.form? (d : Draft) : Option Form := do
  return {
    link := ← d.link.sound?
    title := ← d.title.sound?
    description := ← d.description.sound?
    authors := ← d.authors.mapM (·.sound?)
    category := ← d.category.sound?
    themes := ← d.themes.mapM (·.sound?)
    worksMentioned := ← d.worksMentioned.mapM (·.sound?)
    tags := ← d.tags.mapM (·.sound?)
    published := d.published
    exceptional := d.exceptional
    type := d.measures.type }

end Catalogue.Http
