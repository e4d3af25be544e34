import Catalogue.Entry.Basic

/-! Entries as JSON objects. -/

namespace Catalogue

/-- A kind with its measure as an object. -/
def EntryType.toJson (t : EntryType) : Json :=
  .object [("kind", .text t.kind.token), (t.kind.measure.name, .int t.amount)]

/-- A kind with both measures as an object: null is the one that the kind does not have. -/
def EntryType.toFullJson (t : EntryType) : Json :=
  let value (m : Measure) : Json := if t.kind.measure = m then .int t.amount else .null
  .object [("kind", .text t.kind.token), (Measure.pages.name, value .pages),
    (Measure.seconds.name, value .seconds)]

/-- A list of texts. -/
def textList (texts : List String) : Json := .list (texts.map .text)

/-- An entry as an object, with the object of its kind given. -/
def Entry.withType (e : Entry) (type : Json) : Json :=
  .object [("id", .int e.id), ("link", .text e.form.link), ("title", .text e.form.title),
    ("description", .text e.form.description), ("authors", textList e.form.authors),
    ("category", .text e.form.category), ("themes", textList e.form.themes),
    ("works_mentioned", textList e.form.worksMentioned), ("tags", textList e.form.tags),
    ("date_published", .text e.form.published.text), ("date_saved", .text e.saved.text),
    ("exceptional", .bool e.form.exceptional), ("entry_type", type)]

/-- An entry as an object. -/
def Entry.toJson (e : Entry) : Json := e.withType e.form.type.toJson

end Catalogue
