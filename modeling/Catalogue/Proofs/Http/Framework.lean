import Catalogue.Http.Server
import Catalogue.Proofs.Json.Printed

/-! What a server relies on in its framework: how requests are led to endpoints, how responses are
marked for other origins, and how the data is checked that an endpoint declares. -/

namespace Catalogue.Http

/-- A mark for other origins changes neither the status nor the content. -/
structure KeepsAnswer (mark : Response → Response) : Prop where
  status : ∀ r, (mark r).status = r.status
  content : ∀ r, (mark r).content = r.content

/-- A request is led to an endpoint that is declared for its method; only a request for options is
taken for the question of a browser; and marks keep the answer. -/
structure Framework.Dispatches (f : Framework) : Prop where
  method {r : Request} {e : Endpoint} : f.find r = .ok e → r.method = e.method
  preflight {rules : OriginRules} {r : Request} {response : Response} :
    f.preflight? rules r = some response → r.method = "OPTIONS"
  mark (rules : OriginRules) (r : Request) : KeepsAnswer (f.mark rules r)

/-- No measure is negative. -/
structure Measures.AreNatural (m : Measures) : Prop where
  pages : ∀ n, m.pages = some n → 0 ≤ n
  seconds : ∀ n, m.seconds = some n → 0 ≤ n

theorem Measures.AreNatural.type {m : Measures} (h : m.AreNatural) : 0 ≤ m.type.amount := by
  have hgetD {o : Option Int} (ho : ∀ n, o = some n → 0 ≤ n) : 0 ≤ o.getD 0 := by
    cases o with
    | none => exact Int.le_refl 0
    | some n => exact ho n rfl
  unfold Measures.type
  dsimp only
  split
  · exact hgetD h.pages
  · exact hgetD h.seconds

/-- A measure as JSON; null where it is not given. -/
def measureJson : Option Int → Json
  | some n => .int n
  | none => .null

/-- A JSON object has the kind and the measures in its members. -/
structure Measures.IsIn (m : Measures) (v : Json) : Prop where
  kind : v.get? "kind" = some (.text m.kind.token)
  pages : v.get? "pages" = some (measureJson m.pages)
  seconds : v.get? "length_in_seconds" = some (measureJson m.seconds)

/-- A JSON object has the data of a draft in its members, each of the type that is declared for it.
It may have others. -/
structure Draft.IsIn (d : Draft) (v : Json) : Prop where
  link : v.get? "link" = some (.string d.link)
  title : v.get? "title" = some (.string d.title)
  description : v.get? "description" = some (.string d.description)
  authors : v.get? "authors" = some (.list (d.authors.map .string))
  category : v.get? "category" = some (.string d.category)
  themes : v.get? "themes" = some (.list (d.themes.map .string))
  worksMentioned : v.get? "works_mentioned" = some (.list (d.worksMentioned.map .string))
  tags : v.get? "tags" = some (.list (d.tags.map .string))
  published : v.get? "date_published" = some (.text d.published.text)
  exceptional : v.get? "exceptional" = some (.bool d.exceptional)
  measures : ∃ type, v.get? "entry_type" = some type ∧ d.measures.IsIn type
  natural : d.measures.AreNatural

/-- The request declares its body as JSON, and has a value there as the framework writes it. -/
structure Request.Sends (f : Framework) (r : Request) (v : Json) : Prop where
  declared : r.header? "content-type" = some "application/json"
  body : r.body = f.render v

/-- A draft is received only with measures that are not negative; a number and a draft are received
together if each of them would be; and a JSON object that has the data of a draft is received as
that draft, as long as its nesting is no obstacle. -/
structure Framework.Validates (f : Framework) : Prop where
  natural {r : Request} {d : Draft} : f.readDraft r = .valid d → d.measures.AreNatural
  both {r : Request} {id : String} {n : Int} {d : Draft} :
    f.readIdAndDraft r id = .valid (n, d) ↔ f.readId id = .valid n ∧ f.readDraft r = .valid d
  depth : 2 ≤ f.nestingLimit
  reads {r : Request} {v : Json} {d : Draft} : r.Sends f v → v.IsRegular →
    Json.nesting v ≤ f.nestingLimit → d.IsIn v → f.readDraft r = .valid d

end Catalogue.Http
