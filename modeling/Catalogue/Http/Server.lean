import Catalogue.Entry.View
import Catalogue.Filter.Compile
import Catalogue.Http.Framework
import Catalogue.Store.Retrieval

/-! The server: answers requests from a store.  A fault that no answer is meant for, such as a
number that no column can hold, escapes from it. -/

namespace Catalogue.Http

open Number Text

/-- An answer, or a fault that no answer is meant for. -/
inductive Reply where
  | response (r : Response)
  | unhandled

/-- What a server needs besides its store: the origins that may ask, the day, and the seed of a
query that gives none. -/
structure Setting where
  origins : List String
  today : Date
  generatedSeed : Nat

/-- The methods with which pages of other origins may ask. -/
def sharedMethods : List String := ["OPTIONS", "GET", "PUT", "POST", "DELETE"]

/-- The rules for pages of other origins, if any of them may ask; empty origins do not count. -/
def Setting.rules? (s : Setting) : Option OriginRules :=
  match s.origins.filter (· ≠ "") with
  | [] => none
  | origins => some ⟨origins, sharedMethods⟩

/-- The answer to data with problems. -/
def invalid (problems : List Problem) : Response :=
  .json 400 (.object [("error", .text "invalid parameters"),
    ("details", .list (problems.map (·.toJson)))])

/-- The answer to a number of an entry that no entry has. -/
def notFound : Response := .error 404 "entry not found"

/-- The answer to an operation on the store. -/
def reply {α : Type} (operation : Access α) (answer : α → Reply) : Store → Reply × Store :=
  fun store =>
    match operation store with
    | .ok a store => (answer a, store)
    | .error (.storage _) store => (.response (.error 500 "internal server error"), store)
    | .error _ store => (.unhandled, store)

/-- The answer to data that was received. -/
def received {α : Type} (data : Received α) (answer : α → Store → Reply × Store) (store : Store) :
    Reply × Store :=
  match data with
  | .valid a => answer a store
  | .invalid problems => (.response (invalid problems), store)
  | .refused response => (.response response, store)

/-- An entry can be shown: its measure is not negative. -/
def isShown (e : Entry) : Bool := 0 ≤ e.form.type.amount

/-- An entry as it is shown. -/
def entryJson (e : Entry) : Json := e.withType e.form.type.toFullJson

/-- Lists the entries that a filter selects. -/
def listEntries (s : Setting) (filter : String) (store : Store) : Reply × Store :=
  match Filter.compile filter with
  | .error (.rejected cause) => (.response (.error 400 cause.message), store)
  | .error (.numeral _) => (.unhandled, store)
  | .ok q =>
    reply (Access.retrieve defaultPageSize s.generatedSeed q) (fun page =>
      if page.entries.all isShown then .response (.json 200 (page.toJson entryJson))
      else .unhandled) store

/-- Saves a new entry. -/
def createEntry (s : Setting) (draft : Draft) : Store → Reply × Store :=
  reply (match draft.form? with
    | some form => Access.insertEntry form s.today
    | none => Access.refuseInsert) fun id =>
    .response (.json 200
      (.object [("id", .int id), ("link", .text (Endpoint.entryPath (intText id)))]))

/-- Shows an entry. -/
def showEntry (id : Int) : Store → Reply × Store :=
  reply (Access.getEntry defaultPageSize id) fun entry =>
    match entry with
    | none => .response notFound
    | some e => if isShown e then .response (.json 200 (entryJson e)) else .unhandled

/-- The answer to a change that finds an entry or not. -/
def changed (found : Bool) : Reply := .response (if found then .empty 204 else notFound)

/-- Saves a draft over an entry. -/
def replaceEntry (id : Int) (draft : Draft) : Store → Reply × Store :=
  reply (match draft.form? with
    | some form => Access.updateEntry id form
    | none => Access.refuseUpdate id) changed

/-- Deletes an entry. -/
def deleteEntry (id : Int) : Store → Reply × Store := reply (Access.deleteEntry id) changed

/-- A term with its category as it is shown. -/
def termJson (t : Term) : Json := .object [("value", .text t.1), ("category", .text t.2)]

section Requests

variable (f : Framework) (s : Setting) (r : Request)

/-- The answer of an endpoint. -/
def answerAt : Endpoint → Store → Reply × Store
  | .listEntries => fun store =>
    match f.query? r with
    | some filter => listEntries s filter store
    | none => (.unhandled, store)
  | .createEntry => received (f.readDraft r) (createEntry s)
  | .showEntry id => received (f.readId id) showEntry
  | .replaceEntry id => received (f.readIdAndDraft r id) fun p => replaceEntry p.1 p.2
  | .deleteEntry id => received (f.readId id) deleteEntry
  | .listCategories =>
    reply Access.listCategories fun names => .response (.json 200 (textList names))
  | .listVocabulary v =>
    reply (Access.listVocabulary v) fun terms => .response (.json 200 (.list (terms.map termJson)))

/-- The answer to a request, apart from the rules for other origins. -/
def answer (store : Store) : Reply × Store :=
  match f.find r with
  | .ok endpoint => answerAt f s r endpoint store
  | .error response => (.response response, store)

/-- A reply whose response is marked. -/
def Reply.map (mark : Response → Response) : Reply → Reply
  | .response r => .response (mark r)
  | .unhandled => .unhandled

/-- The answer to a request under the rules for other origins. -/
def answerOrigin (store : Store) : Reply × Store :=
  match s.rules? with
  | none => answer f s r store
  | some rules =>
    match f.preflight? rules r with
    | some response => (.response response, store)
    | none =>
      let (reply, after) := answer f s r store
      (reply.map (f.mark rules r), after)

/-- The reply to a request.  The address of each request is logged once it is answered; where it
cannot be read, that fault escapes. -/
def serve (store : Store) : Reply × Store :=
  let (reply, after) := answerOrigin f s r store
  (if (f.query? r).isSome then reply else .unhandled, after)

/-- The response to a request. -/
def handle (store : Store) : Response × Store :=
  let (reply, after) := serve f s r store
  (match reply with
    | .response response => response
    | .unhandled => f.crash, after)

end Requests

end Catalogue.Http
