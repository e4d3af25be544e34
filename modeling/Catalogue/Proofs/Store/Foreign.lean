import Catalogue.Proofs.Store.Operation

/-! Tables of another kind.  A database may hold a table under one of the names of the catalogue's
that has not their columns.  A store opens on it all the same, but what needs the columns of that
table fails. -/

namespace Catalogue

open Catalogue.Filter Number

namespace Database

/-- A foreign table stands in the place of one of the catalogue's. -/
def Lacks (db : Database) : ForeignTable → Prop
  | .entries _ => db.entries = none
  | .categories => db.categories = none
  | .terms v => db.terms v = none

theorem supplant_lacks (db : Database) (table : ForeignTable) :
    (db.supplant table).Lacks table := by
  cases table with
  | entries rows => rfl
  | categories => rfl
  | terms v => cases v <;> rfl

theorem Lacks.supplant {db : Database} {table : ForeignTable} (h : db.Lacks table)
    (other : ForeignTable) : (db.supplant other).Lacks table := by
  cases table with
  | entries rows => cases other with
    | terms v => cases v <;> exact h
    | _ => first | rfl | exact h
  | categories => cases other with
    | terms v => cases v <;> exact h
    | _ => first | rfl | exact h
  | terms v => cases other with
    | terms w => cases v <;> cases w <;> first | rfl | exact h
    | _ => cases v <;> exact h

theorem foldl_supplant_lacks {db : Database} {foreign : List ForeignTable} {table : ForeignTable}
    (h : table ∈ foreign ∨ db.Lacks table) : (foreign.foldl .supplant db).Lacks table := by
  induction foreign generalizing db with
  | nil => exact h.resolve_left (by simp)
  | cons first rest ih =>
    refine ih ?_
    rcases h with hmem | hlacks
    · rcases List.mem_cons.mp hmem with rfl | hrest
      · exact .inr (supplant_lacks db table)
      · exact .inl hrest
    · exact .inr (hlacks.supplant first)

/-- What is read from a table, and a fault where it is none of the catalogue's. -/
def listed {α : Type} (fault : StorageFault) : Option α → Except StoreFault α
  | some a => .ok a
  | none => .error (.storage fault)

/-- The page of a walk through a table of entries that is none of the catalogue's.  Its rows can be
counted alone, which does for a page behind the last of them. -/
def strangersPage (db : Database) (seed offset : Int) : Except StoreFault Page :=
  match db.strangers with
  | some total =>
    if offset < total then .error (.storage .scanFailed)
    else .ok ⟨[], offset, offset, total, seed⟩
  | none => .error (.storage .scanFailed)

/-- The page of a query from a database. -/
def page (db : Database) (pageSize generated : Nat) (q : Query) : Except StoreFault Page :=
  match db.entries with
  | some t => t.page pageSize generated q
  | none =>
    if q.isFiltered then .error (.storage .scanFailed)
    else db.strangersPage ((q.seed.getD generated : Nat) : Int) q.offset

end Database

namespace Access

variable {db : Database}

/-- The categories come from a database, whatever its table of them is. -/
theorem Gives.categoriesFrom (db : Database) : Gives Access.listCategories db
    (Database.listed (.listFailed Steps.categoriesName) db.categories) db := by
  cases h : db.categories with
  | some names => exact Gives.listCategories h
  | none =>
    exact Gives.onConnection_refused _
      (Steps.Fails.prepare (Steps.needing_of_missing h) (Steps.Fails.run h))

theorem Gives.vocabularyFrom (db : Database) (v : Vocabulary) : Gives (Access.listVocabulary v) db
    (Database.listed (.listFailed v.name) (db.terms v)) db := by
  cases h : db.terms v with
  | some terms => exact Gives.listVocabulary h
  | none =>
    exact Gives.onConnection_refused _
      (Steps.Fails.prepare (Steps.needing_of_missing h) (Steps.Fails.run h))

theorem Gives.scanMissing {pageSize : Nat} {q : Query} (h : db.entries = none)
    (hq : q.FitsScan pageSize) :
    Gives (Access.scan pageSize q) db (.error (.storage .scanFailed)) db := by
  have hobstacle : (if depthLimit < depthOf q.clauses then some .tooDeep
      else Steps.needing Steps.entriesName (·.entries) db) = some (.noTable Steps.entriesName) := by
    rw [if_neg (Nat.not_lt.mpr hq.depth), Steps.needing_of_missing h]
  refine Gives.onConnection_refused _ (Steps.Fails.prepare hobstacle
    (Steps.Gives.fails (Steps.Gives.bindTexts _)
      (Steps.Gives.fails (Steps.Gives.bindInteger hq.size)
        (Steps.Gives.fails (Steps.Gives.bindInteger hq.offset)
          (Steps.Fails.bind _ (Steps.Fails.run h))))))

theorem Gives.discoverMissing (pageSize : Nat) (seed offset : Int) (h : db.entries = none) :
    Gives (Access.discover pageSize seed offset) db (db.strangersPage seed offset) db := by
  unfold Database.strangersPage
  cases hstrangers : db.strangers with
  | none =>
    have hcount : db.count? = none := by rw [Database.count?, h, hstrangers]; rfl
    exact Gives.bind_error _ (Gives.onConnection_refused _ (Steps.Fails.prepare
      (Steps.needing_of_missing hcount) (Steps.Fails.bind _ (Steps.Fails.run hcount))))
  | some total =>
    have hcount : db.count? = some total := by rw [Database.count?, h, hstrangers]; rfl
    have hprepare : Steps.Gives none
        (Steps.prepare .countAll (Steps.needing Steps.entriesName (·.count?))) db () db :=
      Steps.Gives.prepare (Steps.needing_eq_none hcount)
    dsimp only
    by_cases hoffset : offset < total
    · rw [if_pos hoffset]
      refine Gives.bind_error _ (Gives.onConnection_refused _
        (hprepare.fails ((Steps.Gives.run hcount).fails ?_)))
      rw [if_pos hoffset]
      exact Steps.Fails.prepare (Steps.needing_of_missing h)
        (Steps.Fails.bind _ (Steps.Fails.run h))
    · have htable : Gives (Access.tableFrom offset) db (.ok (total, none)) db := by
        refine Gives.onConnection _ (hprepare.bind ((Steps.Gives.run hcount).bind ?_))
        rw [if_neg hoffset]
        exact Steps.Gives.pure _
      rw [if_neg hoffset]
      exact Gives.bind htable (Gives.pure _)

/-- Pages come from a database, whatever its table of entries is. -/
theorem Gives.retrieveFrom {pageSize : Nat} (generated : Nat) {q : Query}
    (hq : q.isFiltered → q.FitsScan pageSize) :
    Gives (Access.retrieve pageSize generated q) db (db.page pageSize generated q) db := by
  unfold Database.page
  cases h : db.entries with
  | some t => exact Gives.retrieve generated h hq
  | none =>
    unfold Access.retrieve
    cases hfiltered : q.isFiltered with
    | true => exact Gives.bind_error _ (Gives.scanMissing h (hq hfiltered))
    | false => exact Gives.discoverMissing pageSize _ _ h

end Access

end Catalogue
