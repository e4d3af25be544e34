import Catalogue.Proofs.Store.Operation

/-! What operations do to the connection of their store.  One that reads does what its steps do,
whichever frame they keep; one that writes is a transaction. -/

namespace Catalogue

open Catalogue.Filter Number

namespace Access

variable {α β : Type} {frame : Steps.Frame}

/-- The store after an operation, whether it failed or not. -/
def after (operation : Access α) (store : Store) : Store :=
  match operation store with
  | .ok _ store | .error _ store => store

theorem after_map (f : α → β) (operation : Access α) (store : Store) :
    (f <$> operation).after store = operation.after store := by
  rw [after, after]
  cases h : operation store with
  | ok a later => rw [map_of_ok h]
  | error e later => rw [map_of_error h]

/-- On an open store the operation does to its connection what the frame allows. -/
def Keeps (frame : Steps.Frame) (operation : Access α) : Prop :=
  ∀ path c, ∃ answer c', operation ⟨path, .connected c⟩ = resultOf answer ⟨path, .connected c'⟩ ∧
    match answer with
    | .ok _ => frame.taken c c'
    | .error _ => frame.failed c c'

theorem Keeps.pure (a : α) : Keeps frame (Pure.pure a) :=
  fun _ c => ⟨.ok a, c, rfl, frame.remembers c c.memory⟩

theorem Keeps.result (answer : Except StoreFault α) : Keeps frame (Access.result answer) := by
  intro path c
  have hsame := frame.remembers c c.memory
  cases answer with
  | ok a => exact ⟨.ok a, c, rfl, hsame⟩
  | error e => exact ⟨.error e, c, rfl, frame.failed_of_taken hsame⟩

theorem Keeps.bind {x : Access α} {f : α → Access β} (hx : Keeps frame x)
    (hf : ∀ a, Keeps frame (f a)) : Keeps frame (x >>= f) := by
  intro path c
  obtain ⟨answer, mid, h, hfirst⟩ := hx path c
  cases answer with
  | error e => exact ⟨.error e, mid, bind_of_error h f, hfirst⟩
  | ok a =>
    obtain ⟨answer, c', h', hsecond⟩ := hf a path mid
    refine ⟨answer, c', (bind_of_ok h f).trans h', ?_⟩
    cases answer with
    | ok b => exact frame.trans hfirst hsecond
    | error e => exact frame.trans_failed hfirst hsecond

theorem Keeps.map (f : α → β) {x : Access α} (hx : Keeps frame x) : Keeps frame (f <$> x) := by
  intro path c
  obtain ⟨answer, c', h, hkept⟩ := hx path c
  cases answer with
  | error e => exact ⟨.error e, c', map_of_error h f, hkept⟩
  | ok a => exact ⟨.ok (f a), c', map_of_ok h f, hkept⟩

/-- What steps do to a connection, an operation of them does to its store. -/
theorem Keeps.onConnection (fault : StorageFault) {steps : Steps α}
    (h : Steps.Keeps frame steps) : Keeps frame (Access.onConnection fault steps) := by
  intro path c
  have hkept := h.allows c
  simp only [Access.onConnection]
  cases hsteps : steps c with
  | ok a c' =>
    rw [hsteps] at hkept
    exact ⟨.ok a, c', rfl, hkept⟩
  | error e c' =>
    rw [hsteps] at hkept
    cases e with
    | refused refusal => exact ⟨.error (.storage fault), c', rfl, hkept⟩
    | unbound e => exact ⟨.error (.unbound e), c', rfl, hkept⟩

theorem Keeps.getEntry (pageSize : Nat) (id : Int) : Keeps frame (getEntry pageSize id) := by
  refine .bind (.onConnection _ (.bind (.prepare _ _) fun _ => .bind (.bindInteger _) fun _ =>
    .bind (.bindInteger _) fun _ => .bind (.run _ _) fun _ => .pure _)) fun row => ?_
  split
  · exact .pure _
  · exact .bind (.result _) fun _ => .pure _

theorem Keeps.scan (pageSize : Nat) (q : Query) : Keeps frame (scan pageSize q) := by
  refine .onConnection _ (.bind (.prepare _ _) fun _ => .bind (.bindTexts _) fun _ =>
    .bind (.bindInteger _) fun _ => .bind (.bindInteger _) fun _ => .bind (.run _ _) fun t => ?_)
  split
  · exact .pure _
  · exact .refuse _

theorem Keeps.recount (q : Query) : Keeps frame (recount q) := by
  refine .onConnection _ (.bind (.prepare _ _) fun _ => .bind (.bindTexts _) fun _ =>
    .bind (.run _ _) fun t => ?_)
  split
  · exact .pure _
  · exact .refuse _

theorem Keeps.totalOf (pageSize : Nat) (q : Query) (rows : List CountedRow) :
    Keeps frame (totalOf pageSize q rows) := by
  unfold Access.totalOf
  split
  · exact .pure _
  · split
    · exact .recount q
    · exact .pure _

theorem Keeps.retrieve (pageSize generated : Nat) (q : Query) :
    Keeps frame (retrieve pageSize generated q) := by
  unfold Access.retrieve
  split
  · exact .bind (.scan pageSize q) fun rows => .bind (.result _) fun entries =>
      .bind (.totalOf pageSize q rows) fun _ => .pure _
  · refine .bind (.onConnection _ (.bind (.prepare _ _) fun _ => .bind (.run _ _) fun total => ?_))
      fun found => ?_
    · split
      · exact .bind (.prepare _ _) fun _ => .bind (.run _ _) fun _ => .pure _
      · exact .pure _
    · split
      · exact .result _
      · exact .pure _

theorem Keeps.listCategories : Keeps frame listCategories :=
  .onConnection _ (.bind (.prepare _ _) fun _ => .run _ _)

theorem Keeps.listVocabulary (v : Vocabulary) : Keeps frame (listVocabulary v) :=
  .onConnection _ (.bind (.prepare _ _) fun _ => .run _ _)

end Access

namespace Operation

/-- The operation saves or deletes an entry. -/
def IsWrite : Operation → Prop
  | .insert .. | .insertLoose | .update .. | .updateLoose _ | .delete _ => True
  | _ => False

/-- Every operation that is no write only reads. -/
theorem keeps {operation : Operation} (h : ¬operation.IsWrite) (frame : Steps.Frame) :
    Access.Keeps frame operation.run := by
  cases operation with
  | get pageSize id => exact .map _ (.getEntry pageSize id)
  | retrieve pageSize generated q => exact .map _ (.retrieve pageSize generated q)
  | categories => exact .map _ .listCategories
  | vocabulary v => exact .map _ (.listVocabulary v)
  | _ => exact (h trivial).elim

/-- A write is a transaction whose steps neither begin nor commit one. -/
theorem IsWrite.eq_transaction {w : Operation} (hw : w.IsWrite) :
    ∃ (α : Type) (f : α → Answer) (fault : StorageFault) (steps : Steps α),
      Steps.KeepsStart steps ∧
        w.run = f <$> Access.onConnection fault (Steps.transaction steps) := by
  cases w with
  | insert form today =>
    exact ⟨_, _, _, _, .bind (.insertEntry form today) fun _ =>
      .bind (Steps.KeepsStart.recordVocabulary form) fun _ => .pure _, rfl⟩
  | update id form =>
    refine ⟨_, _, _, _, .bind (.updateEntry id form) fun found => ?_, rfl⟩
    split
    · exact .bind (Steps.KeepsStart.recordVocabulary form) fun _ => .pure _
    · exact .pure _
  | delete id => exact ⟨_, _, _, _, .deleteEntry id, rfl⟩
  | insertLoose => exact ⟨_, _, _, _, .refuseTexts _, rfl⟩
  | updateLoose id => exact ⟨_, _, _, _, .refuseTexts _, rfl⟩
  | _ => exact hw.elim

/-- No operation leaves a transaction open. -/
theorem settling (operation : Operation) : Access.Keeps .settling operation.run := by
  by_cases hw : operation.IsWrite
  · obtain ⟨_, f, fault, steps, hsteps, hrun⟩ := hw.eq_transaction
    rw [hrun]
    exact .map f (.onConnection fault (Steps.settling_transaction hsteps))
  · exact keeps hw .settling

/-- On a closed store every operation fails and changes nothing. -/
theorem run_closed (operation : Operation) {store : Store} (h : store.isOpen = false) :
    operation.run store = .error (.storage .closed) store := by
  obtain ⟨path, contents | c⟩ := store
  · cases operation with
    | retrieve pageSize generated q =>
      have hretrieve : Access.retrieve pageSize generated q ⟨path, .closed contents⟩ =
          .error (.storage .closed) ⟨path, .closed contents⟩ := by
        unfold Access.retrieve
        split <;> rfl
      exact map_of_error hretrieve _
    | _ => rfl
  · cases h

theorem after_closed (operation : Operation) {store : Store} (h : store.isOpen = false) :
    operation.run.after store = store := by rw [Access.after, run_closed operation h]

/-- On an open store every operation leaves a connection on which none is open if none was. -/
theorem exists_after (operation : Operation) (path : Path) (c : StoreConnection) :
    ∃ c', operation.run.after ⟨path, .connected c⟩ = ⟨path, .connected c'⟩ ∧
      (c.IsSettled → c'.start = none) ∧ c.outside.Leaves c'.outside := by
  obtain ⟨answer, c', hrun, hkept⟩ := operation.settling path c
  cases answer <;> exact ⟨c', by rw [Access.after, hrun]; rfl, hkept⟩

end Operation

end Catalogue
