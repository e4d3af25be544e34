import Catalogue.Store.Statement

/-! Steps on a connection: what they do to the database and to the open transaction, whatever the
connection remembers of the statements before them. -/

namespace Catalogue

section State

variable {ε σ α β : Type} {x : EStateM ε σ α} {s s' : σ}

theorem get_bind (f : σ → EStateM ε σ α) (s : σ) : (get >>= f : EStateM ε σ α) s = f s s := rfl

theorem bind_of_ok {a : α} (h : x s = .ok a s') (f : α → EStateM ε σ β) :
    (x >>= f) s = f a s' := by
  change EStateM.bind x f s = _
  rw [EStateM.bind, h]

theorem bind_of_error {e : ε} (h : x s = .error e s') (f : α → EStateM ε σ β) :
    (x >>= f) s = .error e s' := by
  change EStateM.bind x f s = _
  rw [EStateM.bind, h]

theorem exists_of_bind_ok {f : α → EStateM ε σ β} {b : β} (h : (x >>= f) s = .ok b s') :
    ∃ a mid, x s = .ok a mid ∧ f a mid = .ok b s' := by
  cases hx : x s with
  | ok a mid => exact ⟨a, mid, rfl, (bind_of_ok hx f).symm.trans h⟩
  | error e mid =>
    rw [bind_of_error hx] at h
    cases h

theorem cases_of_bind_error {f : α → EStateM ε σ β} {e : ε} (h : (x >>= f) s = .error e s') :
    x s = .error e s' ∨ ∃ a mid, x s = .ok a mid ∧ f a mid = .error e s' := by
  cases hx : x s with
  | ok a mid => exact .inr ⟨a, mid, rfl, (bind_of_ok hx f).symm.trans h⟩
  | error e' mid =>
    rw [bind_of_error hx] at h
    cases h
    exact .inl rfl

theorem map_of_ok {a : α} (h : x s = .ok a s') (f : α → β) : (f <$> x) s = .ok (f a) s' := by
  change EStateM.map f x s = _
  rw [EStateM.map, h]

theorem map_of_error {e : ε} (h : x s = .error e s') (f : α → β) : (f <$> x) s = .error e s' := by
  change EStateM.map f x s = _
  rw [EStateM.map, h]

end State

namespace Outside

/-- What the outside holds later: a part of it is used up. -/
def Leaves (before after : Outside) : Prop :=
  after.statements <:+ before.statements ∧ after.commits <:+ before.commits

theorem Leaves.refl (outside : Outside) : outside.Leaves outside :=
  ⟨List.suffix_rfl, List.suffix_rfl⟩

theorem Leaves.trans {before mid after : Outside} (h : before.Leaves mid)
    (h' : mid.Leaves after) : before.Leaves after := ⟨h'.1.trans h.1, h'.2.trans h.2⟩

theorem Leaves.quiet {after : Outside} (h : quiet.Leaves after) : after = quiet := by
  obtain ⟨statements, commits⟩ := after
  obtain rfl : statements = [] := List.suffix_nil.mp h.1
  obtain rfl : commits = [] := List.suffix_nil.mp h.2
  rfl

end Outside

/-- No transaction is open on the connection, and no commit that is refused will leave one open. -/
def Connection.IsSettled (c : StoreConnection) : Prop :=
  c.start = none ∧ ∀ i, some i ∈ c.outside.commits → i.rollsBack

namespace Steps

open Number

variable {α β : Type} {start : Option Database} {db mid after : Database} {a : α} {b : β}

/-! ### Steps that succeed -/

/-- While the contents to go back to are `start`, the steps give `a` and take the database `db` to
`after`; only the memory of the connection changes besides. -/
def Gives (start : Option Database) (steps : Steps α) (db : Database) (a : α)
    (after : Database) : Prop :=
  ∀ memory, ∃ memory', steps ⟨db, start, memory, .quiet⟩ = .ok a ⟨after, start, memory', .quiet⟩

theorem Gives.pure (a : α) : Gives start (Pure.pure a) db a db := fun memory => ⟨memory, rfl⟩

theorem Gives.bind {x : Steps α} {f : α → Steps β} (hx : Gives start x db a mid)
    (hf : Gives start (f a) mid b after) : Gives start (x >>= f) db b after := by
  intro memory
  obtain ⟨memory', h⟩ := hx memory
  obtain ⟨memory'', h'⟩ := hf memory'
  exact ⟨memory'', (bind_of_ok h f).trans h'⟩

theorem Gives.get {f : StoreConnection → Steps β}
    (h : ∀ c : StoreConnection, c.contents = db → Gives start (f c) db b after) :
    Gives start (MonadState.get >>= f) db b after := by
  intro memory
  obtain ⟨memory', h'⟩ := h ⟨db, start, memory, .quiet⟩ rfl memory
  exact ⟨memory', h'⟩

theorem Gives.accept : Gives start accept db () db := fun _ => ⟨_, rfl⟩

theorem Gives.setDatabase : Gives start (setDatabase after) db () after := fun _ => ⟨_, rfl⟩

theorem Gives.remember (change : Memory → Memory) :
    Gives start (modify fun c => { c with memory := change c.memory }) db () db := fun _ => ⟨_, rfl⟩

theorem Gives.prepare {statement : Statement} {obstacle : Database → Option Refusal}
    (h : obstacle db = none) : Gives start (prepare statement obstacle) db () db := by
  refine Gives.get fun c hc => ?_
  rw [hc, h]
  split
  · exact Gives.bind Gives.accept (Gives.remember (·.use statement))
  · exact Gives.remember (·.use statement)

theorem Gives.bindInteger {n : Int} (h : FitsWord n) : Gives start (Steps.bind n) db () db := by
  rw [Steps.bind, if_pos h]
  exact Gives.bind Gives.accept (Gives.pure ())

theorem Gives.bindTexts (texts : List String) : Gives start (Steps.bindTexts texts) db () db := by
  unfold Steps.bindTexts
  split
  · exact Gives.pure ()
  · exact Gives.accept

/-- While the outside is quiet, it lets every statement run. -/
theorem Gives.meet : Gives start meet db () db := fun _ => ⟨_, rfl⟩

theorem Gives.run {name : String} {table : Database → Option α} (h : table db = some a) :
    Gives start (run name table) db a db := by
  refine Gives.bind Gives.meet (Gives.get fun c hc => ?_)
  rw [hc, h]
  exact Gives.bind Gives.accept (Gives.pure a)

theorem needing_of_missing {name : String} {table : Database → Option α} (h : table db = none) :
    needing name table db = some (.noTable name) := by simp [needing, h]

theorem needing_eq_none {name : String} {table : Database → Option α} (h : table db = some a) :
    needing name table db = none := by simp [needing, h]

/-- While the outside is quiet, a transaction begins. -/
theorem begin_quiet (db : Database) (memory : Memory) : ∃ memory',
    begin_ ⟨db, none, memory, .quiet⟩ = .ok () ⟨db, some db, memory', .quiet⟩ := by
  obtain ⟨memory', h⟩ : ∃ memory', Steps.prepare .begin (fun _ => none)
      ⟨db, none, memory, .quiet⟩ = .ok () ⟨db, none, memory', .quiet⟩ := Gives.prepare rfl memory
  exact ⟨_, bind_of_ok h _⟩

/-- What the steps of a transaction do, the transaction does. -/
theorem Gives.transaction {steps : Steps α} (h : Gives (some db) steps db a after) :
    Gives none (transaction steps) db a after := by
  intro memory
  obtain ⟨memory', hbegin⟩ := begin_quiet db memory
  obtain ⟨memory'', hsteps⟩ := h memory'
  refine ⟨{ memory'' with refused := none }, ?_⟩
  rw [Steps.transaction, Connection.transaction, bind_of_ok hbegin, hsteps]
  rfl

/-! ### Steps that fail -/

variable {P : StatementFault → Prop}

/-- While the contents to go back to are `start`, the steps fail with a fault of which `P` holds,
and take the database `db` to `after`. -/
def Fails (P : StatementFault → Prop) (start : Option Database) (steps : Steps α)
    (db after : Database) : Prop :=
  ∀ memory, ∃ e memory', P e ∧
    steps ⟨db, start, memory, .quiet⟩ = .error e ⟨after, start, memory', .quiet⟩

/-- The database refuses a statement. -/
def IsRefusal (e : StatementFault) : Prop := ∃ refusal, e = .refused refusal

theorem Fails.refuse (refusal : Refusal) :
    Fails IsRefusal start (refuse refusal : Steps α) db db := fun _ => ⟨_, _, ⟨refusal, rfl⟩, rfl⟩

theorem Fails.failToBind (fault : BindFault) :
    Fails (fun _ => True) start (failToBind fault : Steps α) db db := by
  intro memory
  obtain ⟨prepared, refused⟩ := memory
  cases refused <;> exact ⟨_, _, trivial, rfl⟩

theorem Fails.bindInteger {n : Int} (h : ¬FitsWord n) :
    Fails (fun _ => True) start (Steps.bind n) db db := by
  rw [Steps.bind, if_neg h]
  exact Fails.failToBind _

theorem Fails.bind {x : Steps α} (f : α → Steps β) (hx : Fails P start x db after) :
    Fails P start (x >>= f) db after := by
  intro memory
  obtain ⟨e, memory', he, h⟩ := hx memory
  exact ⟨e, memory', he, bind_of_error h f⟩

theorem Gives.fails {x : Steps α} {f : α → Steps β} (hx : Gives start x db a mid)
    (hf : Fails P start (f a) mid after) : Fails P start (x >>= f) db after := by
  intro memory
  obtain ⟨memory', h⟩ := hx memory
  obtain ⟨e, memory'', he, h'⟩ := hf memory'
  exact ⟨e, memory'', he, (bind_of_ok h f).trans h'⟩

/-- A statement against which something stands is refused, unless it is kept prepared and the rest
goes wrong. -/
theorem Fails.prepare {statement : Statement} {obstacle : Database → Option Refusal}
    {f : Unit → Steps α} {refusal : Refusal} (h : obstacle db = some refusal)
    (hf : Fails IsRefusal start (f ()) db db) :
    Fails IsRefusal start (prepare statement obstacle >>= f) db db := by
  intro memory
  cases hkept : memory.prepared.contains statement with
  | true =>
    obtain ⟨e, memory', he, hrest⟩ := hf (memory.use statement)
    refine ⟨e, memory', he, ?_⟩
    have hprepared : Steps.prepare statement obstacle ⟨db, start, memory, .quiet⟩ =
        .ok () ⟨db, start, memory.use statement, .quiet⟩ := by
      rw [Steps.prepare, get_bind]
      dsimp only
      rw [hkept]
      rfl
    exact (bind_of_ok hprepared f).trans hrest
  | false =>
    refine ⟨.refused refusal, { memory with refused := some refusal }, ⟨refusal, rfl⟩, ?_⟩
    have hprepared : Steps.prepare statement obstacle ⟨db, start, memory, .quiet⟩ =
        .error (.refused refusal)
          ⟨db, start, { memory with refused := some refusal }, .quiet⟩ := by
      rw [Steps.prepare, get_bind]
      dsimp only
      rw [hkept, h]
      rfl
    exact bind_of_error hprepared f

theorem Fails.run {name : String} {table : Database → Option α} (h : table db = none) :
    Fails IsRefusal start (run name table) db db := by
  refine Gives.fails Gives.meet fun memory => ?_
  obtain ⟨e, memory', he, hrefused⟩ := Fails.refuse (.noTable name) memory
  refine ⟨e, memory', he, ?_⟩
  rw [get_bind]
  dsimp only
  rw [h]
  exact hrefused

/-- A statement that is not kept prepared is refused where something stands against it. -/
theorem prepare_refused {statement : Statement} {obstacle : Database → Option Refusal}
    {refusal : Refusal} (h : obstacle db = some refusal) {memory : Memory}
    (hkept : memory.prepared.contains statement = false) :
    ∃ c, prepare statement obstacle ⟨db, start, memory, .quiet⟩ = .error (.refused refusal) c := by
  refine ⟨⟨db, start, { memory with refused := some refusal }, .quiet⟩, ?_⟩
  rw [prepare, get_bind]
  dsimp only
  rw [hkept, h]
  rfl

/-- A transaction in which a step fails goes back to its start. -/
theorem Fails.transaction {steps : Steps α} (h : Fails P (some db) steps db after) :
    Fails P none (transaction steps) db db := by
  intro memory
  obtain ⟨memory', hbegin⟩ := begin_quiet db memory
  obtain ⟨e, memory'', he, hsteps⟩ := h memory'
  refine ⟨e, { memory'' with refused := none }, he, ?_⟩
  rw [Steps.transaction, Connection.transaction, bind_of_ok hbegin, hsteps]
  rfl

/-! ### What steps leave alone -/

/-- The connection past the next statement. -/
def past (c : StoreConnection) : StoreConnection :=
  { c with outside := { c.outside with statements := c.outside.statements.tail } }

/-- What steps may do to a connection: where they succeed it is `taken` to another one, and where
they fail it is `failed` to another one.  What the connection remembers may always change, and so
may what the outside holds against the next statement. -/
structure Frame where
  taken : StoreConnection → StoreConnection → Prop
  failed : StoreConnection → StoreConnection → Prop
  remembers (c : StoreConnection) (memory : Memory) : taken c { c with memory := memory }
  failed_of_taken {c c' : StoreConnection} : taken c c' → failed c c'
  trans {c mid c' : StoreConnection} : taken c mid → taken mid c' → taken c c'
  trans_failed {c mid c' : StoreConnection} : taken c mid → failed mid c' → failed c c'
  passes (c : StoreConnection) : c.outside.statements.head?.join = none → taken c (past c)
  interrupts (c : StoreConnection) (i : Interruption Refusal) (memory : Memory) :
    c.outside.statements.head?.join = some i →
      failed c { (past c).struck i with memory := memory }

/-- The result is one that steps may have. -/
def Frame.Allows {ε : Type} (frame : Frame) (c : StoreConnection) :
    EStateM.Result ε StoreConnection α → Prop
  | .ok _ c' => frame.taken c c'
  | .error _ c' => frame.failed c c'

/-- The connection after some steps, whether they failed or not. -/
def connectionAfter : EStateM.Result StatementFault StoreConnection α → StoreConnection
  | .ok _ c | .error _ c => c

/-- Where a frame asks the same of steps that fail, it holds of the connection after the steps. -/
theorem Frame.Allows.taken_after {frame : Frame} {c : StoreConnection}
    {result : EStateM.Result StatementFault StoreConnection α} (h : frame.Allows c result)
    (hsame : ∀ {c'}, frame.failed c c' → frame.taken c c') :
    frame.taken c (connectionAfter result) := by
  cases result with
  | ok a c' => exact h
  | error e c' => exact hsame h

/-- The steps do to a connection what the frame allows. -/
structure Keeps (frame : Frame) (steps : Steps α) : Prop where
  allows (c : StoreConnection) : frame.Allows c (steps c)

section Keeps

variable {frame : Frame}

theorem Keeps.pure (a : α) : Keeps frame (Pure.pure a) := ⟨fun c => frame.remembers c c.memory⟩

theorem Keeps.throw (e : StatementFault) : Keeps frame (throw e : Steps α) :=
  ⟨fun c => frame.failed_of_taken (frame.remembers c c.memory)⟩

theorem Keeps.get : Keeps frame MonadState.get := ⟨fun c => frame.remembers c c.memory⟩

theorem Keeps.bind {x : Steps α} {f : α → Steps β} (hx : Keeps frame x)
    (hf : ∀ a, Keeps frame (f a)) : Keeps frame (x >>= f) := by
  refine ⟨fun c => ?_⟩
  have hfirst := hx.allows c
  cases h : x c with
  | ok a mid =>
    rw [h] at hfirst
    have hsecond := (hf a).allows mid
    rw [bind_of_ok h f]
    cases h' : f a mid with
    | ok b c' =>
      rw [h'] at hsecond
      exact frame.trans hfirst hsecond
    | error e c' =>
      rw [h'] at hsecond
      exact frame.trans_failed hfirst hsecond
  | error e c' =>
    rw [h] at hfirst
    rw [bind_of_error h f]
    exact hfirst

theorem Keeps.remember (change : Memory → Memory) :
    Keeps frame (modify fun c => { c with memory := change c.memory }) :=
  ⟨fun c => frame.remembers c _⟩

theorem Keeps.accept : Keeps frame accept := ⟨fun c => frame.remembers c _⟩

theorem Keeps.refuse (refusal : Refusal) : Keeps frame (refuse refusal : Steps α) :=
  .bind (.remember fun memory => { memory with refused := some refusal }) fun _ => .throw _

theorem Keeps.prepare (statement : Statement) (obstacle : Database → Option Refusal) :
    Keeps frame (prepare statement obstacle) := by
  refine .bind .get fun c => ?_
  split
  · split
    · exact .bind (.refuse _) fun _ => .remember (·.use statement)
    · exact .bind .accept fun _ => .remember (·.use statement)
  · exact .remember (·.use statement)

theorem Keeps.failToBind (fault : BindFault) : Keeps frame (failToBind fault : Steps α) := by
  refine .bind .get fun c => ?_
  split <;> exact .throw _

theorem Keeps.bindFitting (value : Except BindFault α) : Keeps frame (bindFitting value) := by
  unfold Steps.bindFitting
  split
  · exact .failToBind _
  · exact .bind .accept fun _ => .pure _

theorem Keeps.bindInteger (n : Int) : Keeps frame (Steps.bind n) := .bindFitting _

theorem Keeps.bindTexts (texts : List String) : Keeps frame (Steps.bindTexts texts) := by
  unfold Steps.bindTexts
  split
  · exact .pure _
  · exact .accept

theorem nextStatement_eq (c : StoreConnection) :
    nextStatement c = .ok c.outside.statements.head?.join (past c) := by
  obtain ⟨contents, start, memory, ⟨_ | ⟨next, rest⟩, commits⟩⟩ := c <;> rfl

theorem meet_of_none {c : StoreConnection} (h : c.outside.statements.head?.join = none) :
    meet c = .ok () (past c) := by
  rw [Steps.meet, bind_of_ok (nextStatement_eq c), h]
  rfl

theorem meet_of_some {c : StoreConnection} {i : Interruption Refusal}
    (h : c.outside.statements.head?.join = some i) : ∃ memory, meet c = .error (.refused i.fault)
      { (past c).struck i with memory := memory } := by
  rw [Steps.meet, bind_of_ok (nextStatement_eq c), h]
  exact ⟨_, rfl⟩

theorem Keeps.meet : Keeps frame meet := by
  refine ⟨fun c => ?_⟩
  cases h : c.outside.statements.head?.join with
  | none =>
    rw [meet_of_none h]
    exact frame.passes c h
  | some i =>
    obtain ⟨memory, hmeet⟩ := meet_of_some h
    rw [hmeet]
    exact frame.interrupts c i memory h

theorem Keeps.run (name : String) (table : Database → Option α) :
    Keeps frame (run name table) := by
  refine .bind .meet fun _ => .bind .get fun c => ?_
  split
  · exact .refuse _
  · exact .bind .accept fun _ => .pure _

theorem Keeps.forM {items : List β} {f : β → Steps PUnit} (h : ∀ item, Keeps frame (f item)) :
    Keeps frame (items.forM f) := by
  induction items with
  | nil => exact .pure _
  | cons item items ih => exact .bind (h item) fun _ => ih

end Keeps

/-- Where the steps succeed, `view` shows the same of the database and of the contents to go back
to, and where they fail it does so if the outside is quiet. -/
def Frame.viewing {γ : Type} (view : Database → Option Database → γ) : Frame where
  taken c c' := view c'.contents c'.start = view c.contents c.start ∧ c.outside.Leaves c'.outside
  failed c c' := c.outside = .quiet →
    view c'.contents c'.start = view c.contents c.start ∧ c.outside.Leaves c'.outside
  remembers _ _ := ⟨rfl, .refl _⟩
  failed_of_taken h _ := h
  trans h h' := ⟨h'.1.trans h.1, h.2.trans h'.2⟩
  trans_failed := by
    rintro c mid c' ⟨hview, hleaves⟩ hfailed hquiet
    rw [hquiet] at hleaves ⊢
    obtain ⟨hview', hleaves'⟩ := hfailed hleaves.quiet
    rw [hleaves.quiet] at hleaves'
    exact ⟨hview'.trans hview, hleaves'⟩
  passes _ _ := ⟨rfl, List.tail_suffix _, List.suffix_rfl⟩
  interrupts c i _ h hquiet := by
    rw [hquiet] at h
    cases h

/-- No transaction is begun, and none is committed; where the steps fail, the open one may be rolled
back, but not while the outside is quiet. -/
def Frame.within : Frame where
  taken c c' := c'.start = c.start ∧ c.outside.Leaves c'.outside
  failed c c' := c.outside.Leaves c'.outside ∧ (c'.start = c.start ∨
    c'.start = none ∧ (∀ db ∈ c.start, c'.contents = db) ∧ c.outside ≠ .quiet)
  remembers _ _ := ⟨rfl, .refl _⟩
  failed_of_taken h := ⟨h.2, .inl h.1⟩
  trans h h' := ⟨h'.1.trans h.1, h.2.trans h'.2⟩
  trans_failed := by
    rintro c mid c' ⟨hstart, hleaves⟩ ⟨hleaves', hfailed⟩
    rw [hstart] at hfailed
    refine ⟨hleaves.trans hleaves', hfailed.imp_right fun h => ⟨h.1, h.2.1, fun hquiet => ?_⟩⟩
    rw [hquiet] at hleaves
    exact h.2.2 hleaves.quiet
  passes _ _ := ⟨rfl, List.tail_suffix _, List.suffix_rfl⟩
  interrupts c i _ h := by
    obtain ⟨fault, _ | _⟩ := i
    · exact ⟨⟨List.tail_suffix _, List.suffix_rfl⟩, .inl rfl⟩
    · refine ⟨⟨List.tail_suffix _, List.suffix_rfl⟩, .inr ⟨rfl, fun db hdb => ?_, fun hquiet => ?_⟩⟩
      · change c.start.getD c.contents = db
        rw [hdb, Option.getD_some]
      · rw [hquiet] at h
        cases h

/-- Where no transaction is open, and none will be left open, none is open afterwards. -/
def Frame.settling : Frame where
  taken c c' := (c.IsSettled → c'.start = none) ∧ c.outside.Leaves c'.outside
  failed c c' := (c.IsSettled → c'.start = none) ∧ c.outside.Leaves c'.outside
  remembers _ _ := ⟨fun h => h.1, .refl _⟩
  failed_of_taken h := h
  trans h h' := ⟨fun hc => h'.1 ⟨h.1 hc, fun i hi => hc.2 i (h.2.2.subset hi)⟩, h.2.trans h'.2⟩
  trans_failed h h' :=
    ⟨fun hc => h'.1 ⟨h.1 hc, fun i hi => hc.2 i (h.2.2.subset hi)⟩, h.2.trans h'.2⟩
  passes _ _ := ⟨fun h => h.1, List.tail_suffix _, List.suffix_rfl⟩
  interrupts c i _ _ := by
    refine ⟨fun h => ?_, ?_⟩
    · obtain ⟨fault, _ | _⟩ := i
      · exact h.1
      · rfl
    · obtain ⟨fault, _ | _⟩ := i <;> exact ⟨List.tail_suffix _, List.suffix_rfl⟩

/-- The steps neither begin nor commit a transaction. -/
abbrev KeepsStart (steps : Steps α) : Prop := Keeps .within steps

theorem Keeps.setDatabase (db : Database) : KeepsStart (setDatabase db) :=
  ⟨fun _ => ⟨rfl, .refl _⟩⟩

/-- A change of the database that the frame allows. -/
theorem Keeps.change {frame : Frame} (change : Database → Database)
    (h : ∀ c : StoreConnection, frame.taken c { c with contents := change c.contents }) :
    Keeps frame (do Steps.setDatabase (change (← MonadState.get).contents)) := ⟨fun c => h c⟩

/-! ### Transactions -/

variable {c c' begun : StoreConnection} {e : StatementFault}

/-- What the outside holds against a transaction that begins. -/
theorem begin_eq (c : StoreConnection) : ∃ memory,
    begin_ c = Steps.remember
      (Connection.begin_ .nested (c.outside.statements.head?.join.map (·.fault)))
      { past c with memory := memory } := by
  obtain ⟨memory, h⟩ : ∃ memory, Steps.prepare .begin (fun _ => none) c =
      .ok () { c with memory := memory } := by
    rw [Steps.prepare, get_bind]
    cases c.memory.prepared.contains .begin <;> exact ⟨_, rfl⟩
  exact ⟨memory, by rw [begin_, bind_of_ok h, bind_of_ok (nextStatement_eq _)]; rfl⟩

/-- A transaction begins where none is open, or the begin is refused. -/
theorem begin_cases (c : StoreConnection) : ∃ memory outside, c.outside.Leaves outside ∧
    (c.start = none ∧ begin_ c = .ok () ⟨c.contents, some c.contents, memory, outside⟩ ∨
      ∃ refusal, begin_ c = .error (.refused refusal) ⟨c.contents, c.start, memory, outside⟩) := by
  obtain ⟨memory, hbegin⟩ := begin_eq c
  have hleaves : c.outside.Leaves (past c).outside := ⟨List.tail_suffix _, List.suffix_rfl⟩
  rw [hbegin]
  cases c.outside.statements.head?.join with
  | some i => exact ⟨_, _, hleaves, .inr ⟨i.fault, rfl⟩⟩
  | none =>
    obtain ⟨contents, start, before, outside⟩ := c
    cases start with
    | some db => exact ⟨_, _, hleaves, .inr ⟨.nested, rfl⟩⟩
    | none => exact ⟨_, _, hleaves, .inl ⟨rfl, rfl⟩⟩

/-- Where a transaction begins, none is open before. -/
theorem begin_ok (h : begin_ c = .ok () begun) : c.start = none ∧ begun.contents = c.contents ∧
    begun.start = some c.contents ∧ c.outside.Leaves begun.outside := by
  obtain ⟨memory, outside, hleaves, ⟨hidle, hbegin⟩ | ⟨refusal, hbegin⟩⟩ := begin_cases c
  · rw [hbegin] at h
    cases h
    exact ⟨hidle, rfl, rfl, hleaves⟩
  · rw [hbegin] at h
    cases h

/-- Where no transaction begins, the contents and the open transaction stay as they are. -/
theorem begin_error (h : begin_ c = .error e c') : c'.contents = c.contents ∧
    c'.start = c.start ∧ c.outside.Leaves c'.outside := by
  obtain ⟨memory, outside, hleaves, ⟨hidle, hbegin⟩ | ⟨refusal, hbegin⟩⟩ := begin_cases c
  · rw [hbegin] at h
    cases h
  · rw [hbegin] at h
    cases h
    exact ⟨rfl, rfl, hleaves⟩

/-- A commit ends the open transaction, or it is refused. -/
theorem commit_cases (c : StoreConnection) : ∃ memory outside, c.outside.Leaves outside ∧
    (commit c = .ok () ⟨c.contents, none, memory, outside⟩ ∨
      ∃ i, some i ∈ c.outside.commits ∧ commit c = .error (.refused i.fault)
        { (⟨c.contents, c.start, c.memory, outside⟩ : StoreConnection).struck i with memory }) := by
  obtain ⟨contents, start, memory, ⟨statements, commits⟩⟩ := c
  cases start with
  | none => exact ⟨_, _, .refl _, .inl rfl⟩
  | some db =>
    have hleaves : Outside.Leaves ⟨statements, commits⟩ ⟨statements, commits.tail⟩ :=
      ⟨List.suffix_rfl, List.tail_suffix _⟩
    have hcommit : commit ⟨contents, some db, memory, ⟨statements, commits⟩⟩ =
        Steps.remember (Connection.commit commits.head?.join)
          ⟨contents, some db, memory, ⟨statements, commits.tail⟩⟩ := by cases commits <;> rfl
    rw [hcommit]
    cases hnext : commits.head?.join with
    | none => exact ⟨_, _, hleaves, .inl rfl⟩
    | some i =>
      have hmem : some i ∈ commits := List.mem_of_mem_head? (Option.join_eq_some_iff.mp hnext)
      exact ⟨_, _, hleaves, .inr ⟨i, hmem, rfl⟩⟩

theorem commit_ok (h : commit c = .ok () c') : c'.contents = c.contents ∧ c'.start = none ∧
    c.outside.Leaves c'.outside := by
  obtain ⟨memory, outside, hleaves, hcommit | ⟨i, hi, hcommit⟩⟩ := commit_cases c
  · rw [hcommit] at h
    cases h
    exact ⟨rfl, rfl, hleaves⟩
  · rw [hcommit] at h
    cases h

/-- A commit that is refused rolls its transaction back or leaves it open. -/
theorem commit_error (h : commit c = .error e c') : c'.settled = c.settled ∧
    c.outside.Leaves c'.outside ∧
    ∃ i, some i ∈ c.outside.commits ∧ (i.rollsBack → c'.start = none) := by
  obtain ⟨memory, outside, hleaves, hcommit | ⟨i, hi, hcommit⟩⟩ := commit_cases c
  · rw [hcommit] at h
    cases h
  · rw [hcommit] at h
    cases h
    obtain ⟨fault, _ | _⟩ := i
    · exact ⟨rfl, hleaves, _, hi, fun hrolls => by cases hrolls⟩
    · exact ⟨rfl, hleaves, _, hi, fun _ => rfl⟩

/-- After a rollback the contents are those at the start of the open transaction. -/
theorem takeBack_eq (c : StoreConnection) : c.takeBack.contents = c.settled ∧
    c.takeBack.start = none ∧ c.takeBack.outside = c.outside := by
  obtain ⟨contents, start, memory, outside⟩ := c
  cases start <;> exact ⟨rfl, rfl, rfl⟩

/-- A transaction that succeeds begins, takes its steps and is committed. -/
theorem transaction_ok {steps : Steps α} (h : transaction steps c = .ok a c') : ∃ begun done,
    begin_ c = .ok () begun ∧ steps begun = .ok a done ∧ commit done = .ok () c' := by
  rw [transaction, Connection.transaction] at h
  cases hsteps : (do begin_; steps : Steps α) c with
  | error e failed =>
    rw [hsteps] at h
    cases h
  | ok b done =>
    rw [hsteps] at h
    obtain ⟨_, begun, hbegin, hbegun⟩ := exists_of_bind_ok hsteps
    obtain ⟨_, after, hcommit, hreturn⟩ := exists_of_bind_ok h
    cases hreturn
    exact ⟨begun, done, hbegin, hbegun, hcommit⟩

/-- The failure of steps leaves the contents to go back to. -/
theorem settled_of_failed {failed : StoreConnection} {db : Database}
    (hstart : begun.start = some db) (h : Frame.within.failed begun failed) :
    failed.settled = db := by
  obtain ⟨-, hkept | ⟨hnone, hcontents, -⟩⟩ := h
  · rw [Connection.settled, hkept, hstart, Option.getD_some]
  · rw [Connection.settled, hnone, Option.getD_none]
    exact hcontents db hstart

/-- A transaction that fails, at whichever of its statements, goes back to the contents at its
start, or, inside an open transaction, to those at the start of that one.  None is open afterwards,
unless a commit was refused that leaves its transaction open; closing the connection goes back
then. -/
theorem transaction_error {steps : Steps α} (hsteps : KeepsStart steps)
    (h : transaction steps c = .error e c') :
    c'.settled = c.settled ∧ c.outside.Leaves c'.outside ∧
      ((∀ i, some i ∈ c.outside.commits → i.rollsBack) → c'.start = none) := by
  rw [transaction, Connection.transaction] at h
  cases hrun : (do begin_; steps : Steps α) c with
  | error e' failed =>
    rw [hrun] at h
    cases h
    obtain ⟨hcontents, hstart, houtside⟩ := takeBack_eq failed
    suffices failed.settled = c.settled ∧ c.outside.Leaves failed.outside by
      rw [Connection.settled, hstart, Option.getD_none, hcontents, houtside]
      exact ⟨this.1, this.2, fun _ => rfl⟩
    obtain hbegin | ⟨_, begun, hbegin, hfailed⟩ := cases_of_bind_error hrun
    · obtain ⟨hsame, hstart, hleaves⟩ := begin_error hbegin
      exact ⟨by rw [Connection.settled, hsame, hstart, Connection.settled], hleaves⟩
    · obtain ⟨hidle, -, hstart, hleaves⟩ := begin_ok hbegin
      have hkept := hsteps.allows begun
      rw [hfailed] at hkept
      refine ⟨?_, hleaves.trans hkept.1⟩
      rw [settled_of_failed hstart hkept, Connection.settled, hidle, Option.getD_none]
  | ok b done =>
    rw [hrun] at h
    obtain ⟨_, begun, hbegin, hdone⟩ := exists_of_bind_ok hrun
    obtain ⟨hidle, -, hstart, hfirst⟩ := begin_ok hbegin
    have hkept := hsteps.allows begun
    rw [hdone] at hkept
    have hleaves := hfirst.trans hkept.2
    obtain hcommit | ⟨_, _, _, hreturn⟩ := cases_of_bind_error h
    · obtain ⟨hsettled, hlast, i, hi, hrolls⟩ := commit_error hcommit
      refine ⟨?_, hleaves.trans hlast, fun hall => hrolls (hall i (hleaves.2.subset hi))⟩
      rw [hsettled, Connection.settled, hkept.1, hstart, Option.getD_some, Connection.settled,
        hidle, Option.getD_none]
    · cases hreturn

/-- Steps that neither begin nor commit a transaction open none. -/
theorem KeepsStart.settling {steps : Steps α} (h : KeepsStart steps) : Keeps .settling steps := by
  refine ⟨fun c => ?_⟩
  have hkept := h.allows c
  cases hsteps : steps c with
  | ok a c' =>
    rw [hsteps] at hkept
    exact ⟨fun hc => hkept.1.trans hc.1, hkept.2⟩
  | error e c' =>
    rw [hsteps] at hkept
    exact ⟨fun hc => hkept.2.elim (·.trans hc.1) (·.1), hkept.1⟩

/-- A transaction leaves none open. -/
theorem settling_transaction {steps : Steps α} (hsteps : KeepsStart steps) :
    Keeps .settling (transaction steps) := by
  refine ⟨fun c => ?_⟩
  cases h : transaction steps c with
  | ok a c' =>
    obtain ⟨begun, done, hbegin, hdone, hcommit⟩ := transaction_ok h
    obtain ⟨-, -, -, hfirst⟩ := begin_ok hbegin
    have hkept := hsteps.allows begun
    rw [hdone] at hkept
    obtain ⟨-, hstart, hlast⟩ := commit_ok hcommit
    exact ⟨fun _ => hstart, (hfirst.trans hkept.2).trans hlast⟩
  | error e c' =>
    obtain ⟨-, hleaves, hstart⟩ := transaction_error hsteps h
    exact ⟨fun hc => hstart hc.2, hleaves⟩

end Steps

end Catalogue
