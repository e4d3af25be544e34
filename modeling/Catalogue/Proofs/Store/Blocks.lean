import Catalogue.Proofs.Store.Steps
import Catalogue.Store.Transaction

/-! Sequences of statements and transaction blocks on one connection, with failures that are caught
or not.  Blocks that do not meet are all or nothing, as long as their statements leave it to them to
end the transaction and a refused commit rolls it back.  A block that is entered in an open
transaction fails and takes that one back, and what is left of a block whose transaction has ended
runs without one. -/

namespace Catalogue.Connection

/-- What a statement does: it changes the contents or fails, or it begins or ends a transaction by
itself, unless this is refused. -/
inductive Action (ε α : Type) where
  | change (change : α → Except (Interruption ε) α)
  | begin (refused : Option ε)
  | commit (refused : α → Option (Interruption ε))
  | rollback

/-- The failures of a statement that begins a transaction inside an open one, and of one that ends a
transaction where none is open. -/
structure Misuse (ε : Type) where
  nested : ε
  idle : ε

/-- What a caller does on a connection: statements, blocks and steps whose failure is caught.  The
begin of a block may be refused, and so may the commit at its end, on the contents that it finds. -/
inductive Script (ε α : Type) where
  | finish
  | raise (e : ε)
  | statement (action : Action ε α) (next : Script ε α)
  | block (opening : Option ε) (closing : α → Option (Interruption ε)) (body next : Script ε α)
  | attempt (tried next : Script ε α)

variable {μ ω α ε : Type} {misuse : Misuse ε}

/-- The end of steps: a failure or none, and the connection that is left. -/
def ending (outcome : Option ε) (after : Connection μ ω α) :
    EStateM.Result ε (Connection μ ω α) Unit :=
  match outcome with
  | none => .ok () after
  | some e => .error e after

/-- Does what a statement does. -/
def act (misuse : Misuse ε) : Action ε α → EStateM ε (Connection μ ω α) Unit
  | .change f => fun c =>
    match f c.contents with
    | .error i => .error i.fault (c.struck i)
    | .ok b => .ok () { c with contents := b }
  | .begin refused => begin_ misuse.nested refused
  | .commit refused => fun c =>
    if c.start.isSome then Connection.commit (refused c.contents) c else .error misuse.idle c
  | .rollback => fun c => if c.start.isSome then .ok () c.rollback else .error misuse.idle c

/-- What follows on the steps of a block. -/
def leave (closing : α → Option (Interruption ε)) :
    EStateM.Result ε (Connection μ ω α) Unit → EStateM.Result ε (Connection μ ω α) Unit :=
  conclude (fun c => commit (closing c.contents) c) rollback

/-- Runs steps in a block. -/
def inBlock (misuse : Misuse ε) (opening : Option ε) (closing : α → Option (Interruption ε))
    (steps : EStateM ε (Connection μ ω α) Unit) : EStateM ε (Connection μ ω α) Unit :=
  transaction (begin_ misuse.nested opening) (fun c => commit (closing c.contents) c) rollback steps

namespace Script

def run (misuse : Misuse ε) : Script ε α → EStateM ε (Connection μ ω α) Unit
  | finish => return
  | raise e => throw e
  | statement action next => do
    act misuse action
    next.run misuse
  | block opening closing body next => do
    inBlock misuse opening closing (body.run misuse)
    next.run misuse
  | attempt tried next => do
    tryCatch (tried.run misuse) fun _ => pure ()
    next.run misuse

/-- The failure and the contents that a script leaves if each of its blocks is all or nothing, and
none of its statements begins or ends a transaction. -/
def effect : Script ε α → α → Option ε × α
  | finish, a => (none, a)
  | raise e, a => (some e, a)
  | statement (.change f) next, a =>
    match f a with
    | .error i => (some i.fault, a)
    | .ok b => next.effect b
  | statement _ next, a => next.effect a
  | block (some e) _ _ _, a => (some e, a)
  | block none closing body next, a =>
    match body.effect a with
    | (some e, _) => (some e, a)
    | (none, b) =>
      match closing b with
      | some i => (some i.fault, a)
      | none => next.effect b
  | attempt tried next, a => next.effect (tried.effect a).2

/-- How a script goes on in an open transaction: it stays in it to its own end, or the transaction
ends before, and something is left to do then. -/
inductive Passage (ε α : Type) where
  | stays (outcome : Option ε) (contents : α)
  | leaves (rest : Script ε α) (contents : α)

/-- How a failure goes on in a transaction with the start `s`. -/
def passageOf (s : α) (i : Interruption ε) (a : α) : Passage ε α :=
  if i.rollsBack then .leaves (raise i.fault) s else .stays (some i.fault) a

/-- How a script goes on in a transaction with the start `s`, on the contents that it finds. -/
def passage (misuse : Misuse ε) (s : α) : Script ε α → α → Passage ε α
  | finish, a => .stays none a
  | raise e, a => .stays (some e) a
  | statement (.change f) next, a =>
    match f a with
    | .error i => passageOf s i a
    | .ok b => next.passage misuse s b
  | statement (.begin refused) _, a => .stays (some (refused.getD misuse.nested)) a
  | statement (.commit refused) next, a =>
    match refused a with
    | some i => passageOf s i a
    | none => .leaves next a
  | statement .rollback next, _ => .leaves next s
  | block opening _ _ _, _ => .leaves (raise (opening.getD misuse.nested)) s
  | attempt tried next, a =>
    match tried.passage misuse s a with
    | .leaves rest b => .leaves (attempt rest next) b
    | .stays _ b => next.passage misuse s b

/-- No statement of the script begins or ends a transaction, also not by a failure, and there is no
block in it. -/
def IsFlat : Script ε α → Prop
  | finish => True
  | raise _ => True
  | statement (.change f) next => (∀ a i, f a = .error i → i.rollsBack = false) ∧ next.IsFlat
  | statement _ _ => False
  | block .. => False
  | attempt tried next => tried.IsFlat ∧ next.IsFlat

/-- There is no block in a block of the script; no statement begins or ends a transaction, and a
commit that is refused rolls its transaction back. -/
def IsUnnested : Script ε α → Prop
  | finish => True
  | raise _ => True
  | statement (.change _) next => next.IsUnnested
  | statement _ _ => False
  | block _ closing body next =>
    (∀ a i, closing a = some i → i.rollsBack) ∧ body.IsFlat ∧ next.IsUnnested
  | attempt tried next => tried.IsUnnested ∧ next.IsUnnested

/-! ### Steps of a script -/

variable {c : Connection μ ω α} {s : α}

theorem tryCatch_eq {σ : Type} (steps : EStateM ε σ Unit) (handler : ε → EStateM ε σ Unit) (s : σ) :
    (tryCatch steps handler : EStateM ε σ Unit) s = match steps s with
      | .ok _ after => .ok () after
      | .error e after => handler e after := by
  change EStateM.tryCatch steps handler s = _
  delta EStateM.tryCatch
  cases steps s <;> rfl

theorem run_statement (action : Action ε α) (next : Script ε α) (c : Connection μ ω α) :
    (statement action next).run misuse c = match act misuse action c with
      | .ok _ after => next.run misuse after
      | .error e after => .error e after := by
  change EStateM.bind _ _ c = _
  rw [EStateM.bind]
  cases act misuse action c <;> rfl

theorem run_block (opening : Option ε) (closing : α → Option (Interruption ε))
    (body next : Script ε α) (c : Connection μ ω α) :
    (block opening closing body next).run misuse c =
      match inBlock misuse opening closing (body.run misuse) c with
      | .ok _ after => next.run misuse after
      | .error e after => .error e after := by
  change EStateM.bind _ _ c = _
  rw [EStateM.bind]
  cases inBlock misuse opening closing (body.run misuse) c <;> rfl

theorem run_attempt (tried next : Script ε α) (c : Connection μ ω α) :
    (attempt tried next).run misuse c = match tried.run misuse c with
      | .ok _ after => next.run misuse after
      | .error _ after => next.run misuse after := by
  have hcaught := tryCatch_eq (tried.run misuse) (fun _ => pure ()) c
  rw [run]
  cases h : tried.run misuse c with
  | ok _ after =>
    rw [h] at hcaught
    exact bind_of_ok hcaught _
  | error e after =>
    rw [h] at hcaught
    exact bind_of_ok hcaught _

/-- A block that is entered in an open transaction fails, and takes that one back. -/
theorem inBlock_of_open {opening : Option ε} {closing : α → Option (Interruption ε)}
    {steps : EStateM ε (Connection μ ω α) Unit} (h : c.start = some s) :
    inBlock misuse opening closing steps c =
      .error (opening.getD misuse.nested) { c with contents := s, start := none } := by
  obtain ⟨contents, start, memory, outside⟩ := c
  subst h
  cases opening <;> rfl

/-- A block that no open transaction meets begins one, unless this is refused. -/
theorem inBlock_of_idle (opening : Option ε) (closing : α → Option (Interruption ε))
    (steps : EStateM ε (Connection μ ω α) Unit) (h : c.start = none) :
    inBlock misuse opening closing steps c = match opening with
      | some e => .error e c
      | none => leave closing (steps { c with start := some c.contents }) := by
  obtain ⟨contents, start, memory, outside⟩ := c
  subst h
  cases opening <;> rfl

/-! ### In a transaction -/

/-- The connection out of its transaction, with new contents. -/
def out (c : Connection μ ω α) (contents : α) : Connection μ ω α :=
  { c with contents := contents, start := none }

/-- What comes of a script in a transaction, by the way it goes on there. -/
def arrive (misuse : Misuse ε) (c : Connection μ ω α) :
    Passage ε α → EStateM.Result ε (Connection μ ω α) Unit
  | .stays outcome a => ending outcome { c with contents := a }
  | .leaves rest a => rest.run misuse (out c a)

theorem arrive_passageOf (h : c.start = some s) (i : Interruption ε) :
    arrive misuse c (passageOf s i c.contents) = .error i.fault (c.struck i) := by
  obtain ⟨fault, _ | _⟩ := i
  · rfl
  · change EStateM.Result.error fault (out c s) = .error fault c.rollback
    rw [rollback, settled, h]
    rfl

/-- In a transaction a script does what it does until it, or a failure, ends the transaction; what
is left of it runs without one. -/
theorem run_open (script : Script ε α) (h : c.start = some s) :
    script.run misuse c = arrive misuse c (script.passage misuse s c.contents) := by
  induction script generalizing c with
  | finish => rfl
  | raise e => rfl
  | statement action next ih =>
    rw [run_statement]
    cases action with
    | change f =>
      simp only [act, passage]
      cases f c.contents with
      | ok b => exact ih h
      | error i => exact (arrive_passageOf h i).symm
    | begin refused =>
      simp only [act, passage, begin_, h]
      cases refused <;> rfl
    | commit refused =>
      simp only [act, passage, h, Option.isSome_some, if_true, Connection.commit]
      cases refused c.contents with
      | none => rfl
      | some i => exact (arrive_passageOf h i).symm
    | rollback =>
      simp only [act, passage, h, Option.isSome_some, if_true, Connection.rollback, settled]
      rfl
  | block opening closing body next _ _ =>
    rw [run_block, inBlock_of_open h]
    rfl
  | attempt tried next ihtried ih =>
    rw [run_attempt, ihtried h, passage]
    cases tried.passage misuse s c.contents with
    | leaves rest b => exact (run_attempt rest next _).symm
    | stays outcome b => cases outcome <;> exact ih h

/-- What comes of a block that no open transaction meets and whose begin is not refused. -/
def blockResult (misuse : Misuse ε) (closing : α → Option (Interruption ε))
    (c : Connection μ ω α) : Passage ε α → EStateM.Result ε (Connection μ ω α) Unit
  | .stays (some e) _ => .error e c
  | .stays none b =>
    match closing b with
    | none => .ok () { c with contents := b }
    | some i =>
      .error i.fault (if i.rollsBack then c else { c with contents := b, start := some c.contents })
  | .leaves rest b => leave closing (rest.run misuse (out c b))

theorem inBlock_eq_blockResult {closing : α → Option (Interruption ε)} (body : Script ε α)
    (h : c.start = none) : inBlock misuse none closing (body.run misuse) c =
      blockResult misuse closing c (body.passage misuse c.contents c.contents) := by
  rw [inBlock_of_idle none closing _ h]
  dsimp only
  rw [run_open body rfl]
  obtain ⟨contents, start, memory, outside⟩ := c
  subst h
  dsimp only
  cases body.passage misuse contents contents with
  | leaves rest b => rfl
  | stays outcome b =>
    cases outcome with
    | some e => rfl
    | none =>
      rw [arrive, blockResult]
      simp only [ending, leave, conclude]
      cases hclosing : closing b with
      | none =>
        have hcommit : commit (closing b) (⟨b, some contents, memory, outside⟩ :
            Connection μ ω α) = .ok () ⟨b, none, memory, outside⟩ := by rw [hclosing]; rfl
        exact bind_of_ok hcommit _
      | some i =>
        have hcommit : commit (closing b) (⟨b, some contents, memory, outside⟩ :
            Connection μ ω α) =
              .error i.fault (struck ⟨b, some contents, memory, outside⟩ i) := by
          rw [hclosing]
          rfl
        refine (bind_of_error hcommit _).trans ?_
        obtain ⟨fault, _ | _⟩ := i <;> rfl

/-! ### Blocks that do not meet -/

/-- A flat script stays in its transaction. -/
theorem IsFlat.passage {script : Script ε α} (h : script.IsFlat) (s a : α) :
    script.passage misuse s a = .stays (script.effect a).1 (script.effect a).2 := by
  induction script generalizing a with
  | finish => rfl
  | raise e => rfl
  | statement action next ih =>
    cases action with
    | change f =>
      rw [Script.passage, effect]
      cases hf : f a with
      | error i =>
        dsimp only
        rw [passageOf, h.1 a i hf]
        rfl
      | ok b => exact ih h.2 b
    | _ => exact h.elim
  | block => exact h.elim
  | attempt tried next ihtried ih =>
    rw [Script.passage, ihtried h.1]
    exact ih h.2 _

/-- A sequence of statements and of blocks that do not meet does what it does if each block is all
or nothing. -/
theorem run_unnested {script : Script ε α} (h : script.IsUnnested) (hidle : c.start = none) :
    script.run misuse c = ending (script.effect c.contents).1
      { c with contents := (script.effect c.contents).2 } := by
  induction script generalizing c with
  | finish => rfl
  | raise e => rfl
  | statement action next ih =>
    cases action with
    | change f =>
      rw [run_statement, effect]
      simp only [act]
      cases f c.contents with
      | ok b => exact ih h hidle
      | error i =>
        -- A failure that rolls back finds no transaction to roll back.
        obtain ⟨contents, start, memory, outside⟩ := c
        subst hidle
        obtain ⟨fault, _ | _⟩ := i <;> rfl
    | _ => exact h.elim
  | block opening closing body next _ ih =>
    rw [run_block]
    cases opening with
    | some e =>
      rw [inBlock_of_idle (some e) closing _ hidle]
      rfl
    | none =>
      rw [inBlock_eq_blockResult body hidle, h.2.1.passage, effect]
      cases body.effect c.contents with
      | mk outcome b =>
        cases outcome with
        | some e => rfl
        | none =>
          simp only [blockResult]
          cases hclosing : closing b with
          | none => exact ih h.2.2 hidle
          | some i =>
            dsimp only
            rw [if_pos (h.1 b i hclosing)]
            rfl
  | attempt tried next ihtried ih =>
    rw [run_attempt, ihtried h.1 hidle, effect]
    cases (tried.effect c.contents).1 with
    | none => exact ih h.2 hidle
    | some e => exact ih h.2 hidle

end Script

open Script

/-- Blocks that do not meet are all or nothing, over any sequence of them, of statements and of
failures that are caught, as long as no statement begins or ends a transaction and a commit that is
refused rolls its own back.  In general, a block that finds a transaction open fails and takes the
contents back to the start of that transaction, whatever its body.  A block that finds none open and
may begin one takes its contents back if its body fails in the transaction.  If the body ends well
in it, its contents are kept, but where its commit is refused and rolls nothing back, it fails and
leaves them, in the open transaction.  If something ends the transaction before, which may be a
block inside it, what is left of the body runs without one. -/
theorem blocks_all_or_nothing {μ ω α ε : Type} (misuse : Misuse ε) :
    (∀ (script : Script ε α) (c : Connection μ ω α), script.IsUnnested → c.start = none →
      script.run misuse c = ending (script.effect c.contents).1
        { c with contents := (script.effect c.contents).2 }) ∧
    (∀ (opening : Option ε) (closing : α → Option (Interruption ε)) (body : Script ε α)
      (c : Connection μ ω α) (s : α), c.start = some s →
      inBlock misuse opening closing (body.run misuse) c =
        .error (opening.getD misuse.nested) { c with contents := s, start := none }) ∧
    ∀ (closing : α → Option (Interruption ε)) (body : Script ε α) (c : Connection μ ω α),
      c.start = none →
      inBlock misuse none closing (body.run misuse) c =
        blockResult misuse closing c (body.passage misuse c.contents c.contents) :=
  ⟨fun _ _ h hidle => run_unnested h hidle, fun _ _ _ _ _ h => inBlock_of_open h,
    fun _ body _ h => inBlock_eq_blockResult body h⟩

/-- A statement that puts a number behind the others. -/
def Script.adding {ε : Type} (n : Nat) (next : Script ε (List Nat)) : Script ε (List Nat) :=
  statement (.change fun numbers => .ok (numbers ++ [n])) next

/-- A block whose begin and commit are not refused. -/
def Script.plain {ε : Type} (body next : Script ε (List Nat)) : Script ε (List Nat) :=
  block none (fun _ => none) body next

/-- Four sequences.  The first block ends well and loses its statement, the second one fails and
keeps one, the third one, inside a transaction, fails and leaves other contents than it found, and
the commit of the fourth one is refused, after which it fails and its statement is there. -/
theorem nested_block_not_all_or_nothing :
    let misuse : Misuse String := ⟨"nested", "idle"⟩
    (plain (adding 1 (attempt (plain (adding 2 finish) finish) finish)) finish).run misuse
        (new [] () ()) = .ok () (new [] () ()) ∧
    (plain (adding 1 (attempt (plain finish finish) (adding 3 (raise "stop")))) finish).run misuse
        (new [] () ()) = .error "stop" (new [3] () ()) ∧
    (plain finish finish).run misuse (⟨[1], some [], (), ()⟩ : Connection Unit Unit (List Nat)) =
        .error "nested" (new [] () ()) ∧
    (block none (fun _ => some ⟨"locked", false⟩) (adding 1 finish) finish).run misuse
        (new [] () ()) = .error "locked" ⟨[1], some [], (), ()⟩ :=
  ⟨rfl, rfl, rfl, rfl⟩

end Catalogue.Connection
