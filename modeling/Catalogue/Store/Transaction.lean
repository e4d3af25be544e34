/-! Transactions.  A connection shows the contents of a database; while a transaction is open, it
also keeps the contents to which the transaction goes back if it is rolled back.  Steps in a
transaction that fail roll it back, and so does the failure to begin it: a transaction inside an
open one fails, and takes the open one back with it.  The failure of the commit comes after them,
and rolls nothing back. -/

namespace Catalogue

/-- A connection to contents of type `α`, with a memory of its own that no transaction takes back,
and with what the outside does to it. -/
structure Connection (μ ω α : Type) where
  contents : α
  /-- The contents at the start of the open transaction. -/
  start : Option α
  memory : μ
  outside : ω

/-- A failure of the database itself: it may roll the open transaction back at once. -/
structure Interruption (ε : Type) where
  fault : ε
  rollsBack : Bool
  deriving DecidableEq

namespace Connection

variable {μ ω α ε β : Type}

/-- A new connection. -/
def new (contents : α) (memory : μ) (outside : ω) : Connection μ ω α :=
  ⟨contents, none, memory, outside⟩

/-- What stays when the connection is closed. -/
def settled (c : Connection μ ω α) : α := c.start.getD c.contents

/-- Ends the open transaction, and takes back what it did. -/
def rollback (c : Connection μ ω α) : Connection μ ω α :=
  { c with contents := c.settled, start := none }

/-- The connection after a failure. -/
def struck (c : Connection μ ω α) (i : Interruption ε) : Connection μ ω α :=
  if i.rollsBack then c.rollback else c

/-- Fails. -/
def interrupt (i : Interruption ε) : EStateM ε (Connection μ ω α) β := fun c =>
  .error i.fault (c.struck i)

/-- Begins a transaction, unless this is `refused`; `nested` is the failure inside an open one. -/
def begin_ (nested : ε) (refused : Option ε) : EStateM ε (Connection μ ω α) Unit := fun c =>
  match refused, c.start with
  | some e, _ => .error e c
  | none, some _ => .error nested c
  | none, none => .ok () { c with start := some c.contents }

/-- Ends the open transaction and keeps what it did, unless this is `refused`. -/
def commit (refused : Option (Interruption ε)) : EStateM ε (Connection μ ω α) Unit := fun c =>
  match c.start, refused with
  | none, _ => .ok () c
  | some _, none => .ok () { c with start := none }
  | some _, some i => .error i.fault (c.struck i)

/-- What follows on the steps of a transaction: `takeBack` where they failed, and `ends` where they
did not. -/
def conclude (ends : EStateM ε (Connection μ ω α) Unit)
    (takeBack : Connection μ ω α → Connection μ ω α) :
    EStateM.Result ε (Connection μ ω α) β → EStateM.Result ε (Connection μ ω α) β
  | .ok b after => (do ends; return b : EStateM ε (Connection μ ω α) β) after
  | .error e after => .error e (takeBack after)

/-- Runs steps in a transaction of their own, which begins with `begins`. -/
def transaction (begins ends : EStateM ε (Connection μ ω α) Unit)
    (takeBack : Connection μ ω α → Connection μ ω α) (steps : EStateM ε (Connection μ ω α) β) :
    EStateM ε (Connection μ ω α) β := fun c =>
  conclude ends takeBack ((do begins; steps : EStateM ε (Connection μ ω α) β) c)

end Connection

end Catalogue
