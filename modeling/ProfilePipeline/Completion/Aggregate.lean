import ProfilePipeline.Completion.Store

/-!
# Aggregates

One completion for many.  An aggregate counts down as its members are resolved and remembers
whether one of them failed; the member that brings the count to zero resolves the result.

* `Waiter` — what waits for a completion: an aggregate, or somebody's own callback.
* `Ledger` — completions together with the aggregates over them.
* `Ledger.ofAll` — one completion for a list of completions.
-/

namespace ProfilePipeline.Completion

/-- What waits for a completion. -/
inductive Waiter (κ : Type) where
  | member (aggregate : Nat)
  | own (callback : κ)

/-- The members of an aggregate that are still missing, and what is known of the others. -/
structure Aggregate where
  remaining : Nat
  failed : Bool := false
  result : Token
  deriving DecidableEq, Repr

namespace Aggregate

/-- Remembers the outcome of a member. -/
def note (a : Aggregate) (success : Bool) : Aggregate :=
  { a with failed := a.failed || !success }

/-- Whether a single member is missing. -/
def isLast (a : Aggregate) : Bool := a.remaining == 1

/-- Counts a member as resolved. -/
def countDown (a : Aggregate) : Aggregate := { a with remaining := a.remaining - 1 }

/-- The outcome once no member is missing. -/
def verdict (a : Aggregate) : Bool := !a.failed

end Aggregate

/-- All completions and all aggregates over them. -/
structure Ledger (κ : Type) where
  store : Store (Waiter κ) := {}
  aggregates : Array Aggregate := #[]

namespace Ledger

variable {κ : Type}

instance : Inhabited (Ledger κ) := ⟨{}⟩

/-- The outcome of a completion, once there is one. -/
def outcome? (l : Ledger κ) (t : Token) : Option Bool := l.store.outcome? t

/-- Whether a completion has been resolved as a success. -/
def isSuccess (l : Ledger κ) (t : Token) : Bool := l.store.isSuccess t

/-- A new pending completion. -/
def fresh (l : Ledger κ) : Ledger κ × Token :=
  ({ l with store := l.store.fresh.1 }, l.store.fresh.2)

/-- A new completion that already has its outcome. -/
def settled (l : Ledger κ) (success : Bool) : Ledger κ × Token :=
  ({ l with store := (l.store.settled success).1 }, (l.store.settled success).2)

/-- A new completion for a number of members, and the aggregate that counts them. -/
def opened (l : Ledger κ) (members : Nat) : Ledger κ × Token × Nat :=
  let (store, result) := l.store.fresh
  (⟨store, l.aggregates.push ⟨members, false, result⟩⟩, result, l.aggregates.size)

/-- Registers a callback.  An outcome in the answer means that it has to be called now. -/
def register (l : Ledger κ) (t : Token) (w : Waiter κ) : Ledger κ × Option Bool :=
  ({ l with store := (l.store.register t w).1 }, (l.store.register t w).2)

/-- Counts a member with its outcome.  The last one gives the result its outcome. -/
def count (l : Ledger κ) (g : Nat) (success : Bool) : Ledger κ × Option (Token × Bool) :=
  match l.aggregates[g]? with
  | none => (l, none)
  | some a =>
    let noted := a.note success
    ({ l with aggregates := l.aggregates.setIfInBounds g noted.countDown },
      if noted.isLast then some (noted.result, noted.verdict) else none)

/-- Counting a member resolves nothing yet. -/
theorem count_store (l : Ledger κ) (g : Nat) (success : Bool) :
    (l.count g success).1.store = l.store := by
  unfold count
  split <;> rfl

/-- Makes a completion a member of an aggregate.  One that has an outcome counts at once; nobody
can wait for the result yet, so resolving it calls nobody. -/
def enlist (l : Ledger κ) (g : Nat) (t : Token) : Ledger κ :=
  match l.register t (.member g) with
  | (l, none) => l
  | (l, some success) =>
    match l.count g success with
    | (l, none) => l
    | (l, some (result, verdict)) => { l with store := (l.store.resolve result verdict).1 }

/-- **A completion that is resolved when all of a list are**, as a success if all of them
succeeded.  For an empty list it is a success at once. -/
def ofAll (l : Ledger κ) (tokens : List Token) : Ledger κ × Token :=
  match tokens with
  | [] => l.settled true
  | _ =>
    let (l, result, g) := l.opened tokens.length
    (tokens.foldl (·.enlist g) l, result)

end Ledger

end ProfilePipeline.Completion
