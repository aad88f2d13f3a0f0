import ProfilePipeline.Batch.Sequential
import ProfilePipeline.Export.Exporter

/-!
# What processors keep

The state of all processors of a pipeline, together with that of the exporters they hand records
to.

* `SimpleProcessor` — exports each record by itself, at once.
* `BatchProcessor` — the batch machine, tied to an exporter of the pipeline.
* `ScriptedProcessor` — a processor that belongs to somebody else.
-/

namespace ProfilePipeline.Processing

open Completion (Token Waiter Ledger)
open Export (Exporter Script Answer)

/-- What waits for a completion on behalf of a processor. -/
inductive Reaction where
  /-- An export of a simple processor is over. -/
  | forget (slot : Nat) (id : Nat)
  /-- The exports before the shutdown of a simple processor are over. -/
  | shutExporter (slot : Nat) (flushed done : Token)
  /-- The exporter is shut down as well. -/
  | conclude (flushed done : Token)
  deriving DecidableEq, Repr

/-- A processor that exports each record by itself, on the thread that emits it. -/
structure SimpleProcessor where
  exporter : Exporter
  /-- The exports that are not over, by number. -/
  pending : List (Nat × Token) := []
  nextId : Nat := 0
  isShutdown : Bool := false

/-- A batch processor of the pipeline.  Its machine has completions of its own; the tables say
which completions of the pipeline belong to them. -/
structure BatchProcessor where
  machine : Batch.Machine Record
  exporter : Exporter
  /-- The completion of the export in flight. -/
  flight : Option Token := none
  /-- Completions that were handed out, by the machine's. -/
  promised : List (Token × Token) := []
  /-- Completions of the exporter's shutdown that the machine waits for, with the machine's. -/
  awaited : List (Token × Token) := []

/-- Which operations somebody else's processor implements besides seeing records.  Without a
shutdown of its own it is flushed instead, and without a flush there is nothing to do.  Only one
that implements everything can make it known that it does nothing. -/
inductive Implements where
  | everything
  | flush
  | nothing
  deriving DecidableEq, Repr, Inhabited

/-- A processor that belongs to somebody else.  It may set attributes on the records it sees. -/
structure ScriptedProcessor where
  script : Script
  changes : List (String × AttributeValue) := []
  isNoop : Bool := false
  implements : Implements := .everything

/-- All processors of a pipeline and the exporters behind them. -/
structure State where
  exports : Export.State Reaction := {}
  simples : Array SimpleProcessor := #[]
  batches : Array BatchProcessor := #[]
  scripted : Array ScriptedProcessor := #[]
  /-- The simple processors that shut their exporter down once their exports are over. -/
  draining : List Nat := []

/-- Whether somebody else's processor makes it known that it does nothing. -/
def ScriptedProcessor.claimsNothing (p : ScriptedProcessor) : Bool :=
  p.isNoop && decide (p.implements = .everything)

namespace State

instance : Inhabited State := ⟨{}⟩

/-- The outcome of a completion, once there is one. -/
def outcome? (s : State) (t : Token) : Option Bool := s.exports.ledger.outcome? t

/-- Replaces the completions. -/
def withLedger (s : State) (ledger : Ledger Reaction) : State :=
  { s with exports := { s.exports with ledger } }

/-- Changes a simple processor. -/
def modifySimple (s : State) (slot : Nat) (f : SimpleProcessor → SimpleProcessor) : State :=
  { s with simples := s.simples.modify slot f }

/-- Changes a batch processor. -/
def modifyBatch (s : State) (slot : Nat) (f : BatchProcessor → BatchProcessor) : State :=
  { s with batches := s.batches.modify slot f }

/-- Returns a completion that has its outcome. -/
def settle (s : State) (success : Bool) : State × Answer :=
  let (exports, answer) := s.exports.settle success
  ({ s with exports }, answer)

/-- Calls an exporter. -/
def callExporter (s : State) (e : Exporter) (c : Export.Call) : State × Answer :=
  let (exports, answer) := e.perform c s.exports
  ({ s with exports }, answer)

end State

end ProfilePipeline.Processing
