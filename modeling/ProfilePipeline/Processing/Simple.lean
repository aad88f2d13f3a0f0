import ProfilePipeline.Processing.Cascade

/-!
# The simple processor

Every record is exported as soon as it is emitted, as a batch of one.  A flush waits for the exports
that are not over when it is asked for; the shutdown waits for them too and then shuts the exporter
down.
-/

namespace ProfilePipeline.Processing

open Completion (Token Waiter)
open Export (Answer)

namespace State

/-- Exports a record.  An export that panics leaves nothing to wait for. -/
def emitSimple (s : State) (slot : Nat) (r : Record) : State :=
  match s.simples[slot]? with
  | none => s
  | some p =>
    match s.callExporter p.exporter (.accept [r]) with
    | (s, .panicked) => s
    | (s, .returned t) =>
      let s := s.modifySimple slot fun p => { p with nextId := p.nextId + 1 }
      match s.exports.ledger.register t (.own (.forget slot p.nextId)) with
      | (ledger, some _) => s.withLedger ledger
      | (ledger, none) =>
        (s.withLedger ledger).modifySimple slot fun q =>
          { q with pending := q.pending ++ [(p.nextId, t)] }

/-- A completion for all exports of a simple processor that are not over. -/
def pendingExports (s : State) (p : SimpleProcessor) : State × Token :=
  let (exports, t) := s.exports.ofAll (p.pending.map Prod.snd)
  ({ s with exports }, t)

/-- Waits for the exports that are not over. -/
def flushSimple (s : State) (slot : Nat) : State × Answer :=
  match s.simples[slot]? with
  | none => s.settle true
  | some p =>
    let (s, t) := s.pendingExports p
    (s, .returned t)

/-- **Shuts a simple processor down**, once.  Later calls succeed without effect. -/
def shutdownSimple (s : State) (slot : Nat) : State × Answer :=
  match s.simples[slot]? with
  | none => s.settle true
  | some p =>
    if p.isShutdown then s.settle true
    else
      let s := s.modifySimple slot fun p => { p with isShutdown := true }
      let (ledger, done) := s.exports.ledger.fresh
      let (s, flushed) := (s.withLedger ledger).pendingExports p
      let s := { s with draining := slot :: s.draining }
      let next := Waiter.own (.shutExporter slot flushed done)
      match s.exports.ledger.register flushed next with
      | (ledger, none) => (s.withLedger ledger, .returned done)
      | (ledger, some success) =>
        match (s.withLedger ledger).run [.call next success] with
        | (s, true) => (s, .panicked)
        | (s, false) => (s, .returned done)

end State

end ProfilePipeline.Processing
