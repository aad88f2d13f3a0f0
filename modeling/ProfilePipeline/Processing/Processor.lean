import ProfilePipeline.Processing.Batched
import ProfilePipeline.Processing.Simple

/-!
# Processors

A processor sees every record that is emitted and decides what becomes of it.  A fan-out passes
every call on to each of its children in order; one that panics does not keep the others from being
called, and counts as failed where a completion is returned.

* `Processor.onEmit` — a record goes through a processor, which may set attributes on it.
* `Processor.perform` — a flush or a shutdown.
-/

namespace ProfilePipeline.Processing

open Completion (Token)
open Export (Answer Operation Happening)

/-- A processor.  Each fan-out has a number that tells it apart from others. -/
inductive Processor where
  | discard
  | simple (slot : Nat)
  | batch (slot : Nat)
  | scripted (slot : Nat)
  | fanOut (number : Nat) (children : List Processor)
  deriving Inhabited

/-- What a processor is asked to do besides seeing records. -/
inductive Request where
  | flush
  | shutdown
  deriving DecidableEq, Repr

namespace State

/-- The operation of somebody else's processor that a request reaches. -/
def reached : Implements → Request → Option (Operation × Happening)
  | .everything, .shutdown => some (.shutdown, .shutdown)
  | .nothing, _ => none
  | _, _ => some (.flush, .flush)

/-- A request to somebody else's processor. -/
def requestScripted (s : State) (slot : Nat) (request : Request) : State × Answer :=
  match s.scripted[slot]? with
  | none => s.settle true
  | some p =>
    match reached p.implements request with
    | none => s.settle true
    | some (op, what) =>
      let (exports, script, answer) := s.exports.enact p.script op what
      ({ s with exports, scripted := s.scripted.setIfInBounds slot { p with script } }, answer)

/-- Somebody else's processor sees a record: it leaves a trace, sets its attributes, and panics if
it has to.  In the answer, whether it did. -/
def emitScripted (s : State) (slot : Nat) (span : SpanContext) (r : LiveRecord) :
    State × LiveRecord × Bool :=
  match s.scripted[slot]? with
  | none => (s, r, false)
  | some p =>
    let exports := s.exports.note p.script.name (.onEmit r.snapshot span)
    let panicked := (p.script.track .onEmit).outcome == .panic
    let script := p.script.next .onEmit
    ({ s with exports, scripted := s.scripted.setIfInBounds slot { p with script } },
      r.setAll p.changes, panicked)

end State

namespace Processor

/-- Whether a processor is the one that discards everything. -/
def isDiscard : Processor → Bool
  | discard => true
  | _ => false

/-- Whether a processor makes it known that it does nothing. -/
def isNoop (s : State) : Processor → Bool
  | discard => true
  | scripted slot => (s.scripted[slot]?).any (·.claimsNothing)
  | _ => false

/-- The processor for a list: none discards, one stands for itself, more are fanned out to. -/
def composite (number : Nat) : List Processor → Processor
  | [] => discard
  | [p] => p
  | ps => fanOut number ps

mutual

/-- **A record goes through a processor.**  In the answer, the record with the attributes that were
set on it, and whether the processor panicked. -/
def onEmit (span : SpanContext) : Processor → LiveRecord → State → State × LiveRecord × Bool
  | discard, r, s => (s, r, false)
  | simple slot, r, s => (s.emitSimple slot r.snapshot, r, false)
  | batch slot, r, s => (s.emitBatch slot r.snapshot, r, false)
  | scripted slot, r, s => s.emitScripted slot span r
  | fanOut _ children, r, s =>
    let (s, r) := onEmitEach span children r s
    (s, r, false)

/-- A record goes through each processor of a list, whatever the ones before it did. -/
def onEmitEach (span : SpanContext) : List Processor → LiveRecord → State → State × LiveRecord
  | [], r, s => (s, r)
  | p :: ps, r, s =>
    let (s, r, _) := p.onEmit span r s
    onEmitEach span ps r s

end

mutual

/-- **A flush or a shutdown of a processor.** -/
def perform (request : Request) : Processor → State → State × Answer
  | discard, s => s.settle true
  | simple slot, s =>
    match request with
    | .flush => s.flushSimple slot
    | .shutdown => s.shutdownSimple slot
  | batch slot, s =>
    match request with
    | .flush => s.callBatch slot .flush
    | .shutdown => s.callBatch slot .shutdown
  | scripted slot, s => s.requestScripted slot request
  | fanOut _ children, s =>
    let (s, tokens) := performEach request children s
    let (exports, t) := s.exports.ofAll tokens
    ({ s with exports }, .returned t)

/-- The same request to each processor of a list, whatever the ones before it did. -/
def performEach (request : Request) : List Processor → State → State × List Token
  | [], s => (s, [])
  | p :: ps, s =>
    let (s, answer) := p.perform request s
    let (exports, t) := s.exports.contain answer
    let (s, ts) := performEach request ps { s with exports }
    (s, t :: ts)

end

end Processor

end ProfilePipeline.Processing
