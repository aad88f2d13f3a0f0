import ProfilePipeline.Processing.Cascade

/-!
# Batch processors in a pipeline

A batch machine whose exporter is part of the pipeline.  Calls are over before the next one begins;
in between, the worker goes as far as it can and is answered by the exporter.

* `State.drive` — lets the worker of a batch processor go as far as it can.
* `State.publish` — passes the outcomes of the machine's completions on.
* `State.advanceBatches` — both, for all batch processors.
-/

namespace ProfilePipeline.Processing

open Batch (Machine Chore Surroundings)
open Completion (Token)
open Export (Answer)

namespace BatchProcessor

/-- What the worker of a batch processor needs from the exporter before it can go on. -/
inductive Demand where
  | nothing
  | shutdown
  | batch (records : List Record)

/-- What the worker needs next. -/
def demand (p : BatchProcessor) : Demand :=
  match p.machine.worker.chores, p.machine.worker.phase with
  | .shutExporter _ _ :: _, _ => .shutdown
  | [], .exporting _ => .batch p.machine.worker.batch
  | _, _ => .nothing

/-- Lets the worker take a step. -/
def step (p : BatchProcessor) (o : Surroundings) : Option BatchProcessor :=
  (p.machine.workerStep o).map fun (machine, _) => { p with machine }

end BatchProcessor

namespace State

/-- How an export went whose completion has an outcome. -/
def exportOutcome (success : Bool) : Batch.ExportOutcome := if success then .succeeded else .failed

/-- One step of the worker of a batch processor, if it can take one. -/
def driveOnce (s : State) (p : BatchProcessor) : State × Option BatchProcessor :=
  match p.demand with
  | .nothing => (s, p.step {})
  | .shutdown =>
    match s.callExporter p.exporter .shutdown with
    | (s, .panicked) => (s, p.step { shutdown := .panicked })
    | (s, .returned t) =>
      let outcome := s.outcome? t
      (s, (p.step { shutdown := .returned outcome }).map fun p =>
        match outcome, p.machine.answers.getLast? with
        | none, some answer => { p with awaited := p.awaited ++ [(t, answer)] }
        | _, _ => p)
  | .batch records =>
    match p.flight with
    | some t =>
      match s.outcome? t with
      | none => (s, none)
      | some success => (s, { p with flight := none }.step { exported := exportOutcome success })
    | none =>
      match s.callExporter p.exporter (.accept records) with
      | (s, .panicked) => (s, p.step { exported := .panicked })
      | (s, .returned t) => (s, some { p with flight := some t })

/-- Lets the worker of a batch processor take up to a number of steps, until it has to wait. -/
def drive (slot : Nat) : Nat → State → State
  | 0, s => s
  | fuel + 1, s =>
    match s.batches[slot]? with
    | none => s
    | some p =>
      match s.driveOnce p with
      | (s, none) => s
      | (s, some p) => drive slot fuel (s.modifyBatch slot fun _ => p)

/-- Passes the outcomes of the machine's completions on to those that were handed out for them. -/
def publish (s : State) (slot : Nat) : State :=
  match s.batches[slot]? with
  | none => s
  | some p =>
    let resolved := p.promised.filterMap fun (mine, handed) =>
      (p.machine.outcome? mine).map fun success => (handed, success)
    let s := s.modifyBatch slot fun p =>
      { p with promised := p.promised.filter fun (mine, _) => (p.machine.outcome? mine).isNone }
    resolved.foldl (fun (s : State) (t, success) => (s.resolve t success).1) s

/-- Tells the machine which of the exporter's shutdowns are over. -/
def hear (s : State) (slot : Nat) : State :=
  match s.batches[slot]? with
  | none => s
  | some p =>
    let ended := p.awaited.filterMap fun (t, answer) =>
      (s.outcome? t).map fun success => (answer, success)
    let machine := ended.foldl (fun machine (answer, success) =>
      (machine.perform {} (.settle answer success)).1) p.machine
    let awaited := p.awaited.filter fun (t, _) => (s.outcome? t).isNone
    s.modifyBatch slot fun p => { p with machine, awaited }

/-- **Lets every batch processor go as far as it can.** -/
def advanceBatches (s : State) : State :=
  (List.range s.batches.size).foldl (fun (s : State) slot =>
    let s := s.hear slot
    let patience := match s.batches[slot]? with
      | some p => 2 * p.machine.patience
      | none => 0
    (drive slot patience s).publish slot) s

/-- Lets the exporter timeout be over for every export in flight. -/
def timeOutExports (s : State) : State :=
  let batches := s.batches.map fun p =>
    if p.flight.isSome then
      ({ p with flight := none }.step { exported := .timedOut }).getD p
    else p
  { s with batches }.advanceBatches

/-- Emits a record to a batch processor. -/
def emitBatch (s : State) (slot : Nat) (r : Record) : State :=
  s.modifyBatch slot fun p => { p with machine := (p.machine.perform {} (.emit r)).1 }

/-- Makes a call that returns a completion. -/
def callBatch (s : State) (slot : Nat) (call : Batch.Call Record) : State × Answer :=
  match s.batches[slot]? with
  | none => s.settle true
  | some p =>
    match p.machine.perform {} call with
    | (_, none, _) => (s, .panicked)
    | (machine, some mine, _) =>
      let (ledger, handed) := s.exports.ledger.fresh
      let s := (s.withLedger ledger).modifyBatch slot fun p =>
        { p with machine, promised := p.promised ++ [(mine, handed)] }
      (s.publish slot, .returned handed)

end State

end ProfilePipeline.Processing
