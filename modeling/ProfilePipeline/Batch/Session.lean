import ProfilePipeline.Batch.Sequential

/-!
# A batch processor operated step by step

After every call the worker goes as far as it can.  What the steps show is kept until somebody
looks.
-/

namespace ProfilePipeline.Batch

open Completion (Token)

/-- A batch processor and what has been seen of it. -/
structure Session (ρ : Type) where
  machine : Machine ρ
  /-- What time it is, and how the exporter answers to being shut down. -/
  surroundings : Surroundings
  /-- The completions that calls returned. -/
  tokens : Array Token := #[]
  /-- The measurements since somebody looked. -/
  metrics : Array Metric := #[]
  /-- How often the exporter was shut down. -/
  exporterShutdowns : Nat := 0
  dropped : Bool := false

/-- The measurement that an event is. -/
def Event.metric? {ρ : Type} : Event ρ → Option Metric
  | measured m => some m
  | _ => none

/-- Whether an event is a shutdown of the exporter. -/
def Event.isExporterShutdown {ρ : Type} : Event ρ → Bool
  | exporterShutdown => true
  | _ => false

namespace Session

variable {ρ : Type}

/-- Notes what a step shows. -/
def after (s : Session ρ) (machine : Machine ρ) (events : List (Event ρ)) : Session ρ :=
  { s with
    machine
    metrics := s.metrics ++ events.filterMap Event.metric?
    exporterShutdowns := s.exporterShutdowns + events.countP Event.isExporterShutdown }

/-- Lets the worker go as far as it can. -/
def settle (s : Session ρ) : Session ρ :=
  let (machine, events) := s.machine.settle s.surroundings
  s.after machine events

/-- A processor that has just been built. -/
def start (config : Config) (shutdown : ShutdownAnswer) : Session ρ :=
  { machine := .start config, surroundings := { shutdown } : Session ρ }.settle

/-- Makes a call, unless the processor has been given up. -/
def call (s : Session ρ) (c : Call ρ) : Session ρ × Option Token :=
  if s.dropped then (s, none)
  else
    let (machine, result, events) := s.machine.perform s.surroundings c
    ((s.after machine events).settle, result)

/-- Emits a record. -/
def emit (s : Session ρ) (r : ρ) : Session ρ := (s.call (.emit r)).1

/-- Makes a call whose completion is kept. -/
def keep (s : Session ρ) (c : Call ρ) : Session ρ :=
  match s.call c with
  | (s, some t) => { s with tokens := s.tokens.push t }
  | (s, none) => s

/-- Gives the processor up, which shuts it down. -/
def drop (s : Session ρ) : Session ρ := { (s.call .shutdown).1 with dropped := true }

/-- Ends the export in flight, if there is one. -/
def finish? (s : Session ρ) (exported : ExportOutcome) : Option (Session ρ) :=
  if s.machine.inFlight?.isNone then none
  else
    let (machine, events) := s.machine.finish { s.surroundings with exported }
    some (s.after machine events).settle

/-- Waits until an export is due. -/
def ring (s : Session ρ) : Session ρ :=
  let s := { s with surroundings.now := max s.surroundings.now s.machine.worker.nextExport }
  let (machine, events) := s.machine.ring s.surroundings
  (s.after machine events).settle

/-- The measurements since somebody looked last. -/
def look (s : Session ρ) : Session ρ × List Metric := ({ s with metrics := #[] }, s.metrics.toList)

/-- The outcomes of the completions that calls returned. -/
def outcomes (s : Session ρ) : List (Option Bool) := s.tokens.toList.map s.machine.outcome?

end Session

end ProfilePipeline.Batch
