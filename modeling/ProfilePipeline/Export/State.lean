import ProfilePipeline.Completion.Aggregate
import ProfilePipeline.Export.Event
import ProfilePipeline.Export.Lines
import ProfilePipeline.Export.Memory

/-!
# Devices

A device is an exporter that does something itself instead of passing batches on.  The state of all
devices, the completions they returned and the calls that reached the outside are kept together, so
that a device may be part of several pipelines.

* `Call` — what an exporter may be asked to do.
* `State.enact` — a call of something scripted.
* `State.call` — a call of a device.
-/

namespace ProfilePipeline.Export

open Completion (Token Ledger)

/-- What an exporter is asked to do. -/
inductive Call where
  | accept (records : List Record)
  | flush
  | shutdown

namespace Call

/-- The kind of a call. -/
def operation : Call → Operation
  | accept _ => .accept
  | flush => .flush
  | shutdown => .shutdown

/-- The trace that a call leaves outside. -/
def happening : Call → Happening
  | accept records => .accept records
  | flush => .flush
  | shutdown => .shutdown

end Call

/-- How a call ends: with a completion, or by unwinding the caller. -/
inductive Answer where
  | returned (completion : Token)
  | panicked
  deriving DecidableEq, Repr

/-- An exporter that passes nothing on. -/
inductive Device where
  | memory (e : MemoryExporter)
  /-- Lines go to a consumer with a name, or to the log of the program. -/
  | lines (e : LineExporter) (consumer : Option String)
  /-- Requests go to a transport; an idle one does nothing when it is shut down. -/
  | otlp (e : Otlp.OtlpExporter) (transport : Script) (idle : Bool)
  | scripted (script : Script)

namespace Device

/-- The exporter of a device that keeps records in memory. -/
def memory? : Device → Option MemoryExporter
  | memory e => some e
  | _ => none

/-- The exporter of a device that sends requests. -/
def otlp? : Device → Option Otlp.OtlpExporter
  | otlp e _ _ => some e
  | _ => none

end Device

/-- All devices and completions, with callbacks of type `κ`, and what happened so far. -/
structure State (κ : Type) where
  ledger : Ledger κ := {}
  devices : Array Device := #[]
  /-- The completions that are left to be resolved by name. -/
  deferred : List (String × Token) := []
  events : Array Event := #[]

namespace State

variable {κ : Type}

instance : Inhabited (State κ) := ⟨{}⟩

/-- Adds a device; in the answer, the slot it is in. -/
def install (s : State κ) (d : Device) : State κ × Nat :=
  ({ s with devices := s.devices.push d }, s.devices.size)

/-- Replaces the device in a slot. -/
def put (s : State κ) (slot : Nat) (d : Device) : State κ :=
  { s with devices := s.devices.setIfInBounds slot d }

/-- Notes that something happened. -/
def note (s : State κ) (target : String) (what : Happening) : State κ :=
  { s with events := s.events.push ⟨target, what⟩ }

/-- Writes lines to a consumer, if there is one. -/
def write (s : State κ) (consumer : Option String) (lines : List String) : State κ :=
  match consumer with
  | some name => lines.foldl (fun (s : State κ) text => s.note name (.line text)) s
  | none => s

/-- Returns a completion that has its outcome. -/
def settle (s : State κ) (success : Bool) : State κ × Answer :=
  let (ledger, t) := s.ledger.settled success
  ({ s with ledger }, .returned t)

/-- Returns a pending completion that is resolved later by name. -/
def postpone (s : State κ) (name : String) : State κ × Answer :=
  let (ledger, t) := s.ledger.fresh
  ({ s with ledger, deferred := s.deferred ++ [(name, t)] }, .returned t)

/-- The completion for all of a list. -/
def ofAll (s : State κ) (tokens : List Token) : State κ × Token :=
  let (ledger, t) := s.ledger.ofAll tokens
  ({ s with ledger }, t)

/-- The completion that an answer stands for where panics are caught: a panic counts as failed. -/
def contain (s : State κ) : Answer → State κ × Token
  | .returned t => (s, t)
  | .panicked =>
    let (ledger, t) := s.ledger.settled false
    ({ s with ledger }, t)

/-- **A call of something scripted.**  It leaves its trace, then ends as the script says. -/
def enact (s : State κ) (script : Script) (op : Operation) (what : Happening) :
    State κ × Script × Answer :=
  let s := s.note script.name what
  let (s, answer) := match (script.track op).outcome with
    | .ok => s.settle true
    | .fail => s.settle false
    | .panic => (s, .panicked)
    | .defer => s.postpone (script.deferredName op)
  (s, script.next op, answer)

/-- Hands a request to a transport.  Unless it fails or panics, the request counts as sent. -/
def send (s : State κ) (transport : Script) (submission : Otlp.Submission) :
    State κ × Script × Answer :=
  let s := s.note transport.name (.send submission)
  let (s, answer) := match (transport.track .send).outcome with
    | .fail => s.settle false
    | .panic => (s, .panicked)
    | _ => s.settle true
  (s, transport.next .send, answer)

/-- Shuts a transport down.  It has nothing to answer. -/
def hangUp (s : State κ) (transport : Script) : State κ × Script × Answer :=
  let s := s.note transport.name .shutdown
  let (s, answer) := match (transport.track .shutdown).outcome with
    | .panic => (s, .panicked)
    | _ => s.settle true
  (s, transport.next .shutdown, answer)

/-- **A call of the device in a slot.** -/
def call (s : State κ) (slot : Nat) (c : Call) : State κ × Answer :=
  match s.devices[slot]? with
  | none => s.settle false
  | some (.memory e) =>
    match c with
    | .accept records =>
      let (e, taken) := e.accept records
      (s.put slot (.memory e)).settle taken
    | .flush => s.settle true
    | .shutdown => (s.put slot (.memory e.shutdown)).settle true
  | some (.lines e consumer) =>
    match c with
    | .accept records =>
      match e.accept? records with
      | none => s.settle false
      | some lines => (s.write consumer lines).settle true
    | .flush => s.settle true
    | .shutdown => (s.put slot (.lines e.shutdown consumer)).settle true
  | some (.otlp e transport idle) =>
    match c with
    | .accept records =>
      match e.submission? records with
      | none => s.settle false
      | some submission =>
        let (s, transport, answer) := s.send transport submission
        (s.put slot (.otlp e transport idle), answer)
    | .flush => s.settle true
    | .shutdown =>
      if e.isShutdown then s.settle true
      else if idle then (s.put slot (.otlp e.shutdown transport idle)).settle true
      else
        let (s, transport, answer) := s.hangUp transport
        (s.put slot (.otlp e.shutdown transport idle), answer)
  | some (.scripted script) =>
    let (s, script, answer) := s.enact script c.operation c.happening
    (s.put slot (.scripted script), answer)

end State

end ProfilePipeline.Export
