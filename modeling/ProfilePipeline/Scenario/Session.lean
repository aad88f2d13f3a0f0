import ProfilePipeline.Scenario.Site

/-!
# Operating pipelines step by step

A session does one thing after the other with what has been built.  Between two steps batch
processors go as far as they can.  After each step it shows what the step gave, what happened
outside meanwhile, and where all completions stand that steps have returned so far.

* `Session.reveal` — what is to be seen after a step.
* `Session.ask`, `Session.request`, `Session.emit` — the steps on exporters, processors and
  profilers.
-/

namespace ProfilePipeline.Scenario

open Completion (Token)
open Export (Device Exporter Event Answer)
open Processing (Processor)

/-- What a step gives: a value, a completion, or nothing because it panicked. -/
inductive Given (α : Type) where
  | value (a : α)
  | completion (t : Token)
  | panicked

namespace Given

variable {α : Type}

/-- What an answer gives. -/
def ofAnswer : Answer → Given α
  | .returned t => completion t
  | .panicked => panicked

/-- The same, with a value in place of a completion. -/
def hushed (a : α) : Given α → Given α
  | completion _ => value a
  | given => given

end Given

/-- What is to be seen after a step.  A completion is shown by its number among those returned. -/
structure Shown (α : Type) where
  given : Given α
  number : Nat
  events : List Event
  outcomes : List (Option Bool)

/-- A session: what has been built, and what steps have given. -/
structure Session where
  site : Site := {}
  returned : Array Token := #[]
  /-- How many events have been shown. -/
  shownEvents : Nat := 0
  /-- The profilers that were handed out. -/
  profilers : Array Profiler := #[]
  /-- The provider of the session, which can be installed once. -/
  provider : GlobalProvider := {}
  /-- Whether the owner of the provider has given it up. -/
  dropped : Bool := false
  /-- How many identifiers were made up. -/
  freshIds : Nat := 0

/-- Steps of a session, which may be refused.  What was done before a refusal stays. -/
abbrev Operating := ExceptT Refusal (StateM Session)

/-- The owner of an event: the name of what it took place at, up to the first dot. -/
def owner (e : Event) : String := String.ofList (e.place.toList.takeWhile (· != '.'))

namespace Session

open ProfilePipeline.Scenario (owner)

/-- Builds something. -/
def building {α : Type} (b : Building α) : Operating α := do
  let session ← get
  let (built, site) := b.run.run session.site
  set { session with site }
  match built with
  | .ok a => return a
  | .error refusal => throw refusal

/-- The outcome of a completion, once there is one. -/
def outcome? (session : Session) (t : Token) : Option Bool := session.site.state.outcome? t

/-- Changes the processors and exporters. -/
def withState (session : Session) (f : Processing.State → Processing.State) : Session :=
  { session with site := { session.site with state := f session.site.state } }

/-- Waits for a completion longer than any export may take. -/
def awaiting (session : Session) (t : Token) : Session :=
  if (session.outcome? t).isNone then session.withState (·.timeOutExports) else session

/-- **What is to be seen after a step.**  If the step waits for its completion, events are shown by
their owners, because their order across owners is up to chance. -/
def reveal {α : Type} (given : Given α) (join : Bool) : Operating (Shown α) := do
  modify (·.withState (·.advanceBatches))
  if let .completion t := given then
    modify fun session =>
      let session := { session with returned := session.returned.push t }
      if join then session.awaiting t else session
  let session ← get
  let all := session.site.state.exports.events
  let events := all.toList.drop session.shownEvents
  set { session with shownEvents := all.size }
  return {
    given
    number := session.returned.size - 1
    events := if join then events.mergeSort fun a b => decide (owner a ≤ owner b) else events
    outcomes := session.returned.toList.map session.outcome? }

/-! ## Exporters -/

/-- A call of an exporter. -/
def ask {α : Type} (e : Exporter) (c : Export.Call) : Operating (Given α) :=
  building do return .ofAnswer (← Building.modifyState fun s => (s.callExporter e c).swap)

/-- Resolves a completion that was left to be resolved by name, and gives the outcome. -/
def resolve (name : String) (success : Bool) : Operating (Given (Option Bool)) := do
  match (← get).site.state.exports.deferred.reverse.lookup name with
  | none => throw (.malformed ("no completion " ++ name))
  | some t =>
    let panicked ← building (Building.modifyState fun s => (s.resolve t success).swap)
    let session ← get
    return if panicked then .panicked else .value (session.outcome? t)

/-- The device of a kind with an identifier, and its slot. -/
def device {α : Type} (id : String) (kind? : Device → Option α) : Operating (Nat × α) := do
  match (← get).site.device? id kind? with
  | some found => return found
  | none => throw (.malformed ("no such device " ++ id))

/-- The records that a device keeps in memory. -/
def finished (id : String) : Operating (List Record) := do
  return (← device id Device.memory?).2.finished

/-- Lets a device forget the records that it keeps in memory. -/
def reset (id : String) : Operating Unit := do
  let (slot, e) ← device id Device.memory?
  modify (·.withState fun s => { s with exports := s.exports.put slot (.memory e.reset) })

/-- The exporter of requests with an identifier. -/
def otlpExporter (id : String) : Operating Otlp.OtlpExporter := do
  return (← device id Device.otlp?).2

/-! ## Processors -/

/-- A flush or a shutdown of a processor. -/
def request {α : Type} (p : Processor) (r : Processing.Request) : Operating (Given α) :=
  building do return .ofAnswer (← Building.modifyState fun s => (p.perform r s).swap)

/-- A record goes through a processor; gives the record as it is afterwards. -/
def emit (p : Processor) (span : SpanContext) (live : LiveRecord) : Operating (Given Record) :=
  building do
    let (live, panicked) ← Building.modifyState fun s => (p.onEmit span live s).swap
    return if panicked then .panicked else .value live.snapshot

/-! ## Providers -/

/-- The provider of the session, unless it is the one that discards everything. -/
def provider? (session : Session) : Option Provider :=
  match session.provider.current with
  | .discard => none
  | .of p => some p

/-- Changes the provider. -/
def changeProvider (f : Provider → Provider) : Operating Unit :=
  modify fun session =>
    { session with provider := match session.provider.installed with
      | some (.of p) => ⟨some (.of (f p))⟩
      | _ => session.provider }

/-- Shuts a provider down. -/
def shutdown {α : Type} (p : Provider) : Operating (Provider × Given α) :=
  building do
    let (p, answer) ← Building.modifyState fun s =>
      let (p, s, answer) := p.shutdown s
      ((p, answer), s)
    return (p, .ofAnswer answer)

/-- Installs a provider, and tells whether it could.  A provider that is turned away is given up,
which shuts it down. -/
def install (offered : AnyProvider) : Operating (Given Bool) := do
  match (← get).provider.install? offered, offered with
  | some provider, _ =>
    modify fun session => { session with provider }
    return .value true
  | none, .discard => return .value false
  | none, .of p =>
    let (_, given) ← shutdown p
    return given.hushed false

/-- The profiler that the provider hands out for a scope. -/
def handOut (scope : Scope) : Operating Profiler := do
  match (← get).provider? with
  | none => return .discard
  | some p =>
    let (p, handed) := p.profiler scope
    changeProvider fun _ => p
    return handed

/-- Numbers a profiler that was handed out.  Gives its number and that of the first one that is the
same. -/
def enroll (p : Profiler) : Operating (Nat × Nat) :=
  modifyGet fun session =>
    let profilers := session.profilers.push p
    let number := session.profilers.size
    ((number, (profilers.findIdx? (· = p)).getD number), { session with profilers })

/-- An identifier made up for a profile, other than those to avoid. -/
def freshId (avoid : List (List UInt8)) : Operating (List UInt8) :=
  modifyGet fun session =>
    let candidate (n : Nat) : List UInt8 :=
      bigEndian 6 (0x9d3c00000000 + n) ++ [0x4a, 0x11, 0x8b] ++ bigEndian 7 n
    let numbers := (List.range (avoid.length + 1)).map (session.freshIds + ·)
    let n := (numbers.find? fun n => !avoid.contains (candidate n)).getD session.freshIds
    (candidate n, { session with freshIds := n + 1 })

/-- Emits the profiles of a sequence of builder calls, until one of them panics.  Identifiers that
are made up differ from those to avoid. -/
def build (avoid : List (List UInt8)) (from_ : Profiler) (calls : List BuilderCall) :
    Operating (Given Unit) :=
  (BuilderCall.emitted {} calls).foldlM (fun given pending => do
    match given, (← get).provider? with
    | .value (), some p =>
      let id ← freshId avoid
      let panicked ← building (Building.modifyState fun s => (p.emit from_ pending id s).swap)
      return if panicked then .panicked else .value ()
    | given, _ => return given) (.value ())

/-- Hands out the profiler for a scope and emits the profiles of a sequence of builder calls from
it.  Gives its number, that of the first one that is the same, and the profiler.  It is numbered
once all this is done, so not if something panics. -/
def profiler (avoid : List (List UInt8)) (scope : Scope) (calls : List BuilderCall) :
    Operating (Given (Nat × Nat × Profiler)) := do
  let p ← handOut scope
  match ← build avoid p calls with
  | .value () =>
    let (number, first) ← enroll p
    return .value (number, first, p)
  | .completion t => return .completion t
  | .panicked => return .panicked

/-- Flushes the provider. -/
def flushProvider {α : Type} : Operating (Given α) := do
  match (← get).provider? with
  | none => throw (.malformed "no provider")
  | some p => building do return .ofAnswer (← Building.modifyState fun s => (p.flush s).swap)

/-- Shuts the provider of the session down. -/
def shutdownProvider {α : Type} : Operating (Given α) := do
  match (← get).provider? with
  | none => throw (.malformed "no provider")
  | some p =>
    let (p, given) ← shutdown p
    changeProvider fun _ => p
    return given

/-- Gives the provider of the session up, which shuts it down. -/
def dropProvider : Operating (Given Unit) := do
  if (← get).dropped then return .value ()
  modify fun session => { session with dropped := true }
  return (← shutdownProvider).hushed ()

end Session

end ProfilePipeline.Scenario
