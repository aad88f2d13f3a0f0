import ProfilePipeline.Provider

/-!
# Building pipelines from descriptions

A description says which exporters and processors a pipeline is made of.  Every exporter is known by
an identifier, so that a pipeline can share one and a scenario can refer to it.  Exporters that were
not given one are all called the same, and the name stands for the latest of them.  A device is
known by its identifier also among the devices of its kind alone, so that one called like an
exporter of another kind can still be looked at.

* `ExporterSpec.build`, `ProcessorSpec.build` — what a description describes.
-/

namespace ProfilePipeline.Scenario

open Export (Device Exporter)
open Processing (Processor)

/-- A description of an exporter, with its identifier. -/
inductive ExporterSpec where
  | discard (id : String)
  | device (id : String) (d : Device)
  /-- The exporter that was built under an identifier. -/
  | shared (id : String)
  | fanOut (id : String) (children : List ExporterSpec)
  | composite (id : String) (children : List ExporterSpec)
  deriving Inhabited

namespace ExporterSpec

/-- The identifier of an exporter. -/
def id : ExporterSpec → String
  | discard id | device id _ | shared id | fanOut id _ | composite id _ => id

/-- The first exporter that a fan-out or a composite is made of. -/
def first? : ExporterSpec → Option ExporterSpec
  | fanOut _ children | composite _ children => children.head?
  | _ => none

end ExporterSpec

/-- A description of a processor. -/
inductive ProcessorSpec where
  | discard
  | simple (exporter : ExporterSpec)
  | batch (exporter : ExporterSpec) (settings : Batch.Settings)
  | scripted (p : Processing.ScriptedProcessor)
  | fanOut (children : List ProcessorSpec)
  | composite (children : List ProcessorSpec)
  deriving Inhabited

/-- A step in building a provider. -/
inductive ProviderCall where
  | setResource (r : Resource)
  | addResource (r : Resource)
  | limits (l : Except ConfigError Limits)
  | clock (now : UInt64)
  | processor (spec : ProcessorSpec)

/-- Why something cannot be built or done. -/
inductive Refusal where
  | config (e : ConfigError)
  /-- The scenario itself makes no sense. -/
  | malformed (what : String)

/-- Everything that has been built. -/
structure Site where
  state : Processing.State := {}
  /-- Exporters by identifier, the latest first. -/
  exporters : List (String × Exporter) := []
  /-- The slots of devices by identifier, the latest first. -/
  devices : List (String × Nat) := []
  fanOuts : Nat := 0

/-- The latest device of a kind with an identifier, and its slot.  `kind?` looks into a device of
that kind. -/
def Site.device? {α : Type} (site : Site) (id : String) (kind? : Device → Option α) :
    Option (Nat × α) :=
  site.devices.findSome? fun (name, slot) =>
    if name = id then ((site.state.exports.devices[slot]?).bind kind?).map (slot, ·) else none

/-- Building things at a site.  What was built before a refusal stays. -/
abbrev Building := ExceptT Refusal (StateM Site)

namespace Building

/-- Insists on a setting that is not refused. -/
def accepted {α : Type} : Except ConfigError α → Building α
  | .ok a => pure a
  | .error e => throw (.config e)

/-- A number that no fan-out has yet. -/
def nextNumber : Building Nat :=
  modifyGet fun site => (site.fanOuts, { site with fanOuts := site.fanOuts + 1 })

/-- Changes the processors and exporters. -/
def modifyState {α : Type} (f : Processing.State → α × Processing.State) : Building α :=
  modifyGet fun site =>
    let (a, state) := f site.state
    (a, { site with state })

/-- The exporter with an identifier. -/
def exporter (id : String) : Building Exporter := do
  match (← get).exporters.lookup id with
  | some e => return e
  | none => throw (.malformed ("no exporter " ++ id))

/-- Lets an exporter be known by an identifier. -/
def call (id : String) (e : Exporter) : Building Exporter := do
  modify fun site => { site with exporters := (id, e) :: site.exporters }
  return e

/-- Installs a device under an identifier. -/
def install (id : String) (d : Device) : Building Exporter := do
  let slot ← modifyState fun s =>
    let (exports, slot) := s.exports.install d
    (slot, { s with exports })
  modify fun site => { site with devices := (id, slot) :: site.devices }
  return .device slot

end Building

namespace ExporterSpec

mutual

/-- **The exporter of a description.** -/
def build : ExporterSpec → Building Exporter
  | discard id => Building.call id .discard
  | device id d => do Building.call id (← Building.install id d)
  | shared id => Building.exporter id
  | fanOut id children => do
    let es ← buildEach children
    Building.call id (.fanOut (← Building.nextNumber) es)
  | composite id children => do
    let es ← buildEach children
    Building.call id (.composite (← Building.nextNumber) es)

/-- The exporters of a list of descriptions, in order. -/
def buildEach : List ExporterSpec → Building (List Exporter)
  | [] => pure []
  | spec :: specs => do
    let e ← spec.build
    return e :: (← buildEach specs)

end

/-- Whether a built exporter is the one known by the name of the first that it is made of. -/
def isFirst (spec : ExporterSpec) (e : Exporter) : Building Bool :=
  match spec.first? with
  | some first => do return e.isSame (← Building.exporter first.id)
  | none => pure false

end ExporterSpec

namespace ProcessorSpec

open Building (modifyState)

/-- Installs a batch processor in front of an exporter. -/
def installBatch (exporter : Exporter) (config : Batch.Config) : Building Processor :=
  modifyState fun s => (.batch s.batches.size,
    { s with batches := s.batches.push { machine := .start config, exporter } })

mutual

/-- **The processor of a description.** -/
def build : ProcessorSpec → Building Processor
  | discard => pure .discard
  | simple spec => do
    let exporter ← spec.build
    modifyState fun s => (.simple s.simples.size, { s with simples := s.simples.push { exporter } })
  | batch spec settings => do
    let exporter ← spec.build
    installBatch exporter (← Building.accepted settings.build)
  | scripted p =>
    modifyState fun s => (.scripted s.scripted.size, { s with scripted := s.scripted.push p })
  | fanOut children => do
    let ps ← buildEach children
    return .fanOut (← Building.nextNumber) ps
  | composite children => do
    let ps ← buildEach children
    return .composite (← Building.nextNumber) ps

/-- The processors of a list of descriptions, in order. -/
def buildEach : List ProcessorSpec → Building (List Processor)
  | [] => pure []
  | spec :: specs => do
    let p ← spec.build
    return p :: (← buildEach specs)

end

end ProcessorSpec

namespace ProviderCall

/-- One step in building a provider. -/
def apply (b : ProviderBuilder) : ProviderCall → Building ProviderBuilder
  | setResource r => pure (b.setResource r)
  | addResource r => pure (b.addResource r)
  | limits l => do return { b with limits := .supplied (← Building.accepted l) }
  | clock now => pure { b with clock := ⟨now⟩ }
  | processor spec => b.addProcessor <$> spec.build

/-- **The provider that a sequence of steps builds.** -/
def build (calls : List ProviderCall) : Building Provider := do
  let b ← calls.foldlM apply {}
  return .build b (← Building.nextNumber) (← get).state

end ProviderCall

end ProfilePipeline.Scenario
