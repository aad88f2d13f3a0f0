import ProfilePipeline.Document.Record
import ProfilePipeline.Scenario.Session

/-!
# Documents of pipelines

How exporters, processors and providers are described, and how events and outcomes are shown.  A
description names its `kind`; what a fan-out is made of is listed under `of`.

* `ExporterSpec.ofDocument`, `ProcessorSpec.ofDocument` — descriptions, however deep.
* `Document.ofEvent` — a call that reached the outside.
-/

namespace ProfilePipeline

open Document (object list choice hex abridgedBytes abridgedText)

/-! ## Lists of parts -/

namespace Document

theorem sizeOf_lookup_lt {key : String} {members : List (String × Document)} {d : Document}
    (h : members.lookup key = some d) : sizeOf d < sizeOf members := by
  induction members with
  | nil => simp at h
  | cons m members ih =>
    obtain ⟨k, v⟩ := m
    rw [List.lookup_cons] at h
    simp only [List.cons.sizeOf_spec, Prod.mk.sizeOf_spec]
    split at h
    · obtain rfl : v = d := by simpa using h
      omega
    · have := ih h
      omega

/-- The parts that a description lists. -/
def parts : Document → List Document
  | object members =>
    match members.lookup "of" with
    | some (list ds) => ds
    | _ => []
  | _ => []

theorem sizeOf_lt_of_mem_parts {d part : Document} (h : part ∈ d.parts) :
    sizeOf part < sizeOf d := by
  cases d with
  | object members =>
    simp only [parts] at h
    split at h
    · rename_i ds hd
      have h₁ := List.sizeOf_lt_of_mem h
      have h₂ := sizeOf_lookup_lt hd
      simp only [list.sizeOf_spec, object.sizeOf_spec] at h₂ ⊢
      omega
    · simp at h
  | _ => simp [parts] at h

end Document

/-! ## Exporters -/

namespace Export

instance : FromDocument Outcome where
  of := choice [("ok", .ok), ("fail", .fail), ("panic", .panic), ("defer", .defer)]

instance : FromDocument Track := ⟨fun d => return { outcomes := ← d.as }⟩

instance : FromDocument Script where
  of d := return {
    name := ← d.get "id"
    accept := ← d.get "export"
    flush := ← d.get "flush"
    shutdown := ← d.get "shutdown"
    send := ← d.get "send"
    onEmit := ← d.get "on_emit" }

/-- An exporter of requests.  A second transport takes the place of the first one. -/
def Device.readOtlp (d : Document) : Reading Device := do
  let transport := match d.member "second_transport" with
    | .null => d
    | second => second
  let protocol ← choice [("", .grpc), ("grpc", .grpc), ("http", .http)] (d.member "protocol")
  return .otlp { protocol } (← transport.as) (← transport.get "plain")

/-- An exporter that writes lines, which `no_consumer` sends to the log of the program. -/
def Device.readLines (id : String) (d : Document) : Reading Device := do
  return .lines { fold := ← d.get "fold" } (if ← d.holds "no_consumer" then none else some id)

end Export

namespace Scenario

/-- **The description of an exporter.** -/
def ExporterSpec.ofDocument (d : Document) : Reading ExporterSpec := do
  let id : String ← d.get "id"
  let children ← d.parts.attach.mapM fun ⟨part, _⟩ => ExporterSpec.ofDocument part
  match (← d.get "kind" : String) with
  | "noop" => return .discard id
  | "in_memory" => return .device id (.memory {})
  | "string" => return .device id (← Export.Device.readLines id d)
  | "otlp" => return .device id (← Export.Device.readOtlp d)
  | "scripted" => return .device id (.scripted (← d.as))
  | "ref" => return .shared id
  | "multi" => return .fanOut id children
  | "composite" => return .composite id children
  | _ => throw "exporter expected"
termination_by sizeOf d
decreasing_by exact Document.sizeOf_lt_of_mem_parts ‹_›

instance : FromDocument ExporterSpec := ⟨ExporterSpec.ofDocument⟩

end Scenario

/-! ## Processors -/

instance : FromDocument Processing.Implements where
  of := choice [("", .everything), ("flush", .flush), ("trait", .nothing)]

/-- Settings of a batch processor, with the schedule delay that holds if none is given. -/
def Batch.Settings.ofDocument (scheduleDelay : Nat) (d : Document) : Reading Settings := do
  let standard : Settings := { scheduleDelay }
  return {
    scheduleDelay := ← d.getD "schedule_delay_ms" standard.scheduleDelay
    maxQueueSize := ← d.getD "max_queue_size" standard.maxQueueSize
    maxExportBatchSize := ← d.getD "max_export_batch_size" standard.maxExportBatchSize
    exporterTimeout := ← d.getD "exporter_timeout_ms" standard.exporterTimeout }

namespace Scenario

/-- An hour in milliseconds: the schedule delay that no scenario waits for. -/
def longDelay : Nat := 3600000

/-- **The description of a processor.** -/
def ProcessorSpec.ofDocument (d : Document) : Reading ProcessorSpec := do
  let children ← d.parts.attach.mapM fun ⟨part, _⟩ => ProcessorSpec.ofDocument part
  match (← d.get "kind" : String) with
  | "noop" => return .discard
  | "simple" => return .simple (← d.get "exporter")
  | "batch" => return .batch (← d.get "exporter") (← Batch.Settings.ofDocument longDelay d)
  | "scripted" => return .scripted {
      script := ← d.as
      changes := ← d.get "set"
      isNoop := ← d.get "is_noop"
      implements := ← d.get "shutdown_from" }
  | "multi" => return .fanOut children
  | "composite" => return .composite children
  | _ => throw "processor expected"
termination_by sizeOf d
decreasing_by exact Document.sizeOf_lt_of_mem_parts ‹_›

instance : FromDocument ProcessorSpec := ⟨ProcessorSpec.ofDocument⟩

/-! ## Providers -/

/-- A call is a list of its name and what it is given. -/
instance : FromDocument ProviderCall where
  of d := do
    match (← d.part 0 : String) with
    | "set_resource" => .setResource <$> d.part 1
    | "add_resource" => .addResource <$> d.part 1
    | "limits" => .limits <$> d.part 1
    | "clock" => .clock <$> d.part 1
    | "processor" => .processor <$> d.part 1
    | _ => throw "builder call expected"

end Scenario

/-! ## What happens -/

/-- The outcome of a completion, by its name. -/
def Document.ofOutcome : Option Bool → Document
  | none => doc "pending"
  | some true => doc "ok"
  | some false => doc "failed"

/-- A record in short: its identifier, which `showId` shows, its attributes as a text, and how many
there were to be. -/
def Record.short (showId : List UInt8 → Document) (r : Record) : Document :=
  list [showId r.profileId, doc r.attributes.render, doc r.totalAttributes]

/-- **An event**: where it took place, and with what. -/
def Document.ofEvent (showId : List UInt8 → Document) (e : Export.Event) : Document :=
  object (("at", doc e.place) :: match e.what with
    | .accept records => [("with", list (records.map (·.short showId)))]
    | .flush | .shutdown => []
    | .send s => [("with", object [("path", doc s.path), ("content_type", doc s.contentType),
        ("body", abridgedBytes s.body)])]
    | .onEmit r span => [("with", list [r.short showId, doc span.span.render])]
    | .line l => [("line", abridgedText l)])

/-! ## Batches -/

namespace Batch

instance : FromDocument ExportOutcome where
  of := choice [("ok", .succeeded), ("fail", .failed), ("panic", .panicked), ("never", .timedOut)]

instance : FromDocument ShutdownAnswer where
  of := choice [("", .returned (some true)), ("ok", .returned (some true)),
    ("fail", .returned (some false)), ("never", .returned none), ("panic", .panicked)]

instance : ToDocument Metric where
  doc m := list [doc (if m.kind = .count then "count" else "gauge"), doc m.name, doc m.value,
    doc m.attributes]

/-- The settings in effect. -/
def Config.members (c : Config) : List (String × Document) :=
  [("schedule_delay_ms", doc c.scheduleDelay), ("max_queue_size", doc c.queueLimit),
    ("max_export_batch_size", doc c.batchLimit), ("exporter_timeout_ms", doc c.exporterTimeout)]

end Batch

end ProfilePipeline
