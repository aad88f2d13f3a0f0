import ProfilePipeline.Record

/-!
# Keeping records in memory

An exporter that keeps what it is given, for looking at it afterwards.  Shutting it down forgets
everything and makes it refuse what comes later.
-/

namespace ProfilePipeline.Export

/-- The records kept so far, in export order. -/
structure MemoryExporter where
  finished : List Record := []
  isShutdown : Bool := false

namespace MemoryExporter

/-- Takes a batch; in the answer, whether it was taken. -/
def accept (e : MemoryExporter) (records : List Record) : MemoryExporter × Bool :=
  if e.isShutdown then (e, false) else ({ e with finished := e.finished ++ records }, true)

/-- Forgets all records. -/
def reset (e : MemoryExporter) : MemoryExporter := { e with finished := [] }

/-- Forgets all records and takes no more. -/
def shutdown (e : MemoryExporter) : MemoryExporter := { e.reset with isShutdown := true }

end MemoryExporter

end ProfilePipeline.Export
