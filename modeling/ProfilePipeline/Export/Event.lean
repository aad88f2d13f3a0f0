import ProfilePipeline.Otlp.Exporter
import ProfilePipeline.Export.Script

/-!
# What can be observed of a pipeline

Exporters, transports and processors that belong to somebody else see the calls that reach them.
The sequence of these calls, in the order in which they were made, is what a pipeline does.
-/

namespace ProfilePipeline.Export

/-- A call that reached the outside. -/
inductive Happening where
  | accept (records : List Record)
  | flush
  | shutdown
  | send (submission : Otlp.Submission)
  | onEmit (record : Record) (span : SpanContext)
  | line (text : String)

/-- The name of a kind of call. -/
def Happening.name : Happening → String
  | accept _ => Operation.accept.name
  | flush => Operation.flush.name
  | shutdown => Operation.shutdown.name
  | send _ => Operation.send.name
  | onEmit _ _ => Operation.onEmit.name
  | line _ => "line"

/-- A call, and what it was made on. -/
structure Event where
  target : String
  what : Happening

/-- Where an event took place: what was called, and how. -/
def Event.place (e : Event) : String := e.target ++ "." ++ e.what.name

end ProfilePipeline.Export
