/-!
# Health metrics

What a processor reports about itself: how many records it handled and how many wait in its queue.
Measurements are handed on as they are made and added up by whoever receives them.
-/

namespace ProfilePipeline.Batch

/-- Counts add up; a gauge is a value at one moment. -/
inductive MetricKind where
  | count
  | gauge
  deriving DecidableEq, Repr

/-- One measurement. -/
structure Metric where
  kind : MetricKind
  name : String
  value : Nat
  attributes : List (String × String)
  deriving DecidableEq, Repr

namespace Metric

/-- The attribute that every measurement carries. -/
def processorType : String × String := ("profileProcessorType", "BatchProfileProcessor")

/-- A number of records that were dropped or, if not, exported. -/
def processed (records : Nat) (dropped : Bool) : Metric :=
  ⟨.count, "processedProfiles", records,
    [processorType, ("dropped", if dropped then "true" else "false")]⟩

/-- The number of records that wait. -/
def queueSize (records : Nat) : Metric := ⟨.gauge, "queueSize", records, [processorType]⟩

end Metric

end ProfilePipeline.Batch
