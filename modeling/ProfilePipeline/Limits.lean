/-!
# Settings and limits

What a builder of this library refuses is a setting that has to be positive and is zero.

* `ConfigError` — the refusal, by the setting it is about.
* `Limits` — the bounds on the attributes of a record.
-/

namespace ProfilePipeline

/-- The settings that have to be positive. -/
inductive Setting where
  | maxNumberOfAttributes
  | scheduleDelay
  | maxQueueSize
  | maxExportBatchSize
  | exporterTimeout
  deriving DecidableEq, Repr

namespace Setting

/-- The name under which a setting appears in messages. -/
def name : Setting → String
  | maxNumberOfAttributes => "max_number_of_attributes"
  | scheduleDelay => "schedule_delay"
  | maxQueueSize => "max_queue_size"
  | maxExportBatchSize => "max_export_batch_size"
  | exporterTimeout => "exporter_timeout"

end Setting

/-- A refused configuration. -/
inductive ConfigError where
  | notPositive (setting : Setting)
  deriving DecidableEq, Repr

namespace ConfigError

/-- The text of the refusal. -/
def message : ConfigError → String
  | notPositive setting => setting.name ++ " must be greater than zero"

end ConfigError

/-- Bounds on the attributes of each record: their number, and the characters of a text. -/
structure Limits where
  maxAttributes : Nat := 128
  maxValueLength : Nat := 0xffffffffffffffff
  deriving DecidableEq, Repr, Inhabited

namespace Limits

/-- The bounds that hold when nothing is set: 128 attributes of any length. -/
def standard : Limits := {}

/-- Limits from optional settings; a bound of no attributes is refused. -/
def build (maxAttributes maxValueLength : Option Nat) : Except ConfigError Limits :=
  let maxAttributes := maxAttributes.getD standard.maxAttributes
  if maxAttributes = 0 then .error (.notPositive .maxNumberOfAttributes)
  else .ok ⟨maxAttributes, maxValueLength.getD standard.maxValueLength⟩

end Limits

end ProfilePipeline
