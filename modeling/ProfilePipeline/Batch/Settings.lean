import ProfilePipeline.Limits

/-!
# Settings of the batch processor

All settings have to be positive, and a batch is never larger than the queue it is taken from.
Times are in milliseconds.
-/

namespace ProfilePipeline.Batch

/-- What may be set. -/
structure Settings where
  scheduleDelay : Nat := 1000
  maxQueueSize : Nat := 2048
  maxExportBatchSize : Nat := 512
  exporterTimeout : Nat := 30000
  deriving DecidableEq, Repr, Inhabited

/-- Settings that a processor can work with. -/
structure Config where
  scheduleDelay : Nat
  queueLimit : Nat
  batchLimit : Nat
  exporterTimeout : Nat
  batchLimit_pos : 0 < batchLimit
  batchLimit_le : batchLimit ≤ queueLimit

/-- **Checks the settings**, in the order in which they are listed, and cuts the batch down to the
queue. -/
def Settings.build (s : Settings) : Except ConfigError Config :=
  if s.scheduleDelay = 0 then .error (.notPositive .scheduleDelay)
  else if hq : s.maxQueueSize = 0 then .error (.notPositive .maxQueueSize)
  else if hb : s.maxExportBatchSize = 0 then .error (.notPositive .maxExportBatchSize)
  else if s.exporterTimeout = 0 then .error (.notPositive .exporterTimeout)
  else .ok
    { scheduleDelay := s.scheduleDelay
      queueLimit := s.maxQueueSize
      batchLimit := min s.maxExportBatchSize s.maxQueueSize
      exporterTimeout := s.exporterTimeout
      batchLimit_pos := by omega
      batchLimit_le := by omega }

end ProfilePipeline.Batch
