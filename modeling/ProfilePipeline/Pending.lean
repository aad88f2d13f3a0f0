import ProfilePipeline.Clock
import ProfilePipeline.Record

/-!
# Profiles before they are emitted

What instrumentation says about a profile, call by call.  What is not set is filled in when the
profile is emitted; after that the next one begins with nothing set.

* `Pending.set` — one setting.
* `BuilderCall.run` — a sequence of settings and emissions.
-/

namespace ProfilePipeline

/-- The fields of a profile as far as they are set. -/
structure Pending where
  profileId : Option (List UInt8) := none
  timestamp : UInt64 := 0
  observed : Option UInt64 := none
  context : Option Context := none
  /-- In the order in which they were set, with repetitions. -/
  attributes : List (String × AttributeValue) := []
  payloadFormat : String := ""
  payloadBytes : List UInt8 := []
  payload : Payload := {}

/-- A setting. -/
inductive PendingSetting where
  | profileId (id : List UInt8)
  | timestamp (nanos : UInt64)
  | timestampAt (moment : Moment)
  | observed (nanos : UInt64)
  | observedAt (moment : Moment)
  | context (c : Context)
  | attributes (pairs : List (String × AttributeValue))
  | payloadBytes (format : String) (bytes : List UInt8)
  | payload (p : Payload)

namespace Pending

instance : Inhabited Pending := ⟨{}⟩

/-- **One setting.**  Attributes add up; everything else is replaced. -/
def set (p : Pending) : PendingSetting → Pending
  | .profileId id => { p with profileId := some id }
  | .timestamp nanos => { p with timestamp := nanos }
  | .timestampAt moment => { p with timestamp := moment.epochNanos }
  | .observed nanos => { p with observed := some nanos }
  | .observedAt moment => { p with observed := some moment.epochNanos }
  | .context c => { p with context := some c }
  | .attributes pairs => { p with attributes := p.attributes ++ pairs }
  | .payloadBytes format bytes => { p with payloadFormat := format, payloadBytes := bytes }
  | .payload payload => { p with payload }

end Pending

/-- A call of the builder of profiles. -/
inductive BuilderCall where
  | set (setting : PendingSetting)
  | emit

namespace BuilderCall

/-- **The profiles that a sequence of calls emits**, beginning with what is set so far. -/
def emitted (p : Pending) : List BuilderCall → List Pending
  | [] => []
  | set setting :: calls => emitted (p.set setting) calls
  | emit :: calls => p :: emitted {} calls

end BuilderCall

end ProfilePipeline
