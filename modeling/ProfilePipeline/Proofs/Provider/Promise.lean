import ProfilePipeline.Proofs.Attribute.Bounded
import ProfilePipeline.Proofs.Provider.Usage

/-!
# What is promised of a record

What a program did decides what is in the records it emits, and it can be read off without running
anything.

* `Usage.since` — what was set on a builder since it emitted last.
* `lastSet` — the value that settings give to a field last, or else its default.
* **`Usage.record`** — the record that a builder emits: each field as it was set last, what the
  provider gives to every record, the scope of the profiler, the clock and the limits as they are at
  that moment, and the attributes put into an empty set one after the other.
* `Usage.calls` — what reaches the processor: every record that is emitted and every shutdown, until
  a shutdown returns.

A builder keeps the fields and not the settings; `foldl_set` says that this makes no difference.
-/

namespace ProfilePipeline

open Export (Answer)
open Processing (Processor State)

variable {p b : Nat}

/-! ## The fields that a setting gives a value -/

namespace PendingSetting

def profileId? : PendingSetting → Option (List UInt8)
  | profileId id => some id
  | _ => none

def timestamp? : PendingSetting → Option UInt64
  | timestamp nanos => some nanos
  | timestampAt moment => some moment.epochNanos
  | _ => none

def observed? : PendingSetting → Option UInt64
  | observed nanos => some nanos
  | observedAt moment => some moment.epochNanos
  | _ => none

def span? : PendingSetting → Option SpanContext
  | context c => some c.span
  | _ => none

def payloadFormat? : PendingSetting → Option String
  | payloadBytes format _ => some format
  | _ => none

def payloadBytes? : PendingSetting → Option (List UInt8)
  | payloadBytes _ bytes => some bytes
  | _ => none

def payload? : PendingSetting → Option Payload
  | payload value => some value
  | _ => none

/-- The attributes that a setting adds. -/
def offers : PendingSetting → Offers
  | attributes pairs => pairs
  | _ => []

end PendingSetting

/-- **The value that settings give to a field last**, or else its default. -/
def lastSet {α : Type} (field : PendingSetting → Option α) (default : α)
    (settings : List PendingSetting) : α :=
  (settings.reverse.findSome? field).getD default

namespace Usage

/-! ## What a program did -/

/-- The scopes that profilers were asked for, each with a name. -/
def requested : {p b : Nat} → Usage p b → Vector Scope p
  | _, _, start => #v[]
  | _, _, profiler before scope => before.requested.push scope.named
  | _, _, builder before _ => before.requested
  | _, _, step before _ => before.requested

/-- The scope that a profiler was asked for. -/
def asked (u : Usage p b) (j : Fin p) : Scope := getElem u.requested j j.isLt

/-- **The scope of a profiler**: the first one that was asked for with the same identity. -/
def scopeOf (u : Usage p b) (j : Fin p) : Scope :=
  (u.requested.toList.find? (·.identity = (u.asked j).identity)).getD (u.asked j)

/-- The scopes of the profilers that builders belong to. -/
def scopes : {p b : Nat} → Usage p b → Vector Scope b
  | _, _, start => #v[]
  | _, _, profiler before _ => before.scopes
  | _, _, builder before j => before.scopes.push (before.scopeOf j)
  | _, _, step before _ => before.scopes

/-- The scope of the profiler that a builder belongs to. -/
def scope (u : Usage p b) (k : Fin b) : Scope := getElem u.scopes k k.isLt

/-- **What was set on a builder since it emitted last**, or since it was made. -/
def since : {p b : Nat} → Usage p b → Nat → List PendingSetting
  | _, _, start, _ => []
  | _, _, profiler before _, k => before.since k
  | _, _, builder before _, k => before.since k
  | _, _, step before (.set k' setting), k =>
    if k' = k then before.since k ++ [setting] else before.since k
  | _, _, step before (.emit k' _), k => if k' = k then [] else before.since k
  | _, _, step before _, k => before.since k

/-- The clock: as it was changed last. -/
def clockNow (setup : Setup) : {p b : Nat} → Usage p b → ManualClock
  | _, _, start => setup.builder.clock
  | _, _, profiler before _ => before.clockNow setup
  | _, _, builder before _ => before.clockNow setup
  | _, _, step _ (.clock now) => now
  | _, _, step before _ => before.clockNow setup

/-- Where limits come from, as it was changed last. -/
def limitsNow (setup : Setup) : {p b : Nat} → Usage p b → LimitsSource
  | _, _, start => setup.builder.limits
  | _, _, profiler before _ => before.limitsNow setup
  | _, _, builder before _ => before.limitsNow setup
  | _, _, step _ (.limits bounds) => setup.builder.limits.change bounds
  | _, _, step before _ => before.limitsNow setup

/-- How often the provider was shut down. -/
def shutdowns : {p b : Nat} → Usage p b → Nat
  | _, _, start => 0
  | _, _, profiler before _ => before.shutdowns
  | _, _, builder before _ => before.shutdowns
  | _, _, step before .shutdown => before.shutdowns + 1
  | _, _, step before _ => before.shutdowns

@[simp] lemma asked_profiler_last (u : Usage p b) (scope : Scope) :
    (u.profiler scope).asked (Fin.last p) = scope.named := by
  simp [asked, requested]

@[simp] lemma asked_profiler_castSucc (u : Usage p b) (scope : Scope) (j : Fin p) :
    (u.profiler scope).asked j.castSucc = u.asked j := by
  simp [asked, requested]

@[simp] lemma scope_builder_last (u : Usage p b) (j : Fin p) :
    (u.builder j).scope (Fin.last b) = u.scopeOf j := by
  simp [scope, scopes]

@[simp] lemma scope_builder_castSucc (u : Usage p b) (j : Fin p) (k : Fin b) :
    (u.builder j).scope k.castSucc = u.scope k := by
  simp [scope, scopes]

/-! ## The record -/

variable (setup : Setup) (u : Usage p b) (k : Fin b) (freshId : Vector UInt8 16)

/-- **What is fixed of the record that a builder emits.** -/
def emission : Emission where
  resource := setup.builder.resource
  scope := u.scope k
  profileId := lastSet (·.profileId?) freshId.toList (u.since k)
  timestamp := lastSet (·.timestamp?) 0 (u.since k)
  observedTimestamp := lastSet (·.observed?) (u.clockNow setup).now (u.since k)
  span := lastSet (·.span?) .invalid (u.since k)
  payloadFormat := lastSet (·.payloadFormat?) "" (u.since k)
  payloadBytes := lastSet (·.payloadBytes?) [] (u.since k)
  payload := lastSet (·.payload?) {} (u.since k)

/-- The attributes that were set on a builder, in order. -/
def offers : Offers := (u.since k).flatMap (·.offers)

/-- **The attributes of the record that a builder emits**: those set, put one after the other into
an empty set with the limits of that moment. -/
def bounded : BoundedAttributes :=
  (BoundedAttributes.ofLimits (u.limitsNow setup).current).putAll (u.offers k)

/-- **The record that a builder emits**, while it is live.  There is a set of attributes once one
with a key was set. -/
def record : LiveRecord where
  emission := u.emission setup k freshId
  limits := (u.limitsNow setup).current
  attributes := if (u.offers k).counted = [] then none else some (u.bounded setup k)

end Usage

/-! ## What reaches the processor -/

/-- A call of the processor of a provider, or something that happens besides. -/
inductive PipelineCall where
  | onEmit (record : LiveRecord)
  | shutdown
  | elsewhere (change : State → State)

/-- **The processor is called.**  In the answer, what each of its shutdowns came to. -/
def Processing.Processor.serve (processor : Processor) :
    List PipelineCall → State → State × List Answer
  | [], s => (s, [])
  | .onEmit record :: calls, s =>
    processor.serve calls (processor.onEmit record.emission.span record s).1
  | .shutdown :: calls, s =>
    let (s, answer) := processor.perform .shutdown s
    let (s, answers) := processor.serve calls s
    (s, answer :: answers)
  | .elsewhere change :: calls, s => processor.serve calls (change s)

/-- **What reaches the processor** if the first `panics` shutdowns panic and the next one returns:
what is emitted up to that one, and the shutdowns up to and with that one. -/
def Usage.calls (setup : Setup) (panics : Nat) : {p b : Nat} → Usage p b → List PipelineCall
  | _, _, start => []
  | _, _, profiler before _ => before.calls setup panics
  | _, _, builder before _ => before.calls setup panics
  | _, _, step before (.emit k freshId) => before.calls setup panics ++
      if before.shutdowns ≤ panics then [.onEmit (before.record setup k freshId)] else []
  | _, _, step before .shutdown => before.calls setup panics ++
      if before.shutdowns ≤ panics then [.shutdown] else []
  | _, _, step before (.elsewhere change) => before.calls setup panics ++ [.elsewhere change]
  | _, _, step before _ => before.calls setup panics

/-! ## Fields instead of settings -/

section Fields

variable {α : Type} (settings : List PendingSetting)

lemma lastSet_cons (field : PendingSetting → Option α) (default : α) (setting : PendingSetting) :
    lastSet field default (setting :: settings) =
      lastSet field ((field setting).getD default) settings := by
  cases h : settings.reverse.findSome? field <;> simp [lastSet, h, List.findSome?_append]

/-- A field that every setting replaces or leaves alone is as it was set last. -/
lemma foldl_set (read : Pending → α) (field : PendingSetting → Option α)
    (hset : ∀ pending setting, read (pending.set setting) = (field setting).getD (read pending))
    (pending : Pending) :
    read (settings.foldl Pending.set pending) = lastSet field (read pending) settings := by
  induction settings generalizing pending with
  | nil => rfl
  | cons setting settings ih => rw [List.foldl_cons, ih, hset, lastSet_cons]

lemma foldl_set_attributes (pending : Pending) :
    (settings.foldl Pending.set pending).attributes =
      pending.attributes ++ settings.flatMap (·.offers) := by
  induction settings generalizing pending with
  | nil => simp
  | cons setting settings ih =>
      rw [List.foldl_cons, ih, List.flatMap_cons, ← List.append_assoc]
      congr 1
      cases setting <;> simp [Pending.set, PendingSetting.offers]

end Fields

/-- **What is seen of the record that a builder emits.** -/
theorem Usage.snapshot_record (setup : Setup) (u : Usage p b) (k : Fin b)
    (freshId : Vector UInt8 16) :
    (u.record setup k freshId).snapshot =
      { u.emission setup k freshId with
        attributes := (u.bounded setup k).attributes
        totalAttributes := (u.bounded setup k).totalAdded } := by
  have hheld : (u.record setup k freshId).held = u.bounded setup k := by
    rw [record, bounded, ← LiveRecord.setAll_fresh, LiveRecord.held_setAll]
    rfl
  have hattributes := LiveRecord.snapshot_attributes (r := u.record setup k freshId)
  have htotal := LiveRecord.snapshot_totalAttributes (r := u.record setup k freshId)
  rw [hheld] at hattributes htotal
  rw [← hattributes, ← htotal, LiveRecord.snapshot]
  split <;> rfl

end ProfilePipeline
