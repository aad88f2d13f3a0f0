import ProfilePipeline.Pending
import ProfilePipeline.Processing.Processor

/-!
# Providers

A provider hands out profilers, one for each identity of a scope, and passes what they emit to its
processor.  A provider without anything to do hands out the profiler that discards everything.

* `Provider.profiler` — the profiler for a scope.
* `Provider.emit` — a profile becomes a record.
* `Provider.shutdown` — happens once; every call returns the same completion.
-/

namespace ProfilePipeline

open Completion (Token)
open Export (Answer)
open Processing (Processor Request State)

/-- Where the limits of records come from: fixed, or asked for with every record. -/
inductive LimitsSource where
  | standard
  | supplied (current : Limits)
  deriving DecidableEq, Repr, Inhabited

namespace LimitsSource

/-- The limits for the next record. -/
def current : LimitsSource → Limits
  | standard => .standard
  | supplied limits => limits

/-- The source after its owner changed the limits; fixed ones stay. -/
def change (limits : Limits) : LimitsSource → LimitsSource
  | standard => standard
  | supplied _ => supplied limits

end LimitsSource

/-- A profiler: the one that discards everything, or one of a provider. -/
inductive Profiler where
  | discard
  | of (number : Nat)
  deriving DecidableEq, Repr, Inhabited

/-- What is set before a provider is built. -/
structure ProviderBuilder where
  resource : Resource := .standard
  limits : LimitsSource := .standard
  clock : ManualClock := {}
  processors : List Processor := []

namespace ProviderBuilder

/-- Replaces the resource. -/
def setResource (b : ProviderBuilder) (resource : Resource) : ProviderBuilder := { b with resource }

/-- Merges a resource into the one that is set. -/
def addResource (b : ProviderBuilder) (resource : Resource) : ProviderBuilder :=
  { b with resource := b.resource.merge resource }

/-- Adds a processor; processors are called in the order in which they are added. -/
def addProcessor (b : ProviderBuilder) (p : Processor) : ProviderBuilder :=
  { b with processors := b.processors ++ [p] }

end ProviderBuilder

/-- A provider. -/
structure Provider where
  resource : Resource
  limits : LimitsSource
  clock : ManualClock
  processor : Processor
  /-- Whether there is nothing to do for records. -/
  isNoop : Bool
  /-- The scopes of the profilers handed out, each with the attributes of the first request. -/
  scopes : List Scope := []
  /-- What the first shutdown returned. -/
  closed : Option Token := none

namespace Provider

/-- The provider for what is set; `number` tells a fan-out over its processors apart. -/
def build (b : ProviderBuilder) (number : Nat) (s : State) : Provider :=
  let processor := Processor.composite number b.processors
  { resource := b.resource
    limits := b.limits
    clock := b.clock
    processor
    isNoop := processor.isNoop s }

/-- **The profiler for a scope**: the one handed out before for the same identity, if there is one.
A scope without a name gets one first. -/
def profiler (p : Provider) (scope : Scope) : Provider × Profiler :=
  if p.isNoop then (p, .discard)
  else
    let scope := scope.named
    match p.scopes.findIdx? (·.identity = scope.identity) with
    | some number => (p, .of number)
    | none => ({ p with scopes := p.scopes ++ [scope] }, .of p.scopes.length)

/-- The record that a profile becomes, before attributes are set on it.  `freshId` is its identifier
if it has none. -/
def emission (p : Provider) (scope : Scope) (pending : Pending) (freshId : List UInt8) :
    Emission where
  resource := p.resource
  scope := scope
  profileId := pending.profileId.getD freshId
  timestamp := pending.timestamp
  observedTimestamp := pending.observed.getD p.clock.now
  span := (pending.context.getD {}).span
  payloadFormat := pending.payloadFormat
  payloadBytes := pending.payloadBytes
  payload := pending.payload

/-- The record of a profile while it is processed. -/
def live (p : Provider) (scope : Scope) (pending : Pending) (freshId : List UInt8) : LiveRecord :=
  (LiveRecord.fresh (p.emission scope pending freshId) p.limits.current).setAll pending.attributes

/-- **Emits a profile.**  Once the provider is shut down, profiles are dropped.  In the answer,
whether the processor panicked. -/
def emit (p : Provider) (from_ : Profiler) (pending : Pending) (freshId : List UInt8) (s : State) :
    State × Bool :=
  match from_ with
  | .discard => (s, false)
  | .of number =>
    match p.scopes[number]?, p.closed with
    | some scope, none =>
      let span := (pending.context.getD {}).span
      let (s, _, panicked) := p.processor.onEmit span (p.live scope pending freshId) s
      (s, panicked)
    | _, _ => (s, false)

/-- Flushes the processor. -/
def flush (p : Provider) (s : State) : State × Answer := p.processor.perform .flush s

/-- **Shuts the processor down**, once, unless that panics: then the provider has not taken note of
it. -/
def shutdown (p : Provider) (s : State) : Provider × State × Answer :=
  match p.closed with
  | some t => (p, s, .returned t)
  | none =>
    match p.processor.perform .shutdown s with
    | (s, .panicked) => (p, s, .panicked)
    | (s, .returned t) => ({ p with closed := some t }, s, .returned t)

end Provider

/-- A provider to install for the whole program: one that discards everything, or another one. -/
inductive AnyProvider where
  | discard
  | of (p : Provider)

/-- The provider of the whole program, which can be installed once. -/
structure GlobalProvider where
  installed : Option AnyProvider := none

namespace GlobalProvider

/-- The text of the refusal to install another provider. -/
def alreadySet : String := "the global profiler provider has already been set"

/-- Installs a provider, unless there is one already. -/
def install? (g : GlobalProvider) (p : AnyProvider) : Option GlobalProvider :=
  match g.installed with
  | none => some ⟨some p⟩
  | some _ => none

/-- The provider in use: until one is installed, the one that discards everything. -/
def current (g : GlobalProvider) : AnyProvider := g.installed.getD .discard

/-- Whether the provider in use is the one that discards everything. -/
def isDiscard (g : GlobalProvider) : Bool :=
  match g.current with
  | .discard => true
  | .of _ => false

end GlobalProvider

end ProfilePipeline
