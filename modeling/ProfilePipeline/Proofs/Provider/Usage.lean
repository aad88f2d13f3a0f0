import Mathlib.Tactic.Common
import ProfilePipeline.Provider

/-!
# Using a provider

A program asks a provider for profilers, makes builders of them, sets fields and emits, in any
order; meanwhile the clock moves, the limits change, and at some time the provider is shut down.

* `Usage` — such a program, up to some moment.  A step can only name a profiler that was asked for
  or a builder that was made.
* `Setup` — what the provider is built from, and the processors as they are then.
* `Usage.run` — the program is run: every step is the call of the provider or of a builder that it
  stands for.
* **`run_calling`** — calling one builder step by step emits what a sequence of its calls emits.
-/

namespace ProfilePipeline

open Export (Answer)
open Processing (Processor State)

variable {p b : Nat}

/-- What a program does when it has made `b` builders, other than asking for more. -/
inductive Usage.Step (b : Nat) where
  /-- Sets something on a builder. -/
  | set (builder : Fin b) (setting : PendingSetting)
  /-- Emits what is set on a builder; `freshId` is the identifier if none is set. -/
  | emit (builder : Fin b) (freshId : Vector UInt8 16)
  /-- The clock changes. -/
  | clock (now : ManualClock)
  /-- The limits of records are other ones from now on. -/
  | limits (bounds : Limits)
  /-- Shuts the provider down. -/
  | shutdown
  /-- Something else happens to the processors and what is behind them. -/
  | elsewhere (change : State → State)

/-- **What a program has done with a provider**, the last step outermost.  It has asked for `p`
profilers and made `b` builders. -/
inductive Usage : (p b : Nat) → Type where
  | start : Usage 0 0
  /-- Asks for the profiler of a scope. -/
  | profiler {p b : Nat} (before : Usage p b) (scope : Scope) : Usage (p + 1) b
  /-- Makes a builder of a profiler. -/
  | builder {p b : Nat} (before : Usage p b) (profiler : Fin p) : Usage p (b + 1)
  | step {p b : Nat} (before : Usage p b) (step : Usage.Step b) : Usage p b

/-- What a provider is built from, and the processors at that moment. -/
structure Setup where
  builder : ProviderBuilder
  /-- Tells a fan-out over the processors apart. -/
  number : Nat
  state : State

namespace Setup

/-- The processors as one. -/
def processor (setup : Setup) : Processor := .composite setup.number setup.builder.processors

/-- The provider. -/
def provider (setup : Setup) : Provider := .build setup.builder setup.number setup.state

/-- At least one processor has something to do. -/
def Busy (setup : Setup) : Prop :=
  ∃ processor ∈ setup.builder.processors, processor.isNoop setup.state = false

/-- Processors one of which has something to do have something to do as one. -/
lemma Busy.isNoop {setup : Setup} (h : setup.Busy) :
    setup.processor.isNoop setup.state = false := by
  obtain ⟨processor, hmem, hbusy⟩ := h
  rw [Setup.processor]
  generalize setup.builder.processors = processors at hmem
  match processors with
  | [] => simp at hmem
  | [_] =>
    rw [List.mem_singleton] at hmem
    subst hmem
    exact hbusy
  | _ :: _ :: _ => simp [Processor.composite, Processor.isNoop]

end Setup

/-! ## Running a program -/

/-- A provider in use. -/
structure Running (p b : Nat) where
  provider : Provider
  /-- Those that were handed out. -/
  profilers : Vector Profiler p
  /-- Each with the profiler that it is a builder of. -/
  builders : Vector (Profiler × Pending) b
  state : State
  /-- What the shutdowns of the provider answered. -/
  answers : List Answer

namespace Running

/-- A profiler that was handed out. -/
def handed (r : Running p b) (j : Fin p) : Profiler := getElem r.profilers j j.isLt

/-- The profiler that a builder belongs to. -/
def owner (r : Running p b) (k : Fin b) : Profiler := (getElem r.builders k k.isLt).1

/-- What is set on a builder. -/
def pending (r : Running p b) (k : Fin b) : Pending := (getElem r.builders k k.isLt).2

/-- Before anything is done. -/
def start (setup : Setup) : Running 0 0 where
  provider := setup.provider
  profilers := #v[]
  builders := #v[]
  state := setup.state
  answers := []

/-- The provider hands a profiler out. -/
def profiler (r : Running p b) (scope : Scope) : Running (p + 1) b where
  provider := (r.provider.profiler scope).1
  profilers := r.profilers.push (r.provider.profiler scope).2
  builders := r.builders
  state := r.state
  answers := r.answers

/-- A builder begins with nothing set. -/
def builder (r : Running p b) (j : Fin p) : Running p (b + 1) where
  provider := r.provider
  profilers := r.profilers
  builders := r.builders.push (r.handed j, {})
  state := r.state
  answers := r.answers

/-- A setting of a builder. -/
def set (r : Running p b) (k : Fin b) (setting : PendingSetting) : Running p b :=
  { r with
    builders := r.builders.set k (r.owner k, (r.pending k).set setting) k.isLt }

/-- A builder hands what is set on it over, and has nothing set afterwards. -/
def emit (r : Running p b) (k : Fin b) (freshId : Vector UInt8 16) : Running p b :=
  { r with
    builders := r.builders.set k (r.owner k, {}) k.isLt
    state := (r.provider.emit (r.owner k) (r.pending k) freshId.toList r.state).1 }

/-- A shutdown of the provider. -/
def shutdown (r : Running p b) : Running p b :=
  { r with
    provider := (r.provider.shutdown r.state).1
    state := (r.provider.shutdown r.state).2.1
    answers := r.answers ++ [(r.provider.shutdown r.state).2.2] }

/-- One step. -/
def step (r : Running p b) : Usage.Step b → Running p b
  | .set k setting => r.set k setting
  | .emit k freshId => r.emit k freshId
  | .clock now => { r with provider := { r.provider with clock := now } }
  | .limits bounds =>
    { r with provider := { r.provider with limits := r.provider.limits.change bounds } }
  | .shutdown => r.shutdown
  | .elsewhere change => { r with state := change r.state }

variable (r : Running p b)

@[simp] lemma handed_profiler_last (scope : Scope) :
    (r.profiler scope).handed (Fin.last p) = (r.provider.profiler scope).2 := by
  simp [profiler, handed]

@[simp] lemma handed_profiler_castSucc (scope : Scope) (j : Fin p) :
    (r.profiler scope).handed j.castSucc = r.handed j := by
  simp [profiler, handed]

@[simp] lemma owner_builder_last (j : Fin p) : (r.builder j).owner (Fin.last b) = r.handed j := by
  simp [builder, owner]

@[simp] lemma owner_builder_castSucc (j : Fin p) (k : Fin b) :
    (r.builder j).owner k.castSucc = r.owner k := by
  simp [builder, owner]

@[simp] lemma pending_builder_last (j : Fin p) : (r.builder j).pending (Fin.last b) = {} := by
  simp [builder, pending]

@[simp] lemma pending_builder_castSucc (j : Fin p) (k : Fin b) :
    (r.builder j).pending k.castSucc = r.pending k := by
  simp [builder, pending]

@[simp] lemma provider_set (k : Fin b) (setting : PendingSetting) :
    (r.set k setting).provider = r.provider := rfl

@[simp] lemma state_set (k : Fin b) (setting : PendingSetting) :
    (r.set k setting).state = r.state := rfl

@[simp] lemma owner_set (k' k : Fin b) (setting : PendingSetting) :
    (r.set k' setting).owner k = r.owner k := by
  by_cases h : k' = k
  · simp [set, owner, h]
  · simp [set, owner, Fin.val_ne_of_ne h]

/-- A setting is one of its builder only. -/
@[simp] lemma pending_set (k' k : Fin b) (setting : PendingSetting) :
    (r.set k' setting).pending k =
      if k' = k then (r.pending k).set setting else r.pending k := by
  by_cases h : k' = k
  · simp [set, pending, h]
  · simp [set, pending, h, Fin.val_ne_of_ne h]

@[simp] lemma provider_emit (k : Fin b) (freshId : Vector UInt8 16) :
    (r.emit k freshId).provider = r.provider := rfl

@[simp] lemma state_emit (k : Fin b) (freshId : Vector UInt8 16) :
    (r.emit k freshId).state =
      (r.provider.emit (r.owner k) (r.pending k) freshId.toList r.state).1 := rfl

@[simp] lemma answers_emit (k : Fin b) (freshId : Vector UInt8 16) :
    (r.emit k freshId).answers = r.answers := rfl

@[simp] lemma owner_emit (k' k : Fin b) (freshId : Vector UInt8 16) :
    (r.emit k' freshId).owner k = r.owner k := by
  by_cases h : k' = k
  · simp [emit, owner, h]
  · simp [emit, owner, Fin.val_ne_of_ne h]

/-- An emission leaves its builder with nothing set, and no other. -/
@[simp] lemma pending_emit (k' k : Fin b) (freshId : Vector UInt8 16) :
    (r.emit k' freshId).pending k = if k' = k then {} else r.pending k := by
  by_cases h : k' = k
  · simp [emit, pending, h]
  · simp [emit, pending, h, Fin.val_ne_of_ne h]

lemma handed_step (s : Usage.Step b) (j : Fin p) : (r.step s).handed j = r.handed j := by
  cases s <;> rfl

/-- A builder always belongs to the same profiler. -/
lemma owner_step (s : Usage.Step b) (k : Fin b) : (r.step s).owner k = r.owner k := by
  cases s with
  | set k' setting => exact r.owner_set k' k setting
  | emit k' freshId => exact r.owner_emit k' k freshId
  | _ => rfl

end Running

namespace Usage

/-- **Runs a program.** -/
def run (setup : Setup) : {p b : Nat} → Usage p b → Running p b
  | _, _, start => .start setup
  | _, _, profiler before scope => (before.run setup).profiler scope
  | _, _, builder before j => (before.run setup).builder j
  | _, _, step before s => (before.run setup).step s

/-! ## One builder -/

/-- Goes on with calls of one builder, as far as there are identifiers for what they emit. -/
def calling (k : Fin b) : List BuilderCall → List (Vector UInt8 16) → Usage p b → Usage p b
  | .set setting :: calls, ids, u => calling k calls ids (u.step (.set k setting))
  | .emit :: calls, freshId :: ids, u => calling k calls ids (u.step (.emit k freshId))
  | [], _, u | .emit :: _, [], u => u

/-- **Calling a builder step by step emits the profiles of the sequence of calls**, in order and
from the profiler that the builder belongs to. -/
theorem run_calling (setup : Setup) (k : Fin b) (calls : List BuilderCall)
    (ids : List (Vector UInt8 16)) (u : Usage p b) :
    ((u.calling k calls ids).run setup).state =
      ((BuilderCall.emitted ((u.run setup).pending k) calls).zip ids).foldl
        (fun s (pending, freshId) => ((u.run setup).provider.emit ((u.run setup).owner k)
          pending freshId.toList s).1)
        (u.run setup).state := by
  induction calls generalizing ids u with
  | nil => simp [calling, BuilderCall.emitted]
  | cons call calls ih =>
      cases call with
      | set setting => simp [calling, BuilderCall.emitted, ih, run, Running.step]
      | emit =>
        cases ids with
        | nil => simp [calling]
        | cons freshId ids => simp [calling, BuilderCall.emitted, ih, run, Running.step]

end Usage

end ProfilePipeline
