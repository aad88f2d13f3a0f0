import ProfilePipeline.Batch.Machine

/-!
# Runs of the batch processor

The worker runs beside any number of calls.  A run is a sequence of choices of whose step comes
next, so every order in which atomic steps can meet is one.

* `Thread` — a call that has begun.
* `System.step` — one step of the worker or of a call.
* `System.Reaches` — what a run leads to, and what it shows.
-/

namespace ProfilePipeline.Batch

open Completion (Token)

/-- What may be asked of the processor.  The owner of the exporter may resolve a completion that
the exporter's shutdown returned. -/
inductive Call (ρ : Type) where
  | emit (r : ρ)
  | flush
  | shutdown
  | settle (answer : Token) (success : Bool)
  deriving DecidableEq

/-- The chores of a call. -/
def Call.chores {ρ : Type} : Call ρ → List (Chore ρ)
  | emit r => [.enter r]
  | flush => [.request none]
  | shutdown => [.claim]
  | settle answer success => [.resolve answer success]

/-- A call: what it has left to do, and the completion that it returns then. -/
structure Thread (ρ : Type) where
  call : Call ρ
  chores : List (Chore ρ)
  result : Option Token := none
  panicked : Bool := false

namespace Thread

variable {ρ : Type}

/-- A call that begins. -/
def start (call : Call ρ) : Thread ρ := { call, chores := call.chores }

/-- Whether a call has returned to its caller. -/
def isOver (th : Thread ρ) : Bool := th.chores.isEmpty

/-- The next step of a call, if it has one. -/
def step (o : Surroundings) (m : Machine ρ) (th : Thread ρ) :
    Option (Machine ρ × Thread ρ × List (Event ρ)) :=
  match th.chores with
  | [] => none
  | chore :: chores =>
    let e := chore.run o m
    let result := e.result.or th.result
    let th := if e.panicked then { th with chores := [], result := none, panicked := true }
      else { th with chores := e.chores ++ chores, result }
    some (e.machine, th, e.events)

end Thread

/-- The machine and all calls that have begun. -/
structure System (ρ : Type) where
  machine : Machine ρ
  threads : List (Thread ρ) := []

/-- Whose step comes next. -/
inductive Choice (ρ : Type) where
  | work (o : Surroundings)
  | begin (call : Call ρ)
  | advance (thread : Nat) (o : Surroundings)

namespace System

variable {ρ : Type}

/-- A processor that has just been built, and no calls. -/
def start (config : Config) : System ρ := { machine := .start config }

/-- **One step**, if the choice is possible.  Only completions that the exporter's shutdown
returned can be settled from outside. -/
def step (s : System ρ) : Choice ρ → Option (System ρ × List (Event ρ))
  | .work o => do
    let (machine, events) ← s.machine.workerStep o
    return ({ s with machine }, events)
  | .begin (.settle answer success) =>
    if answer ∈ s.machine.answers then
      some ({ s with threads := s.threads ++ [.start (.settle answer success)] }, [])
    else none
  | .begin call => some ({ s with threads := s.threads ++ [.start call] }, [])
  | .advance i o => do
    let th ← s.threads[i]?
    let (machine, th, events) ← th.step o s.machine
    return (⟨machine, s.threads.set i th⟩, events)

/-- **A run** from one state to another, with everything that it shows. -/
inductive Reaches : System ρ → List (Event ρ) → System ρ → Prop where
  | refl (s : System ρ) : Reaches s [] s
  | step {s t u : System ρ} {shown events : List (Event ρ)} {choice : Choice ρ}
      (before : Reaches s shown t) (next : t.step choice = some (u, events)) :
      Reaches s (shown ++ events) u

end System

end ProfilePipeline.Batch
