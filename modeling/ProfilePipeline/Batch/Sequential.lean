import ProfilePipeline.Batch.Threads

/-!
# One thing at a time

The runs in which each call is over before the next one begins, and the worker goes as far as it
can in between: until it is inside the exporter, asleep, or gone.

* `Machine.settle` — lets the worker go as far as it can.
* `Machine.perform` — a whole call, without the worker.
* `Machine.finish` — ends the export in flight.
-/

namespace ProfilePipeline.Batch

open Completion (Token)

namespace Machine

variable {ρ : Type}

/-- The batch that is inside the exporter. -/
def inFlight? (m : Machine ρ) : Option (List ρ) :=
  match m.worker.chores, m.worker.phase with
  | [], .exporting _ => some m.worker.batch
  | _, _ => none

/-- More steps than the worker can take before it has to wait: a few for each record, and some for
a flush and a shutdown. -/
def patience (m : Machine ρ) : Nat := 200 + 40 * (m.queue.length + m.worker.batch.length)

/-- Lets the worker take up to a number of steps, until it has to wait.  What the steps show comes
after what was shown before. -/
def work (o : Surroundings) : Nat → Machine ρ → Array (Event ρ) → Machine ρ × Array (Event ρ)
  | 0, m, shown => (m, shown)
  | fuel + 1, m, shown =>
    if m.inFlight?.isSome then (m, shown)
    else
      match m.workerStep o with
      | none => (m, shown)
      | some (m, events) => work o fuel m (shown ++ events)

/-- **Lets the worker go as far as it can** while time stands still. -/
def settle (o : Surroundings) (m : Machine ρ) : Machine ρ × List (Event ρ) :=
  let (m, shown) := work o m.patience m #[]
  (m, shown.toList)

/-- Runs the steps of a thread, at most a number of them. -/
def runThread (o : Surroundings) : Nat → Machine ρ → Thread ρ →
    Machine ρ × Thread ρ × List (Event ρ)
  | 0, m, th => (m, th, [])
  | fuel + 1, m, th =>
    match th.step o m with
    | none => (m, th, [])
    | some (m, th, events) =>
      let (m, th, more) := runThread o fuel m th
      (m, th, events ++ more)

/-- More steps than a call can take: one call registers at most one reaction. -/
def callPatience (m : Machine ρ) : Nat := 40 + 10 * m.store.size

/-- **A whole call**, and the completion it returns. -/
def perform (o : Surroundings) (m : Machine ρ) (call : Call ρ) :
    Machine ρ × Option Token × List (Event ρ) :=
  let (m, th, events) := m.runThread o m.callPatience (.start call)
  (m, th.result, events)

/-- Ends the export in flight. -/
def finish (o : Surroundings) (m : Machine ρ) : Machine ρ × List (Event ρ) :=
  match m.inFlight? with
  | none => (m, [])
  | some _ => (m.workerStep o).getD (m, [])

/-- Lets the worker take up to a number of steps, until it has collected what there is. -/
def collect (o : Surroundings) : Nat → Machine ρ → Array (Event ρ) → Machine ρ × Array (Event ρ)
  | 0, m, shown => (m, shown)
  | fuel + 1, m, shown =>
    match m.worker.phase with
    | .handing _ => (m, shown)
    | _ =>
      match m.workerStep o with
      | none => (m, shown)
      | some (m, events) => collect o fuel m (shown ++ events)

/-- Lets the worker collect what there is when an export is due, unless one is in flight already. -/
def ring (o : Surroundings) (m : Machine ρ) : Machine ρ × List (Event ρ) :=
  if m.inFlight?.isSome then (m, [])
  else
    let (m, shown) := collect o m.patience m #[]
    (m, shown.toList)

end Machine

end ProfilePipeline.Batch
