import ProfilePipeline.Batch.Metric
import ProfilePipeline.Batch.Settings
import ProfilePipeline.Clock
import ProfilePipeline.Completion.Store

/-!
# The batch processor, step by step

Records go into a bounded queue, from which one worker takes them and hands them to an exporter in
batches.  Any number of threads emit, ask for a flush, or shut the processor down meanwhile.  Here
all of them are taken apart into atomic steps: one access of a shared variable, one operation of the
queue, or one critical section each.

The worker goes through a cycle of phases.  Whatever it or a caller does besides is a stack of
chores, of which each may put further chores on top.

What the machine cannot know at a step comes from its `Surroundings`: what time it is, how the
export in flight ends, and what the exporter answers to being shut down.

Nothing on the worker's thread catches two panics, and either is the end of the worker.  The
exporter's shutdown may panic when the worker calls it.  And before its first cycle, and after every
export that was due, the worker adds the schedule delay to the time, which leads beyond what the
clock can tell if the delay is long enough; any positive delay may be set.

* `Chore.run` — one step of a chore.
* `Machine.workerStep` — one step of the worker.
-/

namespace ProfilePipeline.Batch

open Completion (Token Store)

/-- How an export ends.  The worker stops waiting for one that takes too long. -/
inductive ExportOutcome where
  | succeeded
  | failed
  | timedOut
  | panicked
  deriving DecidableEq, Repr, Inhabited

/-- What the exporter answers to being shut down: a completion, perhaps with an outcome already, or
a panic. -/
inductive ShutdownAnswer where
  | returned (outcome : Option Bool)
  | panicked
  deriving DecidableEq, Repr

/-- What a step depends on besides the state of the machine.  Of the time nothing is assumed, not
even that it goes by. -/
structure Surroundings where
  now : Nat := 0
  exported : ExportOutcome := .succeeded
  shutdown : ShutdownAnswer := .returned (some true)
  deriving DecidableEq, Repr, Inhabited

/-- What waits for a completion of the machine. -/
inductive Reaction where
  /-- The flush before the shutdown is over: the worker may stop and the exporter shut down. -/
  | stop (flushed done : Token)
  /-- The exporter is shut down as well. -/
  | conclude (flushed done : Token)
  deriving DecidableEq, Repr

/-- One atomic step of a thread outside of the cycle of the worker. -/
inductive Chore (ρ : Type) where
  /-- Gives a completion its outcome. -/
  | resolve (t : Token) (success : Bool)
  | call (r : Reaction) (success : Bool)
  /-- Tells the worker to stop. -/
  | halt
  /-- Raises the signal for the worker. -/
  | raise
  /-- Wakes the worker if it is asleep. -/
  | notify
  /-- Calls the exporter's shutdown. -/
  | shutExporter (flushed done : Token)
  /-- Waits for the completion that the exporter's shutdown returned. -/
  | attach (answer flushed done : Token)
  /-- Looks whether an emitted record comes too late. -/
  | enter (r : ρ)
  | offer (r : ρ)
  /-- Reports a record that was refused. -/
  | report
  /-- Reads how many records wait. -/
  | readLength
  /-- Compares that with the number that the worker waits for. -/
  | compare (length : Nat)
  /-- Tries to be the one that shuts the processor down. -/
  | claim
  /-- Asks for a flush; `done` is the completion of a shutdown that needs it. -/
  | request (done : Option Token)
  /-- Waits for the flush before the shutdown. -/
  | watch (flushed done : Token)
  deriving Repr

/-- Why a batch is exported, and with it what comes next. -/
inductive Purpose where
  /-- A full batch in the middle of a flush that has more records to take. -/
  | chunk (t : Token) (remaining : Nat) (success : Bool)
  /-- The last batch of a flush. -/
  | rest (t : Token) (success : Bool)
  /-- A batch that is full or has waited long enough. -/
  | scheduled
  deriving DecidableEq, Repr

/-- Where the worker is in its cycle. -/
inductive Phase where
  /-- About to set when the first export is due. -/
  | starting
  /-- About to look whether to go on. -/
  | head
  /-- About to take the requested flush. -/
  | taking
  /-- About to read how much a flush has to take. -/
  | counting (t : Token)
  | draining (t : Token) (remaining : Nat) (success : Bool)
  | handing (p : Purpose)
  /-- Inside the exporter, or waiting for its completion. -/
  | exporting (p : Purpose)
  /-- About to report a batch that was exported. -/
  | tallying (p : Purpose)
  /-- About to report the length of the queue. -/
  | gauging (p : Purpose) (success : Bool)
  | filling
  | deciding
  /-- About to set when the next export is due. -/
  | scheduling
  | checking
  /-- About to announce how many records it waits for. -/
  | announcing
  /-- About to look, under the lock of the signal, whether to sleep. -/
  | testing
  | asleep
  | waking
  /-- About to announce that it waits no more. -/
  | retracting
  /-- About to leave, and to take a last flush that was requested. -/
  | leaving
  /-- About to look whether that flush would have had something to do. -/
  | answering (t : Token)
  | finished
  /-- Ended by a panic of the exporter's shutdown. -/
  | dead
  /-- Ended by a panic because the clock cannot tell when a schedule delay from `now` on is over. -/
  | outOfTime (now : Nat)
  deriving DecidableEq, Repr

/-- The worker: its place in the cycle, the batch it collects, when its next export is due, and
chores that come first. -/
structure Worker (ρ : Type) where
  phase : Phase := .starting
  batch : List ρ := []
  nextExport : Nat := 0
  chores : List (Chore ρ) := []
  deriving Repr

/-- The worker and everything it shares with callers. -/
structure Machine (ρ : Type) where
  config : Config
  queue : List ρ := []
  /-- How many records the worker waits for, while it waits. -/
  needed : Option Nat := none
  signaled : Bool := false
  requested : Option Token := none
  stopped : Bool := false
  continueWork : Bool := true
  isShutdown : Bool := false
  store : Store Reaction := {}
  /-- The completions that the exporter's shutdown returned. -/
  answers : List Token := []
  worker : Worker ρ := {}

/-- What a step shows. -/
inductive Event (ρ : Type) where
  | accepted (r : ρ)
  | refused (r : ρ)
  /-- The exporter is called with a batch. -/
  | handed (batch : List ρ)
  | exported (batch : List ρ) (outcome : ExportOutcome)
  | measured (m : Metric)
  | exporterShutdown
  | resolved (t : Token) (success : Bool)
  deriving Repr

/-- What a chore does: the machine after it, what it puts on top of its stack, what it shows, and
the completion that the call it belongs to returns, once that is known. -/
structure Effect (ρ : Type) where
  machine : Machine ρ
  chores : List (Chore ρ) := []
  events : List (Event ρ) := []
  result : Option Token := none
  panicked : Bool := false

namespace Machine

variable {ρ : Type}

/-- A processor that has just been built. -/
def start (config : Config) : Machine ρ := { config }

/-- The outcome of a completion, once there is one. -/
def outcome? (m : Machine ρ) (t : Token) : Option Bool := m.store.outcome? t

/-- Whether a batch is as large as it may get. -/
def isFull (m : Machine ρ) (batch : List ρ) : Bool := m.config.batchLimit ≤ batch.length

/-- How many records the worker lacks for a full batch. -/
def lacking (m : Machine ρ) : Nat := m.config.batchLimit - m.worker.batch.length

/-- Whether an export is due, however small the batch. -/
def isDue (m : Machine ρ) (now : Nat) : Bool := m.worker.nextExport ≤ now

/-- Moves the worker to a phase. -/
def goto (m : Machine ρ) (phase : Phase) : Machine ρ :=
  { m with worker := { m.worker with phase } }

/-- Registers what waits for a completion.  It runs at once if there is an outcome. -/
def await (m : Machine ρ) (t : Token) (r : Reaction) : Effect ρ :=
  match m.store.register t r with
  | (store, none) => { machine := { m with store } }
  | (store, some success) => { machine := { m with store }, chores := [.call r success] }

/-- Answers a request for a flush.  Once the worker has stopped, the flush is over and succeeds if
nothing is left in the queue; a flush that is already requested serves this request as well. -/
def requestFlush (m : Machine ρ) : Machine ρ × Token × Bool :=
  if m.stopped then
    let (store, t) := m.store.settled m.queue.isEmpty
    ({ m with store }, t, false)
  else
    match m.requested with
    | some t => (m, t, false)
    | none =>
      let (store, t) := m.store.fresh
      ({ m with store, requested := some t }, t, true)

end Machine

namespace Chore

variable {ρ : Type}

/-- **One step of a chore.** -/
def run (o : Surroundings) (m : Machine ρ) : Chore ρ → Effect ρ
  | resolve t success =>
    let (store, reactions) := m.store.resolve t success
    { machine := { m with store }
      chores := reactions.map (call · success)
      events := if m.outcome? t = none then [.resolved t success] else [] }
  | call (.stop flushed done) _ =>
    { machine := m, chores := [halt, raise, notify, shutExporter flushed done] }
  | call (.conclude flushed done) success =>
    { machine := m, chores := [resolve done (m.store.isSuccess flushed && success)] }
  | halt => { machine := { m with continueWork := false } }
  | raise => { machine := { m with signaled := true } }
  | notify => { machine := if m.worker.phase = .asleep then m.goto .waking else m }
  | shutExporter flushed done =>
    match o.shutdown with
    | .panicked => { machine := m, events := [.exporterShutdown], panicked := true }
    | .returned outcome =>
      let (store, answer) := match outcome with
        | some success => m.store.settled success
        | none => m.store.fresh
      { machine := { m with store, answers := m.answers ++ [answer] }
        chores := [attach answer flushed done]
        events := [.exporterShutdown] }
  | attach answer flushed done => m.await answer (.conclude flushed done)
  | enter r => { machine := m, chores := if m.isShutdown then [] else [offer r] }
  | offer r =>
    if m.queue.length < m.config.queueLimit then
      { machine := { m with queue := m.queue ++ [r] }
        chores := [readLength]
        events := [.accepted r] }
    else { machine := m, chores := [report], events := [.refused r] }
  | report => { machine := m, events := [.measured (.processed 1 true)] }
  | readLength => { machine := m, chores := [compare m.queue.length] }
  | compare length =>
    { machine := m
      chores := match m.needed with
        | some needed => if needed ≤ length then [raise, notify] else []
        | none => [] }
  | claim =>
    if m.isShutdown then
      let (store, t) := m.store.settled true
      { machine := { m with store }, result := some t }
    else
      let (store, done) := m.store.fresh
      { machine := { m with store, isShutdown := true }
        chores := [request (some done)]
        result := some done }
  | request none =>
    let (m, t, isNew) := m.requestFlush
    { machine := m, chores := if isNew then [raise, notify] else [], result := some t }
  | request (some done) =>
    let (m, t, isNew) := m.requestFlush
    { machine := m, chores := (if isNew then [raise, notify] else []) ++ [watch t done] }
  | watch flushed done => m.await flushed (.stop flushed done)

end Chore

namespace Machine

variable {ρ : Type}

/-- What follows an export. -/
def resume (m : Machine ρ) (success : Bool) : Purpose → Machine ρ
  | .chunk t remaining before => m.goto (.draining t remaining (before && success))
  | .rest t before =>
    { m with worker :=
      { m.worker with phase := .filling, chores := [.resolve t (before && success)] } }
  | .scheduled => m.goto .scheduling

/-- The worker's step when a record is taken from the queue into the batch. -/
def take (m : Machine ρ) (r : ρ) (queue : List ρ) : Machine ρ :=
  { m with queue, worker := { m.worker with batch := m.worker.batch ++ [r] } }

/-- The machine with the next export due at a time. -/
def dueAt (m : Machine ρ) (nextExport : Nat) : Machine ρ :=
  { m with worker := { m.worker with nextExport } }

/-- The worker's step when it sets when the next export is due.  Nothing catches the panic if the
clock cannot tell. -/
def schedule (m : Machine ρ) (now : Nat) (next : Phase) : Machine ρ :=
  match SteadyClock.after? now m.config.scheduleDelay with
  | some nextExport => (m.dueAt nextExport).goto next
  | none => m.goto (.outOfTime now)

/-- A step of the worker's cycle, if there is one. -/
def phaseStep (o : Surroundings) (m : Machine ρ) : Option (Machine ρ × List (Event ρ)) :=
  match m.worker.phase with
  | .starting => some (m.schedule o.now .head, [])
  | .head => some (m.goto (if m.continueWork then .taking else .leaving), [])
  | .taking =>
    match m.requested with
    | none => some (m.goto .filling, [])
    | some t => some ({ m with requested := none }.goto (.counting t), [])
  | .counting t => some (m.goto (.draining t m.queue.length true), [])
  | .draining t 0 success => some (m.goto (.handing (.rest t success)), [])
  | .draining t (remaining + 1) success =>
    match m.queue with
    | [] => some (m.goto (.handing (.rest t success)), [])
    | r :: queue =>
      let m := m.take r queue
      some (m.goto (if m.isFull m.worker.batch then .handing (.chunk t remaining success)
        else .draining t remaining success), [])
  | .handing p =>
    if m.worker.batch.isEmpty then some (m.resume true p, [])
    else some (m.goto (.exporting p), [.handed m.worker.batch])
  | .exporting p =>
    some (m.goto (if o.exported = .succeeded then .tallying p else .gauging p false),
      [.exported m.worker.batch o.exported])
  | .tallying p =>
    some (m.goto (.gauging p true), [.measured (.processed m.worker.batch.length false)])
  | .gauging p success =>
    some ({ m with worker := { m.worker with batch := [] } }.resume success p,
      [.measured (.queueSize m.queue.length)])
  | .filling =>
    if m.isFull m.worker.batch then some (m.goto .deciding, [])
    else
      match m.queue with
      | [] => some (m.goto .deciding, [])
      | r :: queue => some (m.take r queue, [])
  | .deciding =>
    some (m.goto (if m.isFull m.worker.batch || m.isDue o.now then .handing .scheduled
      else .checking), [])
  | .scheduling => some (m.schedule o.now .checking, [])
  | .checking =>
    some (m.goto (if m.queue.isEmpty && !m.isDue o.now then .announcing else .head), [])
  | .announcing => some ({ m with needed := some m.lacking }.goto .testing, [])
  | .testing =>
    if !m.signaled && decide (m.queue.length < m.lacking) then some (m.goto .asleep, [])
    else some ({ m with signaled := false }.goto .retracting, [])
  | .asleep => if m.isDue o.now then some (m.goto .waking, []) else none
  | .waking => some ({ m with signaled := false }.goto .retracting, [])
  | .retracting => some ({ m with needed := none }.goto .head, [])
  | .leaving =>
    let left := { m with stopped := true, requested := none }
    match m.requested with
    | none => some (left.goto .finished, [])
    | some t => some (left.goto (.answering t), [])
  | .answering t =>
    some ({ m with worker :=
      { m.worker with phase := .finished, chores := [.resolve t m.queue.isEmpty] } }, [])
  | .finished | .dead | .outOfTime _ => none

/-- **One step of the worker**, if it can take one: chores come first.  A panic in a chore ends the
worker's thread. -/
def workerStep (o : Surroundings) (m : Machine ρ) : Option (Machine ρ × List (Event ρ)) :=
  match m.worker.chores with
  | [] => m.phaseStep o
  | chore :: chores =>
    let e := chore.run o m
    let worker : Worker ρ :=
      if e.panicked then { e.machine.worker with phase := .dead, chores := [] }
      else { e.machine.worker with chores := e.chores ++ chores }
    some ({ e.machine with worker }, e.events)

end Machine

end ProfilePipeline.Batch
