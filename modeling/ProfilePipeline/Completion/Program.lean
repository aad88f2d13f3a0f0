import ProfilePipeline.Completion.Aggregate

/-!
# Programs over completions

A program creates completions, resolves them, and registers callbacks which write a note and then
do further such things themselves.  A callback may resolve the very completion it waits for, or
register another callback on it.

Running is a machine with a stack of tasks, each of which is one atomic step.  What a task sets off
goes on top of the stack, so callbacks run depth first, on the stack of whoever resolved the
completion.

* `State.step` — one task.
* `State.run` — all tasks of a stack; it ends because every step lowers `State.weight`.
* `State.perform` — one step of a program.
-/

namespace ProfilePipeline.Completion

/-- What a callback does after its note.  Completions are named by handle. -/
inductive Act where
  | resolve (of : Nat) (success : Bool)
  | watch (of : Nat) (label : String) (acts : List Act)
  deriving Inhabited

mutual

/-- How many steps an act can set off. -/
def Act.weight : Act → Nat
  | .resolve _ _ => 2
  | .watch _ _ acts => 3 + Act.weights acts

/-- How many steps a list of acts can set off. -/
def Act.weights : List Act → Nat
  | [] => 0
  | act :: acts => act.weight + Act.weights acts

end

/-- A callback of a program: the note it writes and what it does then. -/
structure Note where
  label : String
  acts : List Act

/-- How many steps a callback can set off. -/
def Waiter.weight : Waiter Note → Nat
  | member _ => 4
  | own note => 1 + Act.weights note.acts

/-- One atomic step. -/
inductive Task where
  | resolve (t : Token) (success : Bool)
  | call (callback : Waiter Note) (success : Bool)
  | countDown (aggregate : Nat)
  | conclude (aggregate : Nat)
  | act (act : Act)
  | enlist (t : Token) (aggregate : Nat)

/-- How many steps a task can set off, itself included. -/
def Task.weight : Task → Nat
  | resolve _ _ => 1
  | call callback _ => callback.weight
  | countDown _ => 3
  | conclude _ => 2
  | act a => a.weight
  | enlist _ _ => 5

/-- Where a program stands: the completions, the handles given out so far, and the notes. -/
structure State where
  ledger : Ledger Note := {}
  handles : Array Token := #[]
  log : Array (String × Bool) := #[]

namespace State

instance : Inhabited State := ⟨{}⟩

/-- Changes an aggregate. -/
def modifyAggregate (s : State) (g : Nat) (f : Aggregate → Aggregate) : State :=
  { s with ledger := { s.ledger with aggregates := s.ledger.aggregates.modify g f } }

/-- Registers a callback; it is called at once if the completion has an outcome. -/
def register (s : State) (t : Token) (callback : Waiter Note) : State × List Task :=
  let (ledger, outcome) := s.ledger.register t callback
  ({ s with ledger }, match outcome with
    | some success => [.call callback success]
    | none => [])

/-- **One task.**  Gives what it sets off. -/
def step (s : State) : Task → State × List Task
  | .resolve t success =>
    let (store, callbacks) := s.ledger.store.resolve t success
    ({ s with ledger := { s.ledger with store } }, callbacks.map (.call · success))
  | .call (.member g) success => (s.modifyAggregate g (·.note success), [.countDown g])
  | .call (.own note) success =>
    ({ s with log := s.log.push (note.label, success) }, note.acts.map .act)
  | .countDown g =>
    (s.modifyAggregate g (·.countDown),
      match s.ledger.aggregates[g]? with
      | some a => if a.isLast then [.conclude g] else []
      | none => [])
  | .conclude g =>
    (s, match s.ledger.aggregates[g]? with
      | some a => [.resolve a.result a.verdict]
      | none => [])
  | .act (.resolve of success) =>
    (s, match s.handles[of]? with
      | some t => [.resolve t success]
      | none => [])
  | .act (.watch of label acts) =>
    match s.handles[of]? with
    | some t => s.register t (.own ⟨label, acts⟩)
    | none => (s, [])
  | .enlist t g => s.register t (.member g)

/-- What the state can still set off. -/
def weight (s : State) : Nat := s.ledger.store.weight Waiter.weight

/-- What a stack of tasks can set off. -/
def stackWeight (tasks : List Task) : Nat := weigh Task.weight tasks

theorem register_weight (s : State) (t : Token) (callback : Waiter Note) :
    (s.register t callback).1.weight + stackWeight (s.register t callback).2 ≤
      s.weight + callback.weight := by
  obtain ⟨hle, hsame⟩ := Store.weight_register Waiter.weight s.ledger.store t callback
  simp only [register, Ledger.register, weight, stackWeight]
  cases h : (s.ledger.store.register t callback).2 with
  | none => simpa using hle
  | some success =>
    have := hsame (by simp [h])
    simp [this, Task.weight]

theorem weigh_acts (acts : List Act) :
    weigh Task.weight (acts.map Task.act) = Act.weights acts := by
  induction acts with
  | nil => simp [Act.weights]
  | cons a acts ih => simpa [Act.weights, Task.weight] using ih

/-- **Every step leaves less to be done.** -/
theorem step_weight (s : State) (task : Task) :
    (s.step task).1.weight + stackWeight (s.step task).2 < s.weight + task.weight := by
  rcases task with ⟨t, success⟩ | ⟨⟨g⟩ | ⟨note⟩, success⟩ | ⟨g⟩ | ⟨g⟩ |
    ⟨⟨of, success⟩ | ⟨of, label, acts⟩⟩ | ⟨t, g⟩
  · have h := Store.weight_resolve Waiter.weight s.ledger.store t success
    simp only [step, weight, stackWeight, weigh_map, Task.weight]
    have e : (Task.weight ∘ fun k => Task.call k success) = Waiter.weight := rfl
    rw [e]
    omega
  · simp [step, modifyAggregate, weight, stackWeight, Task.weight, Waiter.weight]
  · have h := weigh_acts note.acts
    simp only [step, weight, stackWeight, Task.weight, Waiter.weight, h]
    omega
  · simp only [step, modifyAggregate, weight, stackWeight, Task.weight]
    split
    · split <;> simp [Task.weight]
    · simp
  · simp only [step, weight, stackWeight, Task.weight]
    split <;> simp [Task.weight]
  · simp only [step, weight, stackWeight, Task.weight]
    split <;> simp [Task.weight, Act.weight]
  · simp only [step]
    split
    · rename_i t _
      have h := register_weight s t (.own ⟨label, acts⟩)
      simp only [Task.weight, Act.weight, Waiter.weight] at h ⊢
      omega
    · simp only [stackWeight, Task.weight, Act.weight, weigh_nil]
      omega
  · have h := register_weight s t (.member g)
    simp only [step, Task.weight, Waiter.weight] at h ⊢
    omega

/-- **Runs a stack of tasks** until nothing is left to do. -/
def run (s : State) : List Task → State
  | [] => s
  | task :: tasks => (s.step task).1.run ((s.step task).2 ++ tasks)
  termination_by tasks => s.weight + stackWeight tasks
  decreasing_by
    have h := s.step_weight task
    simp only [stackWeight, weigh_append, weigh_cons] at h ⊢
    omega

/-- The completion that a handle stands for. -/
def token? (s : State) (handle : Nat) : Option Token := s.handles[handle]?

/-- The outcome behind a handle, once there is one. -/
def outcome? (s : State) (handle : Nat) : Option Bool :=
  (s.token? handle).bind s.ledger.outcome?

/-- Gives out a handle for a completion. -/
def hand (s : State) (made : Ledger Note × Token) : State :=
  { s with ledger := made.1, handles := s.handles.push made.2 }

end State

/-- One step of a program.  Completions are named by handle. -/
inductive Step where
  | new
  | settled (success : Bool)
  | clone (of : Nat)
  | ofAll (members : List Nat)
  | resolve (of : Nat) (success : Bool)
  | watch (of : Nat) (label : String) (acts : List Act)

namespace State

/-- **One step of a program**, with everything it sets off.  A clone is another handle for the same
completion; an aggregate of nothing is a success. -/
def perform (s : State) : Step → State
  | .new => s.hand s.ledger.fresh
  | .settled success => s.hand (s.ledger.settled success)
  | .clone of =>
    match s.token? of with
    | some t => { s with handles := s.handles.push t }
    | none => s
  | .ofAll members =>
    match members.filterMap s.token? with
    | [] => s.hand (s.ledger.settled true)
    | tokens =>
      let (ledger, result, g) := s.ledger.opened tokens.length
      (s.hand (ledger, result)).run (tokens.map (.enlist · g))
  | .resolve of success => s.run [.act (.resolve of success)]
  | .watch of label acts => s.run [.act (.watch of label acts)]

/-- Where a program ends. -/
def performAll (s : State) (steps : List Step) : State := steps.foldl perform s

end State

end ProfilePipeline.Completion
