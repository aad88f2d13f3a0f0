import ProfilePipeline.Completion.Program

/-!
# Completions resolved by several threads

Every thread has a stack of tasks of its own; at each moment any thread may take its next step.
The steps are those of a program on one thread, so all orders in which atomic steps can meet are
schedules here.
-/

namespace ProfilePipeline.Completion

/-- The shared state and what each thread still has to do. -/
structure Threads where
  state : State
  tasks : List (List Task)

namespace Threads

/-- Lets a thread take its next step, if it has one. -/
def advance (c : Threads) (thread : Nat) : Threads :=
  match c.tasks[thread]? with
  | some (task :: later) =>
    let (state, more) := c.state.step task
    ⟨state, c.tasks.set thread (more ++ later)⟩
  | _ => c

/-- Lets threads take steps in the order of a schedule. -/
def follow (c : Threads) (schedule : List Nat) : Threads := schedule.foldl advance c

/-- Whether no thread has anything left to do. -/
def isQuiet (c : Threads) : Bool := c.tasks.all List.isEmpty

end Threads

end ProfilePipeline.Completion
