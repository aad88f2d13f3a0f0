import Mathlib.Tactic.Common
import ProfilePipeline.Proofs.Completion.Turns

/-!
# Threads that share completions

Threads begin steps of programs and take them in any order (`Threads.Runs`).  It does not matter
which thread a task belongs to: what they all have to do is one list (`Threads.todo`), and a thread
that goes on replaces one task of it by those that the task sets off (`Threads.advance_cases`).
Their order in that list does not matter either.

**Bounds.**  Whatever a task, a waiter or an aggregate refers to exists (`InBounds`).  So what is
made later is different from all that they are about.
-/

namespace ProfilePipeline.Completion

namespace Threads

/-- All that threads have to do. -/
def todo (c : Threads) : List Task := c.tasks.flatten

/-- The task that a thread does next. -/
def next? (c : Threads) (thread : Nat) : Option Task := (c.tasks[thread]?).bind List.head?

/-- A thread begins a step of a program. -/
def start (c : Threads) (step : Step) : Threads :=
  ⟨(c.state.begin step).1, c.tasks ++ [(c.state.begin step).2]⟩

/-- **Threads go on in any order**, and others join them.  They do the tasks `ran`, all of which are
allowed where they are done. -/
inductive Runs (allowed : State → Task → Bool) (c : Threads) : (ran : List Task) → Threads → Prop
  | refl : Runs allowed c [] c
  | start {ran : List Task} {d : Threads} (before : Runs allowed c ran d) (step : Step) :
      Runs allowed c ran (d.start step)
  | advance {ran : List Task} {d : Threads} (before : Runs allowed c ran d) (thread : Nat)
      (fair : ∀ task ∈ d.next? thread, allowed d.state task) :
      Runs allowed c (ran ++ (d.next? thread).toList) (d.advance thread)

lemma todo_start (c : Threads) (step : Step) :
    (c.start step).todo = c.todo ++ (c.state.begin step).2 := by
  simp [todo, start]

/-- A thread that has nothing to do stays where it is, another one does its next task. -/
lemma advance_cases (c : Threads) (thread : Nat) :
    (c.next? thread = none ∧ c.advance thread = c) ∨
      ∃ task rest, c.next? thread = some task ∧ c.todo.Perm (task :: rest) ∧
        (c.advance thread).todo.Perm ((c.state.step task).2 ++ rest) ∧
        (c.advance thread).state = (c.state.step task).1 := by
  cases found : c.tasks[thread]? with
  | none => exact .inl (by simp [next?, advance, found])
  | some stack =>
      cases stack with
      | nil => exact .inl (by simp [next?, advance, found])
      | cons task later =>
          obtain ⟨lt, here⟩ := List.getElem?_eq_some_iff.mp found
          obtain ⟨before, after, cut, -, replaced⟩ : ∃ before after,
              c.tasks = before ++ c.tasks[thread] :: after ∧ before.length = thread ∧
                c.tasks.set thread ((c.state.step task).2 ++ later) =
                  before ++ ((c.state.step task).2 ++ later) :: after := List.exists_of_set lt
          have advanced : c.advance thread =
              ⟨(c.state.step task).1, before ++ ((c.state.step task).2 ++ later) :: after⟩ := by
            rw [← replaced, advance, found]
          rw [here] at cut
          have moved : ∀ stack : List Task, (before ++ stack :: after).flatten.Perm
              (stack ++ (before.flatten ++ after.flatten)) := by
            intro stack
            simpa using (List.perm_append_comm : (before.flatten ++ stack).Perm _).append_right
              after.flatten
          refine .inr ⟨task, later ++ (before.flatten ++ after.flatten), ?_, ?_, ?_, ?_⟩
          · simp [next?, found]
          · rw [todo, cut]
            exact moved (task :: later)
          · rw [todo, advanced]
            simpa using moved ((c.state.step task).2 ++ later)
          · rw [advanced]

end Threads

/-! ## Bounds -/

/-- What a task refers to exists. -/
def Task.Fits (s : State) : Task → Prop
  | resolve t _ => t < s.ledger.store.size
  | call (.member g) _ | countDown g | conclude g => g < s.ledger.aggregates.size
  | enlist t g => t < s.ledger.store.size ∧ g < s.ledger.aggregates.size
  | call (.own _) _ | act _ => True

/-- Whatever is referred to exists. -/
structure InBounds (s : State) (todo : List Task) : Prop where
  handles : s.Sound
  results : ∀ a ∈ s.ledger.aggregates, a.result < s.ledger.store.size
  waiters : ∀ t g, s.ledger.store.WaitsAt t (.member g) → g < s.ledger.aggregates.size
  tasks : ∀ task ∈ todo, task.Fits s

lemma Task.Fits.mono {s s' : State} (store : s.ledger.store.size ≤ s'.ledger.store.size)
    (aggregates : s.ledger.aggregates.size ≤ s'.ledger.aggregates.size) {task : Task}
    (h : task.Fits s) : task.Fits s' := by
  cases task with
  | call callback success =>
      cases callback with
      | member g => exact Nat.lt_of_lt_of_le h aggregates
      | own note => trivial
  | act => trivial
  | resolve => exact Nat.lt_of_lt_of_le h store
  | countDown | conclude => exact Nat.lt_of_lt_of_le h aggregates
  | enlist => exact ⟨Nat.lt_of_lt_of_le h.1 store, Nat.lt_of_lt_of_le h.2 aggregates⟩

/-- A step of a program makes at most one completion, and one aggregate with a result that is
new. -/
inductive Begun (s : State) (s' : State) : List Task → Prop
  | acts (ledger : s'.ledger = s.ledger) (acts : List Act) : Begun s s' (acts.map .act)
  | fresh (store : s'.ledger.store = s.ledger.store.fresh.1)
      (aggregates : s'.ledger.aggregates = s.ledger.aggregates) : Begun s s' []
  | settled (success : Bool) (store : s'.ledger.store = (s.ledger.store.settled success).1)
      (aggregates : s'.ledger.aggregates = s.ledger.aggregates) : Begun s s' []
  | opened (tokens : List Token) (members : ∀ t ∈ tokens, ∃ of, s.token? of = some t)
      (store : s'.ledger.store = s.ledger.store.fresh.1)
      (aggregates : s'.ledger.aggregates =
        s.ledger.aggregates.push ⟨tokens.length, false, s.ledger.store.size⟩) :
      Begun s s' (tokens.map (.enlist · s.ledger.aggregates.size))

/-- Whatever existed keeps its outcome. -/
lemma Begun.outcome? {s s' : State} {more : List Task} (begun : Begun s s' more) {t : Token}
    (lt : t < s.ledger.store.size) : s'.ledger.outcome? t = s.ledger.outcome? t := by
  cases begun with
  | acts ledger => rw [ledger]
  | fresh store | opened _ _ store => simp [Ledger.outcome?, store, Store.outcome?_fresh]
  | settled success store =>
      rw [Ledger.outcome?, store, Store.outcome?_settled, if_neg (Nat.ne_of_lt lt)]
      rfl

namespace State

lemma begun (s : State) (step : Step) : Begun s (s.begin step).1 (s.begin step).2 := by
  have still : ∀ s' : State, s'.ledger = s.ledger → Begun s s' [] := fun _ same => .acts same []
  cases step with
  | new => exact .fresh rfl rfl
  | settled success => exact .settled success rfl rfl
  | clone of =>
      rw [begin]
      split
      · exact still _ rfl
      · exact still _ rfl
  | ofAll members =>
      have named : ∀ t ∈ members.filterMap s.token?, ∃ of, s.token? of = some t := by
        intro t mem
        obtain ⟨of, -, found⟩ := List.mem_filterMap.mp mem
        exact ⟨of, found⟩
      rw [begin]
      split
      · exact .settled true rfl rfl
      · exact .opened _ named rfl rfl
  | resolve of success => exact .acts rfl [.resolve of success]
  | watch of label acts => exact .acts rfl [.watch of label acts]

@[simp] lemma size_modifyAggregate (s : State) (g : Nat) (f : Aggregate → Aggregate) :
    (s.modifyAggregate g f).ledger.aggregates.size = s.ledger.aggregates.size := by
  simp [modifyAggregate]

/-- Steps neither add nor remove aggregates, and leave results as they are. -/
lemma step_aggregates (s : State) (task : Task) :
    (s.step task).1.ledger.aggregates.size = s.ledger.aggregates.size ∧
      ∀ (g : Nat) (a' : Aggregate), (s.step task).1.ledger.aggregates[g]? = some a' →
        ∃ a : Aggregate, s.ledger.aggregates[g]? = some a ∧ a'.result = a.result := by
  have same : ∀ s' : State, s'.ledger.aggregates = s.ledger.aggregates →
      s'.ledger.aggregates.size = s.ledger.aggregates.size ∧
        ∀ (g : Nat) (a' : Aggregate), s'.ledger.aggregates[g]? = some a' →
          ∃ a : Aggregate, s.ledger.aggregates[g]? = some a ∧ a'.result = a.result := by
    intro s' h
    rw [h]
    exact ⟨rfl, fun g a found => ⟨a, found, rfl⟩⟩
  have modified : ∀ (g : Nat) (f : Aggregate → Aggregate), (∀ a, (f a).result = a.result) →
      (s.modifyAggregate g f).ledger.aggregates.size = s.ledger.aggregates.size ∧
        ∀ (g' : Nat) (a' : Aggregate), (s.modifyAggregate g f).ledger.aggregates[g']? = some a' →
          ∃ a : Aggregate, s.ledger.aggregates[g']? = some a ∧ a'.result = a.result := by
    intro g f keeps
    refine ⟨by simp, fun g' a' found => ?_⟩
    rw [modifyAggregate, Array.getElem?_modify] at found
    split at found
    · obtain ⟨a, before, rfl⟩ := Option.map_eq_some_iff.mp found
      exact ⟨a, before, keeps a⟩
    · exact ⟨a', found, rfl⟩
  cases task with
  | call callback success =>
      cases callback with
      | member g => exact modified g _ fun a => rfl
      | own note => exact same _ rfl
  | countDown g => exact modified g _ fun a => rfl
  | resolve | conclude | enlist => exact same _ rfl
  | act act =>
      cases act with
      | resolve of success => exact same _ rfl
      | watch of label acts =>
          refine same _ ?_
          simp only [step]
          split <;> rfl

/-- Only resolving a completion changes its outcome. -/
lemma step_outcome? (s : State) (task : Task) (t : Token) :
    (s.step task).1.ledger.outcome? t = s.ledger.outcome? t ∨
      ∃ success, task = .resolve t success := by
  cases task with
  | resolve u success =>
      by_cases here : t = u
      · subst here
        exact .inr ⟨success, rfl⟩
      · exact .inl ((Store.outcome?_resolve ..).trans (if_neg fun h => here h.1))
  | call callback success => cases callback <;> exact .inl rfl
  | countDown | conclude => exact .inl rfl
  | enlist => exact .inl (Store.outcome?_register ..)
  | act act =>
      cases act with
      | resolve of success => exact .inl rfl
      | watch of label acts =>
          simp only [step]
          split
          · exact .inl (Store.outcome?_register ..)
          · exact .inl rfl

/-- Only to be enlisted makes a completion's member wait. -/
lemma step_waiters {s : State} {task : Task} {t : Token} {g : Nat}
    (h : (s.step task).1.ledger.store.WaitsAt t (.member g)) :
    s.ledger.store.WaitsAt t (.member g) ∨ task = .enlist t g := by
  cases task with
  | resolve u success => exact .inl (Store.waitsAt_resolve h)
  | call callback success => cases callback <;> exact .inl h
  | countDown | conclude => exact .inl h
  | enlist u g' =>
      rcases Store.waitsAt_register h with h | ⟨rfl, new⟩
      · exact .inl h
      · cases new
        exact .inr rfl
  | act act =>
      cases act with
      | resolve of success => exact .inl h
      | watch of label acts =>
          simp only [step] at h
          split at h
          · rcases Store.waitsAt_register h with h | ⟨-, new⟩
            · exact .inl h
            · cases new
          · exact .inl h

end State

namespace InBounds

variable {s : State} {todo rest : List Task} {task : Task}

lemma of_perm {todo' : List Task} (h : InBounds s todo) (perm : todo.Perm todo') :
    InBounds s todo' :=
  ⟨h.handles, h.results, h.waiters, fun task mem => h.tasks task (perm.mem_iff.mpr mem)⟩

/-- What a task sets off refers to what the task, its waiters or its aggregate refer to. -/
lemma sets_off (h : InBounds s (task :: rest)) :
    ∀ new ∈ (s.step task).2, new.Fits s := by
  have fits := h.tasks task (by simp)
  have registered : ∀ t w, Task.Fits s (.call w true) → ∀ new ∈ (s.register t w).2, new.Fits s := by
    intro t w fits new mem
    simp only [State.register] at mem
    split at mem
    · obtain rfl := List.mem_singleton.mp mem
      cases w <;> exact fits
    · cases mem
  cases task with
  | resolve t success =>
      simp only [State.step, Store.resolve_snd, List.mem_map]
      rintro _ ⟨w, mem, rfl⟩
      cases w with
      | member g => exact h.waiters t g (Store.mem_waiting.mp mem)
      | own note => trivial
  | call callback success =>
      cases callback with
      | member g => simpa [State.step, Task.Fits] using fits
      | own note => simp [State.step, Task.Fits]
  | countDown g =>
      simp only [State.step]
      split
      · split
        · simpa [Task.Fits] using fits
        · simp
      · simp
  | conclude g =>
      simp only [State.step]
      split
      · rename_i a found
        simpa [Task.Fits] using h.results a (Array.mem_of_getElem? found)
      · simp
  | enlist t g => exact registered t _ fits.2
  | act act =>
      cases act with
      | resolve of success =>
          simp only [State.step]
          split
          · rename_i t found
            simpa [Task.Fits] using h.handles t (Array.mem_of_getElem? found)
          · simp
      | watch of label acts =>
          simp only [State.step]
          split
          · exact registered _ _ trivial
          · simp

/-- **Tasks stay in bounds.** -/
theorem step (h : InBounds s (task :: rest)) :
    InBounds (s.step task).1 ((s.step task).2 ++ rest) := by
  obtain ⟨aggregates, results⟩ := s.step_aggregates task
  have store := (s.step_frame task).2
  have grows : ∀ {new : Task}, new.Fits s → new.Fits (s.step task).1 := fun fits =>
    fits.mono (Nat.le_of_eq store.symm) (Nat.le_of_eq aggregates.symm)
  refine ⟨h.handles.step task, ?_, ?_, ?_⟩
  · intro a' mem
    obtain ⟨g, lt, found⟩ := Array.getElem_of_mem mem
    obtain ⟨a, before, same⟩ := results g a' (Array.getElem?_eq_some_iff.mpr ⟨lt, found⟩)
    rw [same, store]
    exact h.results a (Array.mem_of_getElem? before)
  · intro t g waits
    rw [aggregates]
    rcases State.step_waiters waits with waits | rfl
    · exact h.waiters t g waits
    · exact (h.tasks (.enlist t g) (by simp)).2
  · intro new mem
    rcases List.mem_append.mp mem with made | old
    · exact grows (h.sets_off new made)
    · exact grows (h.tasks new (by simp [old]))

/-- What is added leaves the rest in bounds. -/
lemma grow {s' : State} {more : List Task} (h : InBounds s todo) (handles : s'.Sound)
    (store : s.ledger.store.size ≤ s'.ledger.store.size)
    (waiters : ∀ t g, s'.ledger.store.WaitsAt t (.member g) → s.ledger.store.WaitsAt t (.member g))
    (aggregates : s.ledger.aggregates.size ≤ s'.ledger.aggregates.size)
    (results : ∀ a ∈ s'.ledger.aggregates,
      a ∈ s.ledger.aggregates ∨ a.result < s'.ledger.store.size)
    (fits : ∀ new ∈ more, new.Fits s') : InBounds s' (todo ++ more) where
  handles := handles
  results a mem := by
    rcases results a mem with old | new
    · exact Nat.lt_of_lt_of_le (h.results a old) store
    · exact new
  waiters t g waits := Nat.lt_of_lt_of_le (h.waiters t g (waiters t g waits)) aggregates
  tasks new mem := by
    rcases List.mem_append.mp mem with old | made
    · exact (h.tasks new old).mono store aggregates
    · exact fits new made

theorem begin (h : InBounds s todo) (step : Step) :
    InBounds (s.begin step).1 (todo ++ (s.begin step).2) := by
  have handles := h.handles.begin step
  have begun := s.begun step
  generalize (s.begin step).1 = s' at handles begun
  generalize (s.begin step).2 = more at begun
  cases begun with
  | acts ledger acts =>
      refine h.grow handles ?_ ?_ ?_ ?_ ?_
      · simp [ledger]
      · simp [ledger]
      · simp [ledger]
      · simp +contextual [ledger]
      · simp [Task.Fits]
  | fresh store aggregates =>
      refine h.grow handles ?_ ?_ ?_ ?_ ?_
      · simp [store]
      · rw [store]
        exact fun t g waits => Store.waitsAt_fresh waits
      · simp [aggregates]
      · simp +contextual [aggregates]
      · simp
  | settled success store aggregates =>
      refine h.grow handles ?_ ?_ ?_ ?_ ?_
      · simp [store]
      · rw [store]
        exact fun t g waits => Store.waitsAt_settled waits
      · simp [aggregates]
      · simp +contextual [aggregates]
      · simp
  | opened tokens members store aggregates =>
      refine h.grow handles ?_ ?_ ?_ ?_ ?_
      · simp [store]
      · rw [store]
        exact fun t g waits => Store.waitsAt_fresh waits
      · simp [aggregates]
      · intro a mem
        rw [aggregates, Array.mem_push] at mem
        rcases mem with mem | rfl
        · exact .inl mem
        · exact .inr (by simp [store])
      · intro new mem
        obtain ⟨t, named, rfl⟩ := List.mem_map.mp mem
        obtain ⟨of, found⟩ := members t named
        have lt := h.handles.token? found
        simp only [Task.Fits, store, Store.size_fresh, aggregates, Array.size_push]
        exact ⟨Nat.lt_succ_of_lt lt, Nat.lt_succ_self _⟩

end InBounds

lemma inBounds_empty : InBounds {} [] where
  handles _ mem := absurd mem (Array.not_mem_empty _)
  results _ mem := absurd mem (Array.not_mem_empty _)
  waiters t g waits := by
    obtain ⟨cell, found, -⟩ := waits
    simp at found
  tasks _ mem := absurd mem List.not_mem_nil

/-- **Everything stays in bounds**, whatever threads do. -/
theorem Threads.Runs.inBounds {allowed : State → Task → Bool} {c d : Threads} {ran : List Task}
    (run : Runs allowed c ran d) (h : InBounds c.state c.todo) : InBounds d.state d.todo := by
  induction run with
  | refl => exact h
  | start before step ih =>
      rw [todo_start]
      exact ih.begin step
  | @advance ran d before thread fair ih =>
      rcases d.advance_cases thread with ⟨-, same⟩ | ⟨task, rest, -, todo, replaced, state⟩
      · rw [same]
        exact ih
      · rw [state]
        exact (ih.of_perm todo).step.of_perm replaced.symm

/-! ## Schedules -/

/-- What a schedule has happen next. -/
inductive Move where
  | start (step : Step)
  | advance (thread : Nat)

namespace Threads

/-- Makes a move if it is allowed, and adds what is done. -/
def move? (allowed : State → Task → Bool) (now : List Task × Threads) :
    Move → Option (List Task × Threads)
  | .start step => some (now.1, now.2.start step)
  | .advance thread =>
    if (now.2.next? thread).all (allowed now.2.state) then
      some (now.1 ++ (now.2.next? thread).toList, now.2.advance thread)
    else none

/-- Makes the moves of a schedule. -/
def play? (allowed : State → Task → Bool) (c : Threads) (schedule : List Move) :
    Option (List Task × Threads) :=
  schedule.foldlM (move? allowed) ([], c)

lemma runs_of_moves {allowed : State → Task → Bool} {c d e : Threads} {ran ran' : List Task}
    (run : Runs allowed c ran d) {schedule : List Move}
    (h : schedule.foldlM (move? allowed) (ran, d) = some (ran', e)) : Runs allowed c ran' e := by
  induction schedule generalizing ran d with
  | nil =>
      cases h
      exact run
  | cons move schedule ih =>
      obtain ⟨⟨next, there⟩, moved, rest⟩ := Option.bind_eq_some_iff.mp h
      refine ih ?_ rest
      cases move with
      | start step =>
          cases moved
          exact run.start step
      | advance thread =>
          simp only [move?] at moved
          split at moved
          · rename_i fair
            cases moved
            exact run.advance thread fun task mem => by
              rw [Option.mem_def] at mem
              simpa [mem] using fair
          · cases moved

/-- What a schedule leads to is a run. -/
lemma runs_of_play {allowed : State → Task → Bool} {c d : Threads} {ran : List Task}
    (schedule : List Move) (h : c.play? allowed schedule = some (ran, d)) : Runs allowed c ran d :=
  runs_of_moves .refl h

end Threads

end ProfilePipeline.Completion
