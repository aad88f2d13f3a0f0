import Mathlib.Tactic.Common
import ProfilePipeline.Completion.Threads
import ProfilePipeline.Proofs.Completion.Store

/-!
# What a program lets happen

A program is told by what happens to its callbacks: one is registered, a completion is resolved, one
is called.  `State.history` tells it along a run, by the recursion of `State.run`.

**Turns.**  Whatever a task is, it does one of five things to outcomes, to the callbacks that wait
and to those that are about to be called (`Turn`, `State.step_turn`).  What is proved of programs is
proved by these five cases and does not look into a step again.

**Beginnings.**  A step of a program changes handles and completions first and leaves the rest to a
stack of tasks (`State.begin`, `State.perform_eq_run`).
-/

namespace ProfilePipeline.Completion

/-- What happens to the callbacks of a program. -/
inductive Happening where
  | registered (t : Token) (note : Note)
  | resolved (t : Token) (success : Bool)
  | called (note : Note) (success : Bool)

/-- What has happened, in order. -/
abbrev History := List Happening

namespace History

/-- The callbacks that were registered, with the completions they were registered on. -/
def registrations (h : History) : List (Token × Note) :=
  h.filterMap fun
    | .registered t note => some (t, note)
    | _ => none

/-- The callbacks that were registered on a completion. -/
def registeredOn (h : History) (t : Token) : List Note :=
  (h.registrations.filter (·.1 == t)).map Prod.snd

/-- The completions that were resolved. -/
def resolutions (h : History) : List Token :=
  h.filterMap fun
    | .resolved t _ => some t
    | _ => none

/-- The callbacks that were called, with what they were given. -/
def calls (h : History) : List (Note × Bool) :=
  h.filterMap fun
    | .called note success => some (note, success)
    | _ => none

variable (h h' : History)

@[simp] lemma registrations_append :
    registrations (h ++ h') = registrations h ++ registrations h' := List.filterMap_append

@[simp] lemma registeredOn_append (t : Token) :
    registeredOn (h ++ h') t = registeredOn h t ++ registeredOn h' t := by
  simp [registeredOn]

@[simp] lemma resolutions_append : resolutions (h ++ h') = resolutions h ++ resolutions h' :=
  List.filterMap_append

@[simp] lemma calls_append : calls (h ++ h') = calls h ++ calls h' := List.filterMap_append

@[simp] lemma registrations_registered (t : Token) (note : Note) :
    registrations [.registered t note] = [(t, note)] := rfl

@[simp] lemma registrations_resolved (t : Token) (success : Bool) :
    registrations [.resolved t success] = [] := rfl

@[simp] lemma registrations_called (note : Note) (success : Bool) :
    registrations [.called note success] = [] := rfl

@[simp] lemma registeredOn_nil (t : Token) : registeredOn [] t = [] := rfl

@[simp] lemma registeredOn_registered (t u : Token) (note : Note) :
    registeredOn [.registered t note] u = if t = u then [note] else [] := by
  by_cases here : t = u <;> simp [registeredOn, here]

@[simp] lemma registeredOn_resolved (t u : Token) (success : Bool) :
    registeredOn [.resolved t success] u = [] := rfl

@[simp] lemma registeredOn_called (t : Token) (note : Note) (success : Bool) :
    registeredOn [.called note success] t = [] := rfl

@[simp] lemma calls_nil : calls [] = [] := rfl

@[simp] lemma calls_registered (t : Token) (note : Note) : calls [.registered t note] = [] := rfl

@[simp] lemma calls_resolved (t : Token) (success : Bool) : calls [.resolved t success] = [] := rfl

@[simp] lemma calls_called (note : Note) (success : Bool) :
    calls [.called note success] = [(note, success)] := rfl

lemma mem_resolutions {h : History} {t : Token} :
    t ∈ resolutions h ↔ ∃ success, Happening.resolved t success ∈ h := by
  rw [resolutions, List.mem_filterMap]
  constructor
  · rintro ⟨⟨⟩, mem, found⟩
    · cases found
    · obtain rfl := Option.some.inj found
      exact ⟨_, mem⟩
    · cases found
  · rintro ⟨success, mem⟩
    exact ⟨_, mem, rfl⟩

end History

/-- The callback of a program, if it is one that waits. -/
def Waiter.note? : Waiter Note → Option Note
  | member _ => none
  | own note => some note

/-- The callback of a program that a task is about to call. -/
def Task.call? : Task → Option (Note × Bool)
  | call (.own note) success => some (note, success)
  | _ => none

/-- The callbacks that a stack of tasks is about to call. -/
def due (tasks : List Task) : List (Note × Bool) := tasks.filterMap Task.call?

lemma due_cons (task : Task) (tasks : List Task) : due (task :: tasks) = due [task] ++ due tasks :=
  List.filterMap_append (l := [task])

lemma due_append (tasks later : List Task) : due (tasks ++ later) = due tasks ++ due later :=
  List.filterMap_append

lemma due_acts (acts : List Act) : due (acts.map .act) = [] := by
  simp [due, Task.call?]

lemma due_enlist (tokens : List Token) (g : Nat) : due (tokens.map (.enlist · g)) = [] := by
  simp [due, Task.call?]

lemma due_calls (waiters : List (Waiter Note)) (success : Bool) :
    due (waiters.map (.call · success)) = (waiters.filterMap Waiter.note?).map (·, success) := by
  rw [due, List.filterMap_map, List.map_filterMap]
  congr 1
  funext w
  cases w <;> rfl

namespace State

/-- The callbacks of a program that wait for a completion, in the order in which they were
registered. -/
def waiting (s : State) (t : Token) : List Note :=
  (s.ledger.store.waiting t).filterMap Waiter.note?

/-- What can be seen of a task when it is done. -/
def shows (s : State) : Task → History
  | .resolve t success =>
    if t < s.ledger.store.size ∧ s.ledger.outcome? t = none then [.resolved t success] else []
  | .call (.own note) success => [.called note success]
  | .act (.watch of label acts) =>
    match s.token? of with
    | some t => [.registered t ⟨label, acts⟩]
    | none => []
  | _ => []

/-- **What happens while a stack of tasks is run.** -/
def history (s : State) : List Task → History
  | [] => []
  | task :: tasks => s.shows task ++ (s.step task).1.history ((s.step task).2 ++ tasks)
  termination_by tasks => s.weight + stackWeight tasks
  decreasing_by
    have less := s.step_weight task
    simp only [stackWeight, weigh_append, weigh_cons] at less ⊢
    omega

/-- All handles stand for completions. -/
def Sound (s : State) : Prop := ∀ t ∈ s.handles, t < s.ledger.store.size

lemma Sound.token? {s : State} {of : Nat} {t : Token} (sound : s.Sound)
    (h : s.token? of = some t) : t < s.ledger.store.size :=
  sound t (Array.mem_of_getElem? h)

end State

/-! ## Turns -/

/-- What one step does to outcomes and callbacks.  It uses up some calls that were due, makes others
due and shows what happens. -/
inductive Turn (s s' : State) :
    (used made : List (Note × Bool)) → (shown : History) → Prop
  /-- Neither outcomes nor callbacks change. -/
  | quiet (outcome? : ∀ t, s'.ledger.outcome? t = s.ledger.outcome? t)
      (waiting : ∀ t, s'.waiting t = s.waiting t) : Turn s s' [] [] []
  /-- A callback is called. -/
  | called (note : Note) (success : Bool)
      (outcome? : ∀ t, s'.ledger.outcome? t = s.ledger.outcome? t)
      (waiting : ∀ t, s'.waiting t = s.waiting t) :
      Turn s s' [(note, success)] [] [.called note success]
  /-- A pending completion is resolved; whatever waited for it is due. -/
  | resolved (t : Token) (success : Bool) (pending : s.ledger.outcome? t = none)
      (outcome? : ∀ u, s'.ledger.outcome? u = if u = t then some success else s.ledger.outcome? u)
      (waiting : ∀ u, s'.waiting u = if u = t then [] else s.waiting u) :
      Turn s s' [] ((s.waiting t).map (·, success)) [.resolved t success]
  /-- A callback is registered on a pending completion and waits after all the others. -/
  | kept (t : Token) (note : Note) (pending : s.ledger.outcome? t = none)
      (outcome? : ∀ u, s'.ledger.outcome? u = s.ledger.outcome? u)
      (waiting : ∀ u, s'.waiting u = if u = t then s.waiting t ++ [note] else s.waiting u) :
      Turn s s' [] [] [.registered t note]
  /-- A callback is registered on a resolved completion and is due. -/
  | late (t : Token) (note : Note) (success : Bool) (known : s.ledger.outcome? t = some success)
      (outcome? : ∀ u, s'.ledger.outcome? u = s.ledger.outcome? u)
      (waiting : ∀ u, s'.waiting u = s.waiting u) :
      Turn s s' [] [(note, success)] [.registered t note]

/-- An outcome stays. -/
lemma Turn.outcome?_mono {s s' : State} {used made : List (Note × Bool)} {shown : History}
    (turn : Turn s s' used made shown) {t : Token} {success : Bool}
    (known : s.ledger.outcome? t = some success) : s'.ledger.outcome? t = some success := by
  cases turn with
  | quiet outcome? | called _ _ outcome? | kept _ _ _ outcome? | late _ _ _ _ outcome? =>
      rw [outcome?, known]
  | resolved u found pending outcome? =>
      rw [outcome?, if_neg, known]
      rintro rfl
      rw [pending] at known
      cases known

namespace State

/-- Nobody of the program waits with a member of an aggregate. -/
lemma register_member_turn {s : State} {t : Token} (g : Nat) :
    Turn s (s.register t (.member g)).1 [] (due (s.register t (.member g)).2) [] := by
  have none : due (s.register t (.member g)).2 = [] := by
    simp only [register, Ledger.register]
    cases (s.ledger.store.register t (.member g)).2 <;> rfl
  rw [none]
  refine .quiet (fun u => Store.outcome?_register ..) fun u => ?_
  simp only [waiting, register, Ledger.register]
  by_cases lt : t < s.ledger.store.size
  · cases h : s.ledger.store.outcome? t with
    | some success => rw [Store.register_of_outcome? _ h]
    | none =>
        rw [Store.waiting_register _ lt h]
        split
        · subst_vars
          simp [Waiter.note?]
        · rfl
  · rw [Store.register_of_size_le _ (Nat.not_lt.mp lt)]

lemma register_own_turn {s : State} {t : Token} (note : Note) (lt : t < s.ledger.store.size) :
    Turn s (s.register t (.own note)).1 [] (due (s.register t (.own note)).2)
      [.registered t note] := by
  cases h : s.ledger.store.outcome? t with
  | some success =>
      have same : s.register t (.own note) = (s, [.call (.own note) success]) := by
        simp only [register, Ledger.register, Store.register_of_outcome? _ h]
      rw [same]
      exact .late t note success h (fun _ => rfl) fun _ => rfl
  | none =>
      have none : (s.register t (.own note)).2 = [] := by
        simp only [register, Ledger.register, Store.register_snd _ h]
      rw [none]
      refine .kept t note h (fun u => Store.outcome?_register ..) fun u => ?_
      simp only [waiting, register, Ledger.register, Store.waiting_register _ lt h]
      split
      · simp [Waiter.note?]
      · rfl

lemma resolve_turn (s : State) (t : Token) (success : Bool) :
    Turn s (s.step (.resolve t success)).1 [] (due (s.step (.resolve t success)).2)
      (s.shows (.resolve t success)) := by
  have made : due (s.step (.resolve t success)).2 = (s.waiting t).map (·, success) := by
    simp only [step, due_calls, Store.resolve_snd, waiting]
  have outcome? := fun u => s.ledger.store.outcome?_resolve t success u
  have waiting : ∀ u, (s.step (.resolve t success)).1.waiting u =
      if u = t then [] else s.waiting u := by
    intro u
    simp only [State.waiting, step, Store.waiting_resolve]
    split <;> rfl
  rw [made, shows]
  split
  · rename_i pending
    refine .resolved t success pending.2 (fun u => ?_) waiting
    exact (outcome? u).trans (if_congr (and_iff_left pending) rfl rfl)
  · rename_i settled
    have nobody : s.waiting t = [] := by
      rw [State.waiting]
      cases h : s.ledger.store.outcome? t with
      | some success => rw [Store.waiting_of_outcome? h, List.filterMap_nil]
      | none =>
          have le : s.ledger.store.size ≤ t := Nat.not_lt.mp fun lt => settled ⟨lt, h⟩
          rw [Store.waiting_of_size_le le, List.filterMap_nil]
    rw [nobody]
    refine .quiet (fun u => (outcome? u).trans (if_neg fun h => settled h.2)) fun u => ?_
    rw [waiting]
    split
    · rename_i here
      rw [here, nobody]
    · rfl

/-- **Every task takes one of the five turns.** -/
theorem step_turn {s : State} (sound : s.Sound) (task : Task) :
    Turn s (s.step task).1 (due [task]) (due (s.step task).2) (s.shows task) := by
  have still : ∀ {s' : State}, s'.ledger.store = s.ledger.store → Turn s s' [] [] [] := by
    intro s' same
    exact .quiet (fun t => by rw [Ledger.outcome?, same]; rfl) fun t => by rw [waiting, same]; rfl
  cases task with
  | resolve t success => exact resolve_turn s t success
  | call callback success =>
      cases callback with
      | member g => exact still rfl
      | own note =>
          have none : due (s.step (.call (.own note) success)).2 = [] := due_acts _
          rw [none]
          exact .called note success (fun _ => rfl) fun _ => rfl
  | countDown g =>
      have none : due (s.step (.countDown g)).2 = [] := by
        simp only [step]
        split
        · split <;> rfl
        · rfl
      rw [none]
      exact still rfl
  | conclude g =>
      have none : due (s.step (.conclude g)).2 = [] := by
        simp only [step]
        split <;> rfl
      rw [none]
      exact still rfl
  | enlist t g => exact register_member_turn g
  | act act =>
      cases act with
      | resolve of success =>
          have none : due (s.step (.act (.resolve of success))).2 = [] := by
            simp only [step]
            split <;> rfl
          rw [none]
          exact still rfl
      | watch of label acts =>
          simp only [step, shows]
          cases h : s.token? of with
          | none =>
              rw [token?] at h
              rw [h]
              exact still rfl
          | some t =>
              have lt := sound.token? h
              rw [token?] at h
              rw [h]
              exact register_own_turn ⟨label, acts⟩ lt

/-! ## What a step leaves alone -/

/-- Tasks hand out no handles and create no completions. -/
lemma step_frame (s : State) (task : Task) : (s.step task).1.handles = s.handles ∧
    (s.step task).1.ledger.store.size = s.ledger.store.size := by
  have register : ∀ t w, (s.register t w).1.handles = s.handles ∧
      (s.register t w).1.ledger.store.size = s.ledger.store.size :=
    fun _ _ => ⟨rfl, Store.size_register ..⟩
  cases task with
  | resolve t success => exact ⟨rfl, Store.size_resolve ..⟩
  | call callback success => cases callback <;> exact ⟨rfl, rfl⟩
  | enlist t g => exact register t _
  | countDown g => exact ⟨rfl, rfl⟩
  | conclude g => exact ⟨rfl, rfl⟩
  | act act =>
      cases act with
      | resolve of success => exact ⟨rfl, rfl⟩
      | watch of label acts =>
          simp only [step]
          cases s.handles[of]? with
          | none => exact ⟨rfl, rfl⟩
          | some t => exact register t _

lemma Sound.step {s : State} (sound : s.Sound) (task : Task) : (s.step task).1.Sound := by
  intro t mem
  rw [(s.step_frame task).1] at mem
  rw [(s.step_frame task).2]
  exact sound t mem

/-- Only calls write notes. -/
lemma step_log (s : State) (task : Task) : (s.step task).1.log.toList =
    s.log.toList ++ (s.shows task).calls.map fun call => (call.1.label, call.2) := by
  cases task with
  | resolve t success =>
      rw [shows]
      split <;> simp [step]
  | call callback success => cases callback <;> simp [step, shows, modifyAggregate, History.calls]
  | enlist | countDown | conclude =>
      simp [step, shows, modifyAggregate, register, History.calls]
  | act act =>
      cases act with
      | resolve of success => simp [step, shows, History.calls]
      | watch of label acts =>
          simp only [step, shows, token?]
          cases s.handles[of]? <;> simp [register, History.calls]

/-! ## Beginnings -/

/-- What a step of a program does before it runs anything, and the tasks that it then runs. -/
def begin (s : State) : Step → State × List Task
  | .new => (s.hand s.ledger.fresh, [])
  | .settled success => (s.hand (s.ledger.settled success), [])
  | .clone of =>
    match s.token? of with
    | some t => ({ s with handles := s.handles.push t }, [])
    | none => (s, [])
  | .ofAll members =>
    match members.filterMap s.token? with
    | [] => (s.hand (s.ledger.settled true), [])
    | tokens =>
      let (ledger, result, g) := s.ledger.opened tokens.length
      (s.hand (ledger, result), tokens.map (.enlist · g))
  | .resolve of success => (s, [.act (.resolve of success)])
  | .watch of label acts => (s, [.act (.watch of label acts)])

/-- What can be seen of it: a completion may have its outcome from the start. -/
def opening (s : State) : Step → History
  | .settled success => [.resolved s.ledger.store.size success]
  | .ofAll members =>
    match members.filterMap s.token? with
    | [] => [.resolved s.ledger.store.size true]
    | _ => []
  | _ => []

/-- A step of a program is its beginning and a run. -/
theorem perform_eq_run (s : State) (step : Step) :
    s.perform step = (s.begin step).1.run (s.begin step).2 := by
  cases step with
  | new | settled => rw [begin, run]; rfl
  | clone of =>
      simp only [perform, begin]
      cases s.token? of with
      | none => rw [run]
      | some => rw [run]
  | ofAll members =>
      simp only [perform, begin]
      cases members.filterMap s.token? with
      | nil => rw [run]
      | cons => rfl
  | resolve | watch => rfl

lemma begin_turn (s : State) (step : Step) :
    Turn s (s.begin step).1 [] (due (s.begin step).2) (s.opening step) := by
  have settled : ∀ success, Turn s (s.hand (s.ledger.settled success)) [] []
      [.resolved s.ledger.store.size success] := by
    intro success
    have nobody : s.waiting s.ledger.store.size = [] := by
      rw [waiting, Store.waiting_of_size_le (Nat.le_refl _), List.filterMap_nil]
    have turn : Turn s (s.hand (s.ledger.settled success)) []
        ((s.waiting s.ledger.store.size).map (·, success))
        [.resolved s.ledger.store.size success] := by
      refine .resolved _ success (Store.outcome?_of_size_le (Nat.le_refl _))
        (Store.outcome?_settled _ success) fun u => ?_
      rw [waiting, hand, Ledger.settled, Store.waiting_settled]
      split
      · rename_i here
        rw [here]
        exact nobody
      · rfl
    rwa [nobody] at turn
  have fresh : ∀ s' : State, s'.ledger.store = s.ledger.store.fresh.1 → Turn s s' [] [] [] := by
    intro s' made
    refine .quiet (fun t => ?_) fun t => ?_
    · rw [Ledger.outcome?, made]
      exact Store.outcome?_fresh ..
    · rw [waiting, made, Store.waiting_fresh]
      rfl
  have still : ∀ s' : State, s'.ledger = s.ledger → Turn s s' [] [] [] := by
    intro s' same
    exact .quiet (fun t => by rw [same]) fun t => by rw [waiting, same]; rfl
  cases step with
  | new => exact fresh _ rfl
  | settled success => exact settled success
  | clone of =>
      rw [begin]
      split
      · exact still _ rfl
      · exact still _ rfl
  | ofAll members =>
      rw [begin, opening]
      split
      · exact settled true
      · rw [due_enlist]
        exact fresh _ rfl
  | resolve | watch => exact still _ rfl

/-- **Completions and handles are only added.** -/
lemma begin_frame (s : State) (step : Step) :
    s.handles.toList <+: (s.begin step).1.handles.toList ∧
      s.ledger.store.size ≤ (s.begin step).1.ledger.store.size := by
  have hand : ∀ made, s.ledger.store.size ≤ made.1.store.size →
      s.handles.toList <+: (s.hand made).handles.toList ∧
        s.ledger.store.size ≤ (s.hand made).ledger.store.size := by
    intro made le
    rw [State.hand, Array.toList_push]
    exact ⟨List.prefix_append .., le⟩
  cases step with
  | new => exact hand _ (by simp [Ledger.fresh])
  | settled success => exact hand _ (by simp [Ledger.settled])
  | clone of =>
      rw [begin]
      split
      · rw [Array.toList_push]
        exact ⟨List.prefix_append .., Nat.le_refl _⟩
      · exact ⟨List.prefix_refl _, Nat.le_refl _⟩
  | ofAll members =>
      rw [begin]
      split
      · exact hand _ (by simp [Ledger.settled])
      · exact hand _ (by simp [Ledger.opened])
  | resolve | watch => exact ⟨List.prefix_refl _, Nat.le_refl _⟩

lemma Sound.begin {s : State} (sound : s.Sound) (step : Step) : (s.begin step).1.Sound := by
  have hand : ∀ made, s.ledger.store.size < made.1.store.size → made.2 = s.ledger.store.size →
      (s.hand made).Sound := by
    intro made lt new t mem
    rw [State.hand, Array.mem_push] at mem
    rcases mem with mem | rfl
    · exact Nat.lt_trans (sound t mem) lt
    · rw [new]
      exact lt
  cases step with
  | new => exact hand _ (by simp [Ledger.fresh]) rfl
  | settled success => exact hand _ (by simp [Ledger.settled]) rfl
  | clone of =>
      rw [State.begin]
      split
      · rename_i t found
        intro u mem
        rcases Array.mem_push.mp mem with mem | rfl
        · exact sound u mem
        · exact sound.token? found
      · exact sound
  | ofAll members =>
      rw [State.begin]
      split
      · exact hand _ (by simp [Ledger.settled]) rfl
      · exact hand _ (by simp [Ledger.opened]) rfl
  | resolve | watch => exact sound

/-! ## Runs -/

/-- What is put on top of a stack is run first. -/
theorem run_append (s : State) (tasks later : List Task) :
    s.run (tasks ++ later) = (s.run tasks).run later := by
  induction s, tasks using State.run.induct with
  | case1 s => rw [List.nil_append, run]
  | case2 s task tasks ih => rw [List.cons_append, run, run, ← List.append_assoc, ih]

theorem history_append (s : State) (tasks later : List Task) :
    s.history (tasks ++ later) = s.history tasks ++ (s.run tasks).history later := by
  induction s, tasks using State.run.induct with
  | case1 s => rw [List.nil_append, history, run, List.nil_append]
  | case2 s task tasks ih =>
      rw [List.cons_append, history, history, run, ← List.append_assoc, ih, List.append_assoc]

end State

namespace Threads

/-- A thread that nobody disturbs. -/
def alone (s : State) (tasks : List Task) : Threads := ⟨s, [tasks]⟩

/-- **Such a thread comes to its end**, and there it has run its stack. -/
theorem follow_alone (s : State) (tasks : List Task) :
    ∃ n, n ≤ s.weight + State.stackWeight tasks ∧
      (alone s tasks).follow (List.replicate n 0) = alone (s.run tasks) [] := by
  induction s, tasks using State.run.induct with
  | case1 s =>
      refine ⟨0, Nat.zero_le _, ?_⟩
      rw [State.run]
      rfl
  | case2 s task tasks ih =>
      obtain ⟨n, le, ends⟩ := ih
      have less := s.step_weight task
      refine ⟨n + 1, ?_, ?_⟩
      · simp only [State.stackWeight, weigh_append, weigh_cons] at le less ⊢
        omega
      · rw [State.run]
        exact ends

end Threads

end ProfilePipeline.Completion
