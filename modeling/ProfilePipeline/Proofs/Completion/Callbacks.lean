import Mathlib.Tactic.Common
import ProfilePipeline.Proofs.Completion.Turns

/-!
# Callbacks are called once

A callback may resolve the completion that it waits for, register others on it, or set off a chain
through other completions, and it does so while the callbacks that waited with it have been taken
out of the store and are not yet called.  So what holds between two steps of a program does not hold
while one goes on.

**The chronicle.**  What holds at every moment counts the calls that are due: those that were made
and those that are due together are those that are owed, where a callback is owed from the moment
at which it is registered and its completion has an outcome (`Chronicle.exact`).  Order is kept the
same way: what was registered before its completion was resolved is found in order among the calls
made since and those that are due (`Chronicle.ordered`).

**Runs.**  Every turn keeps the chronicle (`Chronicle.turn`), so a run does.  At its end nothing is
due, and the chronicle is what a program can rely on (`callbacks_called_once`).
-/

namespace ProfilePipeline.Completion

/-- The calls that registrations lead to: one for each callback whose completion is resolved, with
the outcome of that completion. -/
def State.owed (s : State) (registrations : List (Token × Note)) : List (Note × Bool) :=
  registrations.filterMap fun r => (s.ledger.outcome? r.1).map (r.2, ·)

namespace State

variable {s s' : State}

lemma owed_append (s : State) (rs rs' : List (Token × Note)) :
    s.owed (rs ++ rs') = s.owed rs ++ s.owed rs' := List.filterMap_append

lemma owed_congr (same : ∀ t, s'.ledger.outcome? t = s.ledger.outcome? t)
    (rs : List (Token × Note)) : s'.owed rs = s.owed rs := by
  simp only [owed, same]

/-- An outcome makes the calls owed that were registered on its completion. -/
lemma owed_resolve {t : Token} {success : Bool} (pending : s.ledger.outcome? t = none)
    (outcome? : ∀ u, s'.ledger.outcome? u = if u = t then some success else s.ledger.outcome? u)
    (rs : List (Token × Note)) :
    (s'.owed rs).Perm
      (s.owed rs ++ ((rs.filter (·.1 == t)).map Prod.snd).map (·, success)) := by
  induction rs with
  | nil => exact .refl _
  | cons r rs ih =>
      obtain ⟨u, note⟩ := r
      simp only [owed, List.filterMap_cons, List.filter_cons, outcome?] at ih ⊢
      by_cases here : u = t
      · subst here
        simp only [pending, beq_self_eq_true, ↓reduceIte, Option.map_some, Option.map_none,
          List.map_cons]
        exact (ih.cons _).trans List.perm_middle.symm
      · have elsewhere : (u == t) = false := beq_eq_false_iff_ne.mpr here
        simp only [here, elsewhere, ↓reduceIte, Bool.false_eq_true]
        cases s.ledger.outcome? u with
        | none => exact ih
        | some found => exact ih.cons _

end State

/-- What happens at the end of a history comes after the rest of it. -/
lemma append_singleton_eq {α : Type} {h before after : List α} {x e : α}
    (eq : h ++ [x] = before ++ e :: after) :
    h = before ∧ x = e ∧ after = [] ∨ ∃ rest, after = rest ++ [x] ∧ h = before ++ e :: rest := by
  rcases List.eq_nil_or_concat after with rfl | ⟨rest, y, rfl⟩
  · obtain ⟨rfl, last⟩ := List.append_inj' eq rfl
    exact .inl ⟨rfl, List.singleton_inj.mp last, rfl⟩
  · rw [List.concat_eq_append, ← List.cons_append, ← List.append_assoc] at eq
    obtain ⟨rfl, last⟩ := List.append_inj' eq rfl
    obtain rfl := List.singleton_inj.mp last
    exact .inr ⟨rest, List.concat_eq_append, rfl⟩

/-! ## The chronicle -/

/-- What is true of a history at every moment, where some calls are due. -/
structure Chronicle (h : History) (s : State) (due : List (Note × Bool)) : Prop where
  /-- Whatever was registered on a pending completion waits for it. -/
  waiting : ∀ t, s.ledger.outcome? t = none → s.waiting t = h.registeredOn t
  /-- Calls are made or due if they are owed. -/
  exact : (h.calls ++ due).Perm (s.owed h.registrations)
  /-- What was registered before its completion was resolved is called in that order. -/
  ordered : ∀ (t : Token) (success : Bool) (before after : History),
    h = before ++ .resolved t success :: after →
      ((before.registeredOn t).map (·, success)).Sublist (after.calls ++ due)
  /-- Outcomes are what completions were resolved with. -/
  outcomes : ∀ t success, s.ledger.outcome? t = some success ↔ .resolved t success ∈ h
  /-- No completion is resolved twice. -/
  once : h.resolutions.Nodup

namespace Turn

variable {s s' : State} {used made : List (Note × Bool)} {shown : History}

lemma waiting (turn : Turn s s' used made shown) {h : History}
    (kept : ∀ t, s.ledger.outcome? t = none → s.waiting t = h.registeredOn t) (t : Token)
    (pending : s'.ledger.outcome? t = none) :
    s'.waiting t = History.registeredOn (h ++ shown) t := by
  have before : s.ledger.outcome? t = none := by
    cases known : s.ledger.outcome? t with
    | none => rfl
    | some success => exact absurd (turn.outcome?_mono known) (by simp [pending])
  rw [History.registeredOn_append, ← kept t before]
  cases turn with
  | quiet _ waiting | called _ _ _ waiting => simp [waiting]
  | resolved u found _ outcome? waiting =>
      have elsewhere : t ≠ u := by
        rintro rfl
        simp [outcome?] at pending
      simp [waiting, elsewhere]
  | kept u note _ _ waiting =>
      rw [waiting]
      by_cases here : t = u
      · subst here
        simp
      · have elsewhere : ¬ u = t := fun e => here e.symm
        simp [here, elsewhere]
  | late u note success known _ waiting =>
      have elsewhere : ¬ u = t := by
        rintro rfl
        simp [known] at before
      simp [waiting, elsewhere]

/-- **Calls that are owed are made due, and calls that are due are made.** -/
lemma exact (turn : Turn s s' used made shown) {h : History} {rest : List (Note × Bool)}
    (chronicle : Chronicle h s (used ++ rest)) :
    (History.calls (h ++ shown) ++ (made ++ rest)).Perm
      (s'.owed (History.registrations (h ++ shown))) := by
  have owed := chronicle.exact
  rw [History.calls_append, History.registrations_append, State.owed_append]
  cases turn with
  | quiet outcome? =>
      rw [State.owed_congr outcome?]
      simpa [State.owed, History.registrations] using owed
  | called note success outcome? =>
      rw [State.owed_congr outcome?]
      simpa [State.owed] using owed
  | resolved t success pending outcome? =>
      rw [chronicle.waiting t pending]
      have moved := State.owed_resolve pending outcome? h.registrations
      have made : (h.calls ++ (((h.registeredOn t).map (·, success)) ++ rest)).Perm
          (h.calls ++ rest ++ (h.registeredOn t).map (·, success)) := by
        rw [List.append_assoc]
        exact List.perm_append_comm.append_left _
      simpa [State.owed] using (made.trans (owed.append_right _)).trans moved.symm
  | kept t note pending outcome? =>
      have nothing : s'.owed [(t, note)] = [] := by simp [State.owed, outcome?, pending]
      rw [State.owed_congr outcome?]
      simpa [nothing] using owed
  | late t note success known outcome? =>
      have one : s'.owed [(t, note)] = [(note, success)] := by simp [State.owed, outcome?, known]
      rw [State.owed_congr outcome?]
      have made :
          (h.calls ++ ((note, success) :: rest)).Perm (h.calls ++ rest ++ [(note, success)]) := by
        rw [List.append_assoc]
        exact (List.perm_append_comm : ([(note, success)] ++ rest).Perm _).append_left _
      simpa [one] using made.trans (owed.append_right [(note, success)])

/-- What was called or due before is so afterwards, in the same order. -/
lemma sublist (turn : Turn s s' used made shown) (since : History) (rest : List (Note × Bool)) :
    (since.calls ++ (used ++ rest)).Sublist
      (History.calls (since ++ shown) ++ (made ++ rest)) := by
  rw [History.calls_append, List.append_assoc]
  refine (List.Sublist.refl _).append ?_
  cases turn with
  | quiet | called => exact .refl _
  | resolved | kept | late => exact List.sublist_append_right ..

lemma ordered (turn : Turn s s' used made shown) {h : History} {rest : List (Note × Bool)}
    (chronicle : Chronicle h s (used ++ rest)) {t : Token} {success : Bool}
    {before after : History} (split : h ++ shown = before ++ .resolved t success :: after) :
    ((before.registeredOn t).map (·, success)).Sublist (after.calls ++ (made ++ rest)) := by
  -- The completion was resolved before this turn, unless the turn resolves it.
  have earlier : ∀ since : History, h = before ++ .resolved t success :: since →
      after = since ++ shown → ((before.registeredOn t).map (·, success)).Sublist
        (after.calls ++ (made ++ rest)) := by
    rintro since cut rfl
    exact (chronicle.ordered t success before since cut).trans (turn.sublist since rest)
  cases turn with
  | quiet => exact earlier after (by simpa using split) (List.append_nil _).symm
  | called | kept | late =>
      rcases append_singleton_eq split with ⟨-, other, -⟩ | ⟨since, later, cut⟩
      · cases other
      · exact earlier since cut later
  | resolved u found pending =>
      rcases append_singleton_eq split with ⟨rfl, same, rfl⟩ | ⟨since, later, cut⟩
      · obtain ⟨rfl, rfl⟩ := Happening.resolved.inj same
        rw [chronicle.waiting u pending]
        exact List.sublist_append_left ..
      · exact earlier since cut later

lemma outcomes (turn : Turn s s' used made shown) {h : History}
    (outcomes : ∀ t success, s.ledger.outcome? t = some success ↔ .resolved t success ∈ h)
    (t : Token) (success : Bool) :
    s'.ledger.outcome? t = some success ↔ .resolved t success ∈ h ++ shown := by
  rw [List.mem_append, ← outcomes]
  cases turn with
  | quiet outcome? | called _ _ outcome? | kept _ _ _ outcome? | late _ _ _ _ outcome? =>
      simp [outcome?]
  | resolved u found pending outcome? =>
      rw [outcome?, List.mem_singleton, Happening.resolved.injEq]
      by_cases here : t = u
      · subst here
        simp [pending, eq_comm]
      · simp [here]

lemma once (turn : Turn s s' used made shown) {h : History}
    (outcomes : ∀ t success, s.ledger.outcome? t = some success ↔ .resolved t success ∈ h)
    (once : h.resolutions.Nodup) : (History.resolutions (h ++ shown)).Nodup := by
  rw [History.resolutions_append]
  cases turn with
  | resolved t success pending =>
      refine List.nodup_append.mpr ⟨once, List.pairwise_singleton _ t, ?_⟩
      intro u mem v here
      obtain ⟨success', resolved⟩ := History.mem_resolutions.mp mem
      obtain rfl := List.mem_singleton.mp here
      rintro rfl
      rw [(outcomes u success').mpr resolved] at pending
      cases pending
  | quiet | called | kept | late => simpa [History.resolutions] using once

end Turn

/-- **Every turn keeps the chronicle.** -/
theorem Chronicle.turn {h : History} {s s' : State} {used made rest : List (Note × Bool)}
    {shown : History} (chronicle : Chronicle h s (used ++ rest))
    (turn : Turn s s' used made shown) :
    Chronicle (h ++ shown) s' (made ++ rest) where
  waiting := turn.waiting chronicle.waiting
  exact := turn.exact chronicle
  ordered _ _ _ _ := turn.ordered chronicle
  outcomes := turn.outcomes chronicle.outcomes
  once := turn.once chronicle.outcomes chronicle.once

/-- So does a run, after which nothing is due. -/
theorem Chronicle.run {h : History} {s : State} (sound : s.Sound) {tasks : List Task}
    (chronicle : Chronicle h s (due tasks)) :
    Chronicle (h ++ s.history tasks) (s.run tasks) [] ∧ (s.run tasks).Sound := by
  induction s, tasks using State.run.induct generalizing h with
  | case1 s =>
      rw [State.history, State.run, List.append_nil]
      exact ⟨chronicle, sound⟩
  | case2 s task tasks ih =>
      rw [due_cons] at chronicle
      rw [State.history, State.run, ← List.append_assoc]
      refine ih (sound.step task) ?_
      rw [due_append]
      exact chronicle.turn (State.step_turn sound task)

/-! ## Programs -/

namespace State

variable {s : State}

/-- What happens in a program. -/
def historyAll (s : State) : List Step → History
  | [] => []
  | step :: steps =>
    s.opening step ++ (s.begin step).1.history (s.begin step).2 ++ (s.perform step).historyAll steps

/-- **The chronicle of a program**, after any number of its steps. -/
theorem chronicle_performAll {h : History} (sound : s.Sound) (chronicle : Chronicle h s [])
    (steps : List Step) :
    Chronicle (h ++ s.historyAll steps) (s.performAll steps) [] := by
  induction steps generalizing h s with
  | nil =>
      rw [historyAll, List.append_nil]
      exact chronicle
  | cons step steps ih =>
      have begun : Chronicle (h ++ s.opening step) (s.begin step).1 (due (s.begin step).2 ++ []) :=
        Chronicle.turn chronicle (s.begin_turn step)
      rw [List.append_nil] at begun
      obtain ⟨ran, sound⟩ := begun.run (sound.begin step)
      rw [← perform_eq_run] at ran sound
      rw [historyAll, ← List.append_assoc, ← List.append_assoc]
      exact ih sound ran

lemma chronicle_empty : Chronicle [] {} [] where
  waiting _ _ := rfl
  exact := .refl _
  ordered _ _ before after split := by simp at split
  outcomes t success := by
    rw [Ledger.outcome?, Store.outcome?_of_size_le (Nat.zero_le t)]
    simp
  once := .nil

/-- Only calls write notes. -/
lemma run_log (s : State) (tasks : List Task) : (s.run tasks).log.toList =
    s.log.toList ++ (s.history tasks).calls.map fun call => (call.1.label, call.2) := by
  induction s, tasks using State.run.induct with
  | case1 s => simp [run, history]
  | case2 s task tasks ih =>
      rw [run, history, ih, step_log, History.calls_append, List.map_append, List.append_assoc]

lemma performAll_log (s : State) (steps : List Step) : (s.performAll steps).log.toList =
    s.log.toList ++ (s.historyAll steps).calls.map fun call => (call.1.label, call.2) := by
  induction steps generalizing s with
  | nil => simp [performAll, historyAll]
  | cons step steps ih =>
      have began : (s.begin step).1.log = s.log ∧ (s.opening step).calls = [] := by
        cases step with
        | new | settled | resolve | watch => exact ⟨rfl, rfl⟩
        | clone of =>
            rw [begin]
            cases s.token? of <;> exact ⟨rfl, rfl⟩
        | ofAll members =>
            rw [begin, opening]
            cases members.filterMap s.token? <;> exact ⟨rfl, rfl⟩
      have ran := (s.begin step).1.run_log (s.begin step).2
      rw [← perform_eq_run, began.1] at ran
      have rest := ih (s.perform step)
      rw [ran] at rest
      rw [performAll, List.foldl_cons, ← performAll, rest, historyAll]
      simp [began.2]

/-! ## Outcomes stay -/

lemma run_mono (sound : s.Sound) (tasks : List Task) : (s.run tasks).Sound ∧
    (s.run tasks).handles = s.handles ∧
      ∀ t success, s.ledger.outcome? t = some success →
        (s.run tasks).ledger.outcome? t = some success := by
  induction s, tasks using State.run.induct with
  | case1 s =>
      rw [run]
      exact ⟨sound, rfl, fun _ _ known => known⟩
  | case2 s task tasks ih =>
      obtain ⟨after, handles, keeps⟩ := ih (sound.step task)
      rw [run]
      refine ⟨after, handles.trans (s.step_frame task).1, fun t success known => ?_⟩
      exact keeps t success ((step_turn sound task).outcome?_mono known)

lemma performAll_mono (sound : s.Sound) (steps : List Step) : (s.performAll steps).Sound ∧
    s.handles.toList <+: (s.performAll steps).handles.toList ∧
      ∀ t success, s.ledger.outcome? t = some success →
        (s.performAll steps).ledger.outcome? t = some success := by
  induction steps generalizing s with
  | nil => exact ⟨sound, List.prefix_refl _, fun _ _ known => known⟩
  | cons step steps ih =>
      obtain ⟨after, handles, keeps⟩ := run_mono (sound.begin step) (s.begin step).2
      rw [← perform_eq_run] at after handles keeps
      obtain ⟨final, more, kept⟩ := ih after
      have begun := (s.begin_frame step).1
      rw [← handles] at begun
      refine ⟨final, begun.trans more, fun t success known => kept t success (keeps t success ?_)⟩
      exact (s.begin_turn step).outcome?_mono known

lemma performAll_token? (sound : s.Sound) (steps : List Step) {of : Nat} {t : Token}
    (h : s.token? of = some t) : (s.performAll steps).token? of = some t := by
  obtain ⟨more, eq⟩ := (performAll_mono sound steps).2.1
  rw [token?, ← Array.getElem?_toList] at h ⊢
  rw [← eq]
  obtain ⟨lt, -⟩ := List.getElem?_eq_some_iff.mp h
  rw [List.getElem?_append_left lt, h]

lemma performAll_outcome? (sound : s.Sound) (steps : List Step) {of : Nat} {success : Bool}
    (h : s.outcome? of = some success) : (s.performAll steps).outcome? of = some success := by
  obtain ⟨t, found, known⟩ := Option.bind_eq_some_iff.mp h
  rw [outcome?, performAll_token? sound steps found]
  exact (performAll_mono sound steps).2.2 t success known

lemma sound_empty : Sound {} := by
  intro t mem
  exact absurd mem (Array.not_mem_empty t)

/-- Resolving leaves nothing pending. -/
lemma perform_resolve (sound : s.Sound) {of : Nat} {t : Token} (found : s.token? of = some t)
    (success : Bool) :
    (s.perform (.resolve of success)).outcome? of = some ((s.outcome? of).getD success) := by
  have tokens : (s.perform (.resolve of success)).token? of = some t :=
    performAll_token? sound [.resolve of success] found
  have runs : s.perform (.resolve of success) = (s.step (.resolve t success)).1.run
      (s.step (.resolve t success)).2 := by
    have named : s.step (.act (.resolve of success)) = (s, [.resolve t success]) := by
      rw [token?] at found
      simp only [step, found]
    rw [perform, run, named, List.append_nil, run, List.append_nil]
  have after : (s.step (.resolve t success)).1.ledger.outcome? t =
      some ((s.ledger.outcome? t).getD success) := by
    refine (Store.outcome?_resolve ..).trans ?_
    cases known : s.ledger.store.outcome? t with
    | none => rw [if_pos ⟨rfl, sound.token? found, rfl⟩, Ledger.outcome?, known]; rfl
    | some found => rw [if_neg (by simp), Ledger.outcome?, known]; rfl
  have kept := (run_mono (sound.step _) (s.step (.resolve t success)).2).2.2 t _ after
  rw [outcome?, tokens, outcome?, found, runs]
  exact kept

/-- A clone is another handle for the same completion. -/
lemma performAll_clone (sound : s.Sound) {of : Nat} {t : Token} (found : s.token? of = some t)
    (more : List Step) : ((s.perform (.clone of)).performAll more).outcome? s.handles.size =
      ((s.perform (.clone of)).performAll more).outcome? of := by
  have cloned : s.perform (.clone of) = { s with handles := s.handles.push t } := by
    rw [perform, found]
  have after : (s.perform (.clone of)).Sound := (performAll_mono sound [.clone of]).1
  have original := performAll_token? sound (.clone of :: more) found
  have clone : ((s.perform (.clone of)).performAll more).token? s.handles.size = some t := by
    refine performAll_token? after more ?_
    rw [cloned, token?, Array.getElem?_push_size]
  rw [outcome?, outcome?, clone]
  exact congrArg (Option.bind · _) original.symm

/-! ## Calls nest -/

/-- Writes a note. -/
def noted (s : State) (label : String) (success : Bool) : State :=
  { s with log := s.log.push (label, success) }

/-- Whoever calls a callback goes on when the callback has done all that it does. -/
lemma run_call (s : State) (note : Note) (success : Bool) (rest : List Task) :
    s.run (.call (.own note) success :: rest) =
      ((s.noted note.label success).run (note.acts.map .act)).run rest := by
  rw [run, run_append]
  rfl

lemma history_call (s : State) (note : Note) (success : Bool) (rest : List Task) :
    s.history (.call (.own note) success :: rest) = .called note success ::
      ((s.noted note.label success).history (note.acts.map .act) ++
        ((s.noted note.label success).run (note.acts.map .act)).history rest) := by
  rw [history, history_append]
  rfl

lemma step_late {of : Nat} {t : Token} {success : Bool} (found : s.token? of = some t)
    (known : s.ledger.outcome? t = some success) (label : String) (acts : List Act) :
    s.step (.act (.watch of label acts)) = (s, [.call (.own ⟨label, acts⟩) success]) := by
  rw [token?] at found
  simp only [step, found, register, Ledger.register, Store.register_of_outcome? _ known]

end State

/-- What a program can rely on whenever none of its steps is going on. -/
structure CallsBack (h : History) (s : State) : Prop where
  /-- The next step comes to an end, whatever it is. -/
  ends : ∀ step, ∃ n, (Threads.alone (s.begin step).1 (s.begin step).2).follow
    (List.replicate n 0) = Threads.alone (s.perform step) []
  /-- To resolve a completion is to give it an outcome, unless it has one. -/
  resolves : ∀ of success, s.token? of ≠ none →
    (s.perform (.resolve of success)).outcome? of = some ((s.outcome? of).getD success)
  /-- No later step changes an outcome. -/
  keeps : ∀ of success, s.outcome? of = some success →
    ∀ more, (s.performAll more).outcome? of = some success
  /-- A clone has the outcome of the original, now and later. -/
  clones : ∀ of, s.token? of ≠ none → ∀ more,
    ((s.perform (.clone of)).performAll more).outcome? s.handles.size =
      ((s.perform (.clone of)).performAll more).outcome? of
  /-- Outcomes are what completions were resolved with. -/
  outcomes : ∀ t success, s.ledger.outcome? t = some success ↔ .resolved t success ∈ h
  /-- No completion is resolved twice. -/
  once : h.resolutions.Nodup
  /-- A callback was called exactly once if its completion is resolved, with that outcome, and not
  at all otherwise. -/
  exact : h.calls.Perm (s.owed h.registrations)
  /-- Every call wrote its note. -/
  logged : s.log.toList = h.calls.map fun call => (call.1.label, call.2)
  /-- What was registered before its completion was resolved was called afterwards, in the order of
  registration. -/
  ordered : ∀ (t : Token) (success : Bool) (before after : History),
    h = before ++ .resolved t success :: after →
      ((before.registeredOn t).map (·, success)).Sublist after.calls

lemma Chronicle.callsBack {h : History} {s : State} (sound : s.Sound) (chronicle : Chronicle h s [])
    (logged : s.log.toList = h.calls.map fun call => (call.1.label, call.2)) : CallsBack h s where
  ends step := by
    obtain ⟨n, -, ends⟩ := Threads.follow_alone (s.begin step).1 (s.begin step).2
    rw [← State.perform_eq_run] at ends
    exact ⟨n, ends⟩
  resolves of success found := by
    obtain ⟨t, found⟩ := Option.ne_none_iff_exists'.mp found
    exact State.perform_resolve sound found success
  keeps of success known more := State.performAll_outcome? sound more known
  clones of found more := by
    obtain ⟨t, found⟩ := Option.ne_none_iff_exists'.mp found
    exact State.performAll_clone sound found more
  outcomes := chronicle.outcomes
  once := chronicle.once
  exact := by simpa using chronicle.exact
  logged := logged
  ordered t success before after split := by
    simpa using chronicle.ordered t success before after split

/-- **Callbacks are called once**, whatever a program and its callbacks do.  At any moment, also
inside of another callback, a callback that is registered on a resolved completion is called, and
has done all that it does, before whoever registers it goes on. -/
theorem callbacks_called_once (steps : List Step) :
    CallsBack (State.historyAll {} steps) (State.performAll {} steps) ∧
      ∀ (s : State) (of : Nat) (t : Token) (success : Bool) (label : String) (acts : List Act)
        (rest : List Task), s.token? of = some t → s.ledger.outcome? t = some success →
        s.run (.act (.watch of label acts) :: rest) =
            ((s.noted label success).run (acts.map .act)).run rest ∧
          s.history (.act (.watch of label acts) :: rest) =
            .registered t ⟨label, acts⟩ :: .called ⟨label, acts⟩ success ::
              ((s.noted label success).history (acts.map .act) ++
                ((s.noted label success).run (acts.map .act)).history rest) := by
  constructor
  · have chronicle := State.chronicle_performAll State.sound_empty State.chronicle_empty steps
    have sound := (State.performAll_mono State.sound_empty steps).1
    exact chronicle.callsBack sound (State.performAll_log {} steps)
  · intro s of t success label acts rest found known
    have late := State.step_late found known label acts
    constructor
    · rw [State.run, late]
      exact s.run_call ⟨label, acts⟩ success rest
    · rw [State.history, late, State.shows, found]
      exact congrArg (Happening.registered t ⟨label, acts⟩ :: ·)
        (s.history_call ⟨label, acts⟩ success rest)

/-- A callback that resolves its own completion again and registers another callback on it. -/
example : (State.performAll {} [.new, .clone 0, .watch 0 "first" [.resolve 1 false,
    .watch 0 "inner" []], .watch 1 "second" [], .resolve 1 true]).log =
      #[("first", true), ("inner", true), ("second", true)] := by cbv

end ProfilePipeline.Completion
