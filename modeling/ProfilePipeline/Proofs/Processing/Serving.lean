import ProfilePipeline.Proofs.Processing.History
import ProfilePipeline.Proofs.Processing.Parting

/-!
# A simple processor at work

What is known of a simple processor from outside is a story: the records that were emitted, the
calls of its exporter, the completions that flushes returned, and its first shutdown.
`State.Serving` says that the state of a pipeline is as the story goes, also in the middle of a run.

* **`Serving.step`** — a callback keeps it so, and does not panic.
* `Serving.run`, `Serving.resolve` — so does everything that is set off by a completion.
-/

namespace ProfilePipeline.Processing

open Completion (Token Waiter Ledger Store)
open Export (Answer Exporter)

/-- A call of an exporter: what it was, the state that it found, and how it ended. -/
abbrev Made := Export.Call × State × Answer

namespace Made

/-- The batch that was handed over. -/
def batch? : Made → Option (List Record)
  | (.accept records, _, _) => some records
  | _ => none

/-- The completion of an export. -/
def export? : Made → Option Token
  | (.accept _, _, .returned t) => some t
  | _ => none

/-- Whether the exporter was shut down. -/
def isShutdown : Made → Bool
  | (.shutdown, _, _) => true
  | _ => false

/-- The completion of the exporter's shutdown. -/
def left? : Made → Option Token
  | (.shutdown, _, .returned u) => some u
  | _ => none

section

variable (found : State) (answer : Answer) (records : List Record) (t : Token)

@[simp] lemma batch?_accept : batch? (.accept records, found, answer) = some records := rfl

@[simp] lemma batch?_shutdown : batch? (.shutdown, found, answer) = none := rfl

@[simp] lemma export?_returned : export? (.accept records, found, .returned t) = some t := rfl

@[simp] lemma export?_panicked : export? (.accept records, found, .panicked) = none := rfl

@[simp] lemma export?_shutdown : export? (.shutdown, found, answer) = none := rfl

@[simp] lemma left?_accept : left? (.accept records, found, answer) = none := rfl

@[simp] lemma left?_returned : left? (.shutdown, found, .returned t) = some t := rfl

end

end Made

/-- What is known of a simple processor from outside. -/
structure Story where
  emitted : List Record := []
  calls : List Made := []
  /-- The completions of flushes, with the exports that were pending. -/
  flushes : List (Token × List Token) := []
  farewell : Option Farewell := none

namespace Story

/-- The completions of all exports that did not panic. -/
abbrev exports (story : Story) : List Token := story.calls.filterMap Made.export?

/-- The completions of the exporter's shutdown. -/
abbrev left (story : Story) : List Token := story.calls.filterMap Made.left?

end Story

namespace State

variable {s s' start : State} {todo todo' rest more : List Task} {task : Task} {t : Token}
  {slot : Nat} {e : Exporter} {p p' : SimpleProcessor} {story : Story}

/-- A call of an exporter, for the record. -/
def placing (e : Exporter) (c : Export.Call) (s : State) : State × State × Answer :=
  ((s.callExporter e c).1, s, (s.callExporter e c).2)

/-- Only completions and simple processors change: no device is called, and nothing is seen
outside. -/
def Inward (s s' : State) : Prop :=
  ∃ ledger simples draining,
    s' = { s with exports := { s.exports with ledger }, simples, draining }

lemma Inward.refl (s : State) : s.Inward s := ⟨_, _, _, rfl⟩

lemma Inward.trans {s'' : State} (h : s.Inward s') (h' : s'.Inward s'') : s.Inward s'' := by
  obtain ⟨_, _, _, rfl⟩ := h
  obtain ⟨ledger, simples, draining, rfl⟩ := h'
  exact ⟨ledger, simples, draining, rfl⟩

lemma Inward.devices (h : s.Inward s') : s'.exports.devices = s.exports.devices := by
  obtain ⟨_, _, _, rfl⟩ := h
  rfl

lemma Inward.deferred (h : s.Inward s') : s'.exports.deferred = s.exports.deferred := by
  obtain ⟨_, _, _, rfl⟩ := h
  rfl

/-- One more call of the exporter. -/
lemma transcript_call {calls : List Made} {c : Export.Call} {answer : Answer} {s₀ s₁ : State}
    (h : Transcript (placing e) Inward start calls s) (before : s.Inward s₀)
    (called : s₀.callExporter e c = (s₁, answer)) (after : s₁.Inward s') :
    Transcript (placing e) Inward start (calls ++ [(c, s₀, answer)]) s' := by
  have made : placing e c s₀ = (s₁, s₀, answer) := by rw [placing, called]
  have before : Transcript (placing e) Inward start calls s₀ := h.append Inward.trans before
  have after : Inward (placing e c s₀).1 s' := by rwa [made]
  have all := before.concat after
  rwa [made] at all

/-- **The state of a pipeline is as the story goes** of a simple processor and its exporter. -/
structure Serving (slot : Nat) (e : Exporter) (start : State) (story : Story)
    (p : SimpleProcessor) (s : State) (todo : List Task) : Prop where
  orderly : s.Orderly todo
  transcript : Transcript (placing e) Inward start story.calls s
  batches : story.calls.filterMap Made.batch? = story.emitted.map fun r => [r]
  plain : ∀ made ∈ story.calls,
    made.1.operation = .accept ∨ made.1 = .shutdown ∧ ∃ u, made.2.2 = .returned u
  exporter : p.exporter = e
  isShutdown : p.isShutdown = story.farewell.isSome
  exported : Exported slot p story.exports s todo
  stage : Stage slot story.farewell story.left s todo
  /-- The exporter has not been shut down yet, and will not panic then. -/
  calm : story.left = [] → e.Calm s.exports
  gathers : ∀ f ∈ story.flushes, f.1 < s.size ∧ Gathers f.1 f.2 s todo
  farewell : ∀ v ∈ story.farewell, s.Free v.done ∧ (v.flushed, v.members) ∈ story.flushes
  unnamed : ∀ v ∈ story.farewell, ∀ named ∈ s.exports.deferred, named.2 ≠ v.done
  /-- The exporter was shut down when those exports were over. -/
  ended : ∀ v ∈ story.farewell, ∀ made ∈ story.calls, made.1 = .shutdown →
    ∀ t ∈ v.members, made.2.1.outcome? t ≠ none

namespace Serving

/-- What a task that does not panic keeps in any case. -/
lemma carry (h : Serving slot e start story p s (task :: rest))
    (eq : s.step task = (s', some more)) :
    s'.Orderly (more ++ rest) ∧
      (∀ f ∈ story.flushes, f.1 < s'.size ∧ Gathers f.1 f.2 s' (more ++ rest)) ∧
      ∀ v ∈ story.farewell, s'.Free v.done ∧ (v.flushed, v.members) ∈ story.flushes := by
  have advance : Advance 0 s (task :: rest) s' (more ++ rest) := .step eq
  refine ⟨h.orderly.advance advance, fun f mem => ?_, fun v mem => ?_⟩
  · obtain ⟨lt, gathers⟩ := h.gathers f mem
    exact ⟨Nat.lt_of_lt_of_le lt (size_le_of_advance h.orderly advance),
      gathers.step h.orderly eq⟩
  · exact (h.farewell v mem).imp_left (free_of_advance h.orderly advance)

/-- Callbacks that call no exporter. -/
lemma inward (h : Serving slot e start story p s (task :: rest))
    (eq : s.step task = (s', some more)) (inward : s.Inward s')
    (exporter : p'.exporter = p.exporter) (isShutdown : p'.isShutdown = p.isShutdown)
    (exported : Exported slot p' story.exports s' (more ++ rest))
    (stage : Stage slot story.farewell story.left s' (more ++ rest)) :
    Serving slot e start story p' s' (more ++ rest) := by
  obtain ⟨orderly, gathers, farewell⟩ := h.carry eq
  exact { h with
    orderly := orderly
    transcript := h.transcript.append Inward.trans inward
    exporter := exporter.trans h.exporter
    isShutdown := isShutdown.trans h.isShutdown
    exported := exported
    stage := stage
    calm := fun none => (h.calm none).of_devices inward.devices
    gathers := gathers
    farewell := farewell
    unnamed := fun v mem => inward.deferred ▸ h.unnamed v mem }

/-- Tasks that leave all completions and all callbacks of processors where they are. -/
lemma aside (h : Serving slot e start story p s (task :: rest))
    (eq : s.step task = (s', some more)) (inward : s.Inward s')
    (simples : s'.simples = s.simples) (draining : s'.draining = s.draining)
    (store : s'.exports.ledger.store = s.exports.ledger.store)
    (own : ∀ k success, .call (.own k) success ∈ more ++ rest ↔
      .call (.own k) success ∈ task :: rest)
    (resolves : ∀ v ∈ story.farewell, ∀ success, .resolve v.done success ∈ more ++ rest ↔
      .resolve v.done success ∈ task :: rest) :
    Serving slot e start story p s' (more ++ rest) := by
  have spares (about : Reaction → Prop) : Spares about s (task :: rest) s' (more ++ rest) :=
    .of_store store fun k success _ => own k success
  have found : s'.simples[slot]? = some p := by rw [simples, h.exported.found]
  exact h.inward eq inward rfl rfl (h.exported.frame (spares _) found rfl rfl)
    (h.stage.frame (spares _) draining (fun v mem => (h.farewell v mem).1.lt) resolves)

/-- What gathers and waits does so while something is added. -/
lemma grown (h : Serving slot e start story p s []) (grows : s.Grows 0 s') :
    (∀ f ∈ story.flushes, f.1 < s'.size ∧ Gathers f.1 f.2 s' []) ∧
      ∀ v ∈ story.farewell, s'.Free v.done ∧ (v.flushed, v.members) ∈ story.flushes := by
  refine ⟨fun f mem => ?_, fun v mem => (h.farewell v mem).imp_left grows.ledger.free⟩
  obtain ⟨lt, gathers⟩ := h.gathers f mem
  exact ⟨Nat.lt_of_lt_of_le lt grows.ledger.size, gathers.grows lt grows.ledger⟩

/-- Exporters make names for new completions only. -/
lemma unnamed_of_grows (h : Serving slot e start story p s todo)
    {exports : Export.State Reaction} (grows : s.exports.Grows exports) :
    ∀ v ∈ story.farewell, ∀ named ∈ exports.deferred, named.2 ≠ v.done := by
  intro v mem named there
  rcases grows.deferred named there with there | ⟨le, -⟩
  · exact h.unnamed v mem named there
  · exact Nat.ne_of_gt (Nat.lt_of_lt_of_le (h.farewell v mem).1.lt le)

/-- An exporter that was not shut down before returns a completion when it is. -/
lemma returns (h : Serving slot e start story p s todo) (unleft : story.left = []) :
    ∃ exports u, e.perform .shutdown s.exports = (exports, .returned u) ∧
      s.exports.Grows exports ∧ s.exports.ledger.New exports.ledger u := by
  have answered := Exporter.answered_perform .shutdown e h.orderly.bounded
  have calm := h.calm unleft
  rw [Exporter.Calm] at calm
  rcases called : e.perform .shutdown s.exports with ⟨exports, answer⟩
  rw [called] at answered calm
  cases answer with
  | returned u => exact ⟨exports, u, rfl, answered.grows, answered.new u rfl⟩
  | panicked => exact absurd rfl calm

/-- What whoever waited for the exports does then. -/
lemma step_next (h : Serving slot e start story p s todo) (due : slot ∈ s.draining)
    {exports : Export.State Reaction} {u : Token}
    (called : e.perform .shutdown s.exports = (exports, .returned u)) (v : Farewell)
    (success : Bool) : s.step (.call (.own (v.next slot)) success) =
      ({ s with
          draining := s.draining.erase slot
          exports := { exports with ledger := (exports.ledger.register u (.own v.last)).1 } },
        some (Task.calls (.own v.last) (exports.ledger.outcome? u))) := by
  rw [State.step, if_pos due]
  simp only [shutExporter, h.exported.found, h.exporter, callExporter, called]
  rw [← exports.ledger.register_snd u (.own v.last)]
  rcases exports.ledger.register u (.own v.last) with ⟨ledger, outcome⟩
  cases outcome <;> rfl

/-- **Whoever waited for the exports shuts the exporter down**, which does not panic. -/
lemma leave {v : Farewell} {success : Bool}
    (h : Serving slot e start story p s (.call (.own (v.next slot)) success :: rest))
    (asked : story.farewell = some v) (due : slot ∈ s.draining) :
    ∃ s' more calls p', s.step (.call (.own (v.next slot)) success) = (s', some more) ∧
      Serving slot e start { story with calls } p' s' (more ++ rest) := by
  have parting := h.stage.parting asked
  obtain ⟨free, flush⟩ := h.farewell v asked
  have unleft := parting.unleft due
  obtain ⟨exports, u, called, grows, new⟩ := h.returns unleft
  have eq := h.step_next due called v success
  obtain ⟨orderly, gathers, farewell⟩ := h.carry eq
  -- The exporter finds the state that was there, where nobody is going to shut it down any more.
  obtain ⟨found, here⟩ : ∃ found, found = { s with draining := s.draining.erase slot } := ⟨_, rfl⟩
  have called' : found.callExporter e .shutdown = ({ found with exports }, .returned u) := by
    simp [here, callExporter, called]
  generalize after : State.mk _ _ _ _ _ = s' at eq orderly gathers farewell
  have ledger : s'.exports.ledger = (exports.ledger.register u (.own v.last)).1 := by rw [← after]
  have inward : Inward { found with exports } s' := by
    rw [here]
    exact ⟨_, _, _, after.symm⟩
  have adds : s.Adds exports.ledger := .of_exports grows
  have spares : Spares (·.done? = none) s (.call (.own (v.next slot)) success :: rest) s'
      (Task.calls (.own v.last) (exports.ledger.outcome? u) ++ rest) := by
    refine .of_register adds ledger (by simp [Reaction.done?]) fun k b about => ?_
    have next : k ≠ v.next slot := by
      rintro rfl
      cases about
    have last : k ≠ v.last := by
      rintro rfl
      cases about
    simp [Task.mem_calls, next, last]
  have parting' := parting.leave due free.lt adds new.lt ledger (by rw [← after])
  have unnamed := h.unnamed_of_grows grows
  refine ⟨s', _, story.calls ++ [(.shutdown, found, .returned u)], p, eq, ?_⟩
  have exported : (story.calls ++ [(Export.Call.shutdown, found, Answer.returned u)]).filterMap
      Made.export? = story.exports := by simp
  have left : (story.calls ++ [(Export.Call.shutdown, found, Answer.returned u)]).filterMap
      Made.left? = [u] := by simpa using unleft
  refine { h with
    orderly := orderly
    transcript := transcript_call h.transcript ⟨_, _, _, here⟩ called' inward
    gathers := gathers
    farewell := farewell
    batches := by
      rw [List.filterMap_append, h.batches]
      exact List.append_nil _
    plain := List.forall_mem_append.mpr ⟨h.plain, List.forall_mem_singleton.mpr ?_⟩
    exported := ?_
    stage := ?_
    calm := ?_
    unnamed := ?_
    ended := ?_ }
  · exact .inr ⟨rfl, u, rfl⟩
  · rw [Story.exports, exported]
    exact h.exported.frame spares (by rw [← after, h.exported.found]) rfl rfl
  · rw [Story.left, left]
    exact .of_parting parting' asked
  · exact fun none => absurd (left.symm.trans none) (by simp)
  · rw [inward.deferred]
    exact unnamed
  · intro v' mem
    obtain rfl : v = v' := Option.some.inj (asked.symm.trans mem)
    refine List.forall_mem_append.mpr ⟨h.ended v mem, List.forall_mem_singleton.mpr fun _ => ?_⟩
    rw [here]
    exact (h.gathers _ flush).2.members
      (parting.called _ _ List.mem_cons_self (by simp [Reaction.done?])).1

/-- **A task of a simple processor at work does not panic**, and leaves it at work. -/
theorem step (h : Serving slot e start story p s (task :: rest)) :
    ∃ s' more calls p', s.step task = (s', some more) ∧
      Serving slot e start { story with calls } p' s' (more ++ rest) := by
  cases task with
  | resolve t success =>
      obtain ⟨s', more, eq⟩ : ∃ s' more, s.step (.resolve t success) = (s', some more) :=
        ⟨_, _, rfl⟩
      refine ⟨s', more, story.calls, p, eq, ?_⟩
      cases turn_of_step (n := 0) h.orderly eq with
      | stale stale =>
          have done (v : Farewell) (mem : v ∈ story.farewell) := (h.farewell v mem).1.lt
          exact h.inward eq (.refl s) rfl rfl
            (h.exported.frame (.of_store rfl (by simp)) h.exported.found rfl rfl)
            (h.stage.stale done stale)
      | resolved pending lt =>
          exact h.inward eq ⟨_, _, _, rfl⟩ rfl rfl (h.exported.resolve pending lt)
            (h.stage.resolve pending lt)
  | call w success =>
      cases w with
      | member g =>
          obtain ⟨s', more, eq⟩ : ∃ s' more, s.step (.call (.member g) success) = (s', some more) :=
            ⟨_, _, rfl⟩
          refine ⟨s', more, story.calls, p, eq, ?_⟩
          cases turn_of_step (n := 0) h.orderly eq with
          | absent none =>
              exact h.aside eq (.refl s) rfl rfl rfl (by simp) (by simp)
          | @counted _ _ a counted found tallied =>
              refine h.aside eq ⟨_, _, _, rfl⟩ rfl rfl rfl ?_ ?_
              · intro k b
                split <;> simp
              · intro v mem b
                have apart : v.done ≠ a.result := Ne.symm ((h.farewell v mem).1.apart g a found)
                split <;> simp [apart]
      | own k =>
          cases k with
          | forget slot' id =>
              obtain ⟨_, -, same, -⟩ := h.exported.called _ _ List.mem_cons_self rfl
              obtain ⟨rfl, -⟩ := Reaction.forget.inj same
              refine ⟨_, [], story.calls, _, rfl,
                h.inward rfl ⟨_, _, _, rfl⟩ ?_ ?_ h.exported.forget ?_⟩
              · rfl
              · rfl
              · exact h.stage.frame (.of_call [] (by simp [Reaction.done?]) rfl (by simp)) rfl
                  (fun v mem => (h.farewell v mem).1.lt) (by simp)
          | shutExporter slot' flushed done =>
              obtain ⟨v, asked, parting, called⟩ :=
                h.stage.of_called List.mem_cons_self (by simp [Reaction.done?])
              obtain ⟨rfl, rfl, rfl⟩ := Reaction.shutExporter.inj (called.resolve_right (by simp))
              by_cases due : slot' ∈ s.draining
              · exact h.leave asked due
              · have eq : s.step (.call (.own (v.next slot')) success) = (s, some []) := by
                  simp [State.step, due]
                have exported := h.exported.frame (.of_call [] (by simp [Reaction.done?]) rfl
                  (by simp)) h.exported.found rfl rfl
                exact ⟨_, _, story.calls, _, eq, h.inward eq (.refl s) rfl rfl exported
                  (.of_parting (parting.idle due) asked)⟩
          | conclude flushed done =>
              obtain ⟨v, asked, parting, called⟩ :=
                h.stage.of_called List.mem_cons_self (by simp [Reaction.done?])
              obtain ⟨last, -⟩ := called.resolve_left (by simp)
              obtain ⟨rfl, rfl⟩ := Reaction.conclude.inj last
              have exported (b : Bool) := h.exported.frame (.of_call [.resolve v.done b]
                (by simp [Reaction.done?]) rfl (by simp)) h.exported.found rfl rfl
              exact ⟨_, _, story.calls, _, rfl, h.inward rfl (.refl s) rfl rfl (exported _)
                (.of_parting parting.conclude asked)⟩

/-- **Callbacks of a simple processor at work do not panic**, and leave it at work. -/
theorem run (h : Serving slot e start story p s todo) :
    ∃ calls p', (s.run todo).2 = false ∧
      Serving slot e start { story with calls } p' (s.run todo).1 [] := by
  fun_induction State.run s todo generalizing story p with
  | case1 s => exact ⟨story.calls, p, rfl, h⟩
  | case2 s task tasks s' eq =>
      obtain ⟨s'', more, calls, p', goes, -⟩ := h.step
      cases eq.symm.trans goes
  | case3 s task tasks s' more eq ih =>
      obtain ⟨s'', more', calls, p', goes, h⟩ := h.step
      cases eq.symm.trans goes
      have ran := ih h
      exact ran

/-- **A completion is resolved by name**, with everything that sets off. -/
theorem resolve {name : String} (h : Serving slot e start story p s [])
    (named : (name, t) ∈ s.exports.deferred) (success : Bool) :
    ∃ calls p', (s.resolve t success).2 = false ∧
      Serving slot e start { story with calls } p' (s.resolve t success).1 [] := by
  have free := h.orderly.claims t (.named named)
  have done (v : Farewell) (mem : v ∈ story.farewell) := (h.farewell v mem).1.lt
  have spares (about : Reaction → Prop) : Spares about s [] s [.resolve t success] :=
    .of_store rfl (by simp)
  refine run { h with
    orderly := h.orderly.advance (n := 0) (.start rfl free)
    exported := h.exported.frame (spares _) h.exported.found rfl rfl
    stage := h.stage.frame (spares _) rfl done fun v mem b => ?_
    gathers := fun f mem => (h.gathers f mem).imp_right (·.start rfl free) }
  have apart : v.done ≠ t := Ne.symm (h.unnamed v mem _ named)
  simp [apart]

end Serving

end State

end ProfilePipeline.Processing
