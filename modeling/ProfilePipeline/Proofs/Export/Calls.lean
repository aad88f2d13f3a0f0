import ProfilePipeline.Proofs.Completion.Gathering
import ProfilePipeline.Export.Exporter

/-!
# What calls of exporters leave behind

Whatever an exporter is and does, a call of it only adds to the completions (`Exporter.answered`).
The one it returns is new, and nobody waits for it yet.  Those that it leaves to be resolved by name
are new as well and are no aggregate's result, so whoever resolves them later interferes with
nobody.

An exporter that does not panic when it is shut down (`Exporter.Calm`) stays so while it receives
batches.
-/

namespace ProfilePipeline.Export

open Completion (Token Ledger)

variable {κ : Type}

namespace State

variable {s s' s'' : State κ}

/-- **Calls have only added something**: completions, aggregates of new completions, and names for
new completions. -/
structure Grows (s s' : State κ) : Prop where
  ledger : s.ledger.Extends (fun _ => False) s'.ledger
  owners : ∀ t, s'.ledger.owners t = s.ledger.owners t
  deferred : ∀ named ∈ s'.deferred, named ∈ s.deferred ∨
    s.ledger.store.size ≤ named.2 ∧ s'.ledger.Free named.2

lemma Grows.of_eq (ledger : s'.ledger = s.ledger) (deferred : s'.deferred = s.deferred) :
    s.Grows s' where
  ledger := ledger ▸ .refl ..
  owners t := by rw [ledger]
  deferred _ mem := .inl (deferred ▸ mem)

lemma Grows.trans (h : s.Grows s') (h' : s'.Grows s'') : s.Grows s'' where
  ledger := h.ledger.trans h'.ledger
  owners t := (h'.owners t).trans (h.owners t)
  deferred d mem := by
    rcases h'.deferred d mem with mem | ⟨le, free⟩
    · rcases h.deferred d mem with mem | ⟨le, free⟩
      · exact .inl mem
      · exact .inr ⟨le, h'.ledger.free free⟩
    · exact .inr ⟨Nat.le_trans h.ledger.size le, free⟩

/-- A call has only added something, and what it returns is new. -/
structure Answered (s : State κ) (result : State κ × Answer) : Prop where
  grows : s.Grows result.1
  new : ∀ t, result.2 = .returned t → s.ledger.New result.1.ledger t

/-- What a call leaves in devices and traces does not matter. -/
lemma Answered.frame {answer : Answer} {s₀ : State κ} (h : s₀.Answered (s', answer))
    (ledger₀ : s₀.ledger = s.ledger) (deferred₀ : s₀.deferred = s.deferred)
    (ledger : s''.ledger = s'.ledger) (deferred : s''.deferred = s'.deferred) :
    s.Answered (s'', answer) where
  grows := (Grows.of_eq ledger₀ deferred₀).trans (h.grows.trans (.of_eq ledger deferred))
  new t returned := by
    have new := h.new t returned
    rwa [ledger₀, ← ledger] at new

lemma answered_panicked : s.Answered (s, .panicked) := ⟨.of_eq rfl rfl, by simp⟩

lemma answered_settle (success : Bool) : s.Answered (s.settle success) where
  grows := ⟨.settled success, Ledger.owners_settled success, fun _ mem => .inl mem⟩
  new := by
    rintro t ⟨⟩
    exact Ledger.new_settled success

lemma answered_postpone (bounded : s.ledger.Bounded) (name : String) :
    s.Answered (s.postpone name) where
  grows := by
    refine ⟨.fresh, Ledger.owners_fresh, fun named mem => ?_⟩
    rcases List.mem_append.mp mem with mem | mem
    · exact .inl mem
    · obtain rfl := List.mem_singleton.mp mem
      exact .inr ⟨Nat.le_refl _, Ledger.free_fresh bounded⟩
  new := by
    rintro t ⟨⟩
    exact Ledger.new_fresh

/-- Catching a panic makes one more completion. -/
lemma contain_answered {answer : Answer} (h : s.Answered (s', answer)) :
    s.Grows (s'.contain answer).1 ∧
      s.ledger.New (s'.contain answer).1.ledger (s'.contain answer).2 := by
  cases answer with
  | returned t => exact ⟨h.grows, h.new t rfl⟩
  | panicked =>
      have settled := s'.answered_settle false
      exact ⟨h.grows.trans settled.grows, (settled.new _ rfl).mono h.grows.ledger.size⟩

lemma answered_enact (bounded : s.ledger.Bounded) (script : Script) (op : Operation)
    (what : Happening) : s.Answered ((s.enact script op what).1, (s.enact script op what).2.2) := by
  simp only [enact]
  cases (script.track op).outcome with
  | ok => exact (answered_settle true).frame rfl rfl rfl rfl
  | fail => exact (answered_settle false).frame rfl rfl rfl rfl
  | panic => exact answered_panicked.frame rfl rfl rfl rfl
  | defer =>
      have postponed := answered_postpone (s := s.note script.name what) bounded
      exact (postponed _).frame rfl rfl rfl rfl

/-- Writing only leaves a trace. -/
lemma write_eq (consumer : Option String) (lines : List String) :
    ∃ events, s.write consumer lines = { s with events } := by
  cases consumer with
  | none => exact ⟨s.events, rfl⟩
  | some name =>
      simp only [write]
      induction lines generalizing s with
      | nil => exact ⟨s.events, rfl⟩
      | cons text lines ih => exact ih (s := s.note name (.line text))

lemma answered_send (transport : Script) (submission : Otlp.Submission) :
    s.Answered ((s.send transport submission).1, (s.send transport submission).2.2) := by
  simp only [send]
  cases (transport.track .send).outcome with
  | fail => exact (answered_settle false).frame rfl rfl rfl rfl
  | panic => exact answered_panicked.frame rfl rfl rfl rfl
  | ok | defer => exact (answered_settle true).frame rfl rfl rfl rfl

lemma answered_hangUp (transport : Script) :
    s.Answered ((s.hangUp transport).1, (s.hangUp transport).2.2) := by
  simp only [hangUp]
  cases (transport.track .shutdown).outcome with
  | panic => exact answered_panicked.frame rfl rfl rfl rfl
  | ok | fail | defer => exact (answered_settle true).frame rfl rfl rfl rfl

/-- **A call of a device** only adds something. -/
lemma answered_call (bounded : s.ledger.Bounded) (slot : Nat) (c : Call) :
    s.Answered (s.call slot c) := by
  have settled (success : Bool) {s₀ : State κ} (ledger : s₀.ledger = s.ledger)
      (deferred : s₀.deferred = s.deferred) : s.Answered (s₀.settle success) :=
    (answered_settle success).frame ledger deferred rfl rfl
  rw [call]
  split
  · exact settled false rfl rfl
  · cases c with
    | accept records => exact settled _ rfl rfl
    | flush | shutdown => exact settled true rfl rfl
  · rename_i e consumer _
    cases c with
    | accept records =>
        dsimp only
        cases e.accept? records with
        | none => exact settled false rfl rfl
        | some lines =>
            obtain ⟨events, written⟩ := s.write_eq consumer lines
            exact settled true (by rw [written]) (by rw [written])
    | flush | shutdown => exact settled true rfl rfl
  · rename_i e transport idle _
    cases c with
    | accept records =>
        dsimp only
        cases e.submission? records with
        | none => exact settled false rfl rfl
        | some submission => exact (answered_send transport submission).frame rfl rfl rfl rfl
    | flush => exact settled true rfl rfl
    | shutdown =>
        dsimp only
        split
        · exact settled true rfl rfl
        · split
          · exact settled true rfl rfl
          · exact (answered_hangUp transport).frame rfl rfl rfl rfl
  · exact (answered_enact bounded ..).frame rfl rfl rfl rfl

/-- A list of completions is gathered that nobody knows. -/
lemma grows_ofAll {tokens : List Token} (h : s.Grows s')
    (new : ∀ t ∈ tokens, s.ledger.New s'.ledger t) :
    s.Grows (s'.ofAll tokens).1 ∧
      s.ledger.New (s'.ofAll tokens).1.ledger (s'.ofAll tokens).2 := by
  obtain ⟨extension, made⟩ := s'.ledger.extends_ofAll (P := (· ∈ tokens)) (fun _ mem => mem)
    fun t mem => (new t mem).lt
  refine ⟨⟨h.ledger.trans_of extension ?_, fun t => ?_, fun named mem => ?_⟩,
    made.mono h.ledger.size⟩
  · exact fun t lt mem => absurd lt (Nat.not_lt.mpr (new t mem).le)
  · exact (Ledger.owners_ofAll (fun t mem => (new t mem).lt) t).trans (h.owners t)
  · exact (h.deferred named mem).imp_right fun ⟨le, free⟩ => ⟨le, extension.free free⟩

end State

namespace Exporter

variable {s : State κ}

mutual

/-- **A call of an exporter only adds something**, whatever the exporter is and does. -/
theorem answered_perform (c : Call) : ∀ (e : Exporter) {s : State κ}, s.ledger.Bounded →
    s.Answered (e.perform c s)
  | discard, s, _ => s.answered_settle true
  | device slot, s, bounded => s.answered_call bounded slot c
  | fanOut _ children, s, bounded => by
      obtain ⟨grows, new⟩ := grows_performEach c children bounded
      obtain ⟨grows, made⟩ := State.grows_ofAll grows new
      refine ⟨grows, ?_⟩
      rintro t ⟨⟩
      exact made

/-- So does the same call of each of a list. -/
theorem grows_performEach (c : Call) : ∀ (es : List Exporter) {s : State κ}, s.ledger.Bounded →
    s.Grows (performEach c es s).1 ∧
      ∀ t ∈ (performEach c es s).2, s.ledger.New (performEach c es s).1.ledger t
  | [], s, _ => ⟨.of_eq rfl rfl, by simp [performEach]⟩
  | e :: es, s, bounded => by
      have answered := answered_perform c e bounded
      obtain ⟨grows, made⟩ := State.contain_answered answered
      obtain ⟨more, new⟩ := grows_performEach c es (grows.ledger.bounded bounded)
      refine ⟨grows.trans more, fun t mem => ?_⟩
      rcases List.mem_cons.mp mem with rfl | mem
      · exact made.stays more.ledger not_false
      · exact (new t mem).mono grows.ledger.size

end

end Exporter

/-! ## Exporters that panic when they are shut down -/

/-- A device panics when it is shut down. -/
def Device.isBrittle : Device → Bool
  | .scripted script => (script.track .shutdown).outcome == .panic
  | .otlp e transport idle =>
    !e.isShutdown && !idle && (transport.track .shutdown).outcome == .panic
  | .memory _ | .lines _ _ => false

/-- An exporter does not panic when it is shut down. -/
def Exporter.Calm (e : Exporter) (s : State κ) : Prop := (e.perform .shutdown s).2 ≠ .panicked

namespace State

variable {s s' : State κ}

/-- Shutting a device down panics exactly if the device does. -/
lemma call_shutdown_eq_panicked_iff {slot : Nat} : (s.call slot .shutdown).2 = .panicked ↔
    (s.devices[slot]?).any Device.isBrittle = true := by
  rw [call]
  cases s.devices[slot]? with
  | none => simp [settle]
  | some d =>
      cases d with
      | memory e => simp [settle, Device.isBrittle]
      | lines e consumer => simp [settle, Device.isBrittle]
      | otlp e transport idle =>
          cases shut : e.isShutdown <;> cases idle <;>
            cases ends : (transport.track .shutdown).outcome <;>
              simp [settle, hangUp, Device.isBrittle, shut, ends]
      | scripted script =>
          have ends : script.track Call.shutdown.operation = script.track .shutdown := rfl
          cases outcome : (script.track .shutdown).outcome <;>
            simp [settle, postpone, enact, Device.isBrittle, ends, outcome]

lemma devices_enact (script : Script) (op : Operation) (what : Happening) :
    (s.enact script op what).1.devices = s.devices := by
  rw [enact]
  cases (script.track op).outcome <;> rfl

lemma devices_send (transport : Script) (submission : Otlp.Submission) :
    (s.send transport submission).1.devices = s.devices := by
  rw [send]
  cases (transport.track .send).outcome <;> rfl

/-- A batch leaves a device as brittle as it was. -/
lemma isBrittle_call_accept (slot : Nat) (records : List Record) :
    ((s.call slot (.accept records)).1.devices[slot]?).any Device.isBrittle =
      (s.devices[slot]?).any Device.isBrittle := by
  have put {s' : State κ} (d : Device) (same : s'.devices = s.devices)
      (lt : slot < s.devices.size) : (s'.put slot d).devices[slot]? = some d := by
    simp [State.put, same, lt]
  rw [call]
  cases found : s.devices[slot]? with
  | none => simp [settle, found]
  | some d =>
      have lt := (Array.getElem?_eq_some_iff.mp found).1
      cases d with
      | memory e => simp [settle, put _ rfl lt, Device.isBrittle]
      | lines e consumer =>
          dsimp only
          cases e.accept? records with
          | none => simp [settle, found]
          | some lines =>
              obtain ⟨events, written⟩ := s.write_eq consumer lines
              simp [written, settle, found]
      | otlp e transport idle =>
          dsimp only
          cases e.submission? records with
          | none => simp [settle, found]
          | some submission =>
              simp only [put _ (devices_send ..) lt, Option.any_some]
              rfl
      | scripted script =>
          simp only [put _ (devices_enact ..) lt, Option.any_some]
          rfl

end State

namespace Exporter

variable {s s' : State κ} {e : Exporter}

/-- Only devices can be brittle. -/
lemma Calm.of_devices (h : e.Calm s) (same : s'.devices = s.devices) : e.Calm s' := by
  cases e with
  | discard | fanOut => simp [Calm, perform, State.settle]
  | device slot =>
      rw [Calm, perform, ne_eq, State.call_shutdown_eq_panicked_iff] at h ⊢
      rwa [same]

/-- A batch does not make an exporter panic when it is shut down later. -/
lemma Calm.accept (h : e.Calm s) (records : List Record) :
    e.Calm (e.perform (.accept records) s).1 := by
  cases e with
  | discard | fanOut => simp [Calm, perform, State.settle]
  | device slot =>
      rw [Calm, perform, ne_eq, State.call_shutdown_eq_panicked_iff] at h ⊢
      rwa [perform, State.isBrittle_call_accept]

end Exporter

end ProfilePipeline.Export
