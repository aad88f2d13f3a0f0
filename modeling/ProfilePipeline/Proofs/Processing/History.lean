import ProfilePipeline.Proofs.Processing.Operations

/-!
# What is done with a pipeline, and what is said of it

* `Transcript` — who was called, in which order, and how each call ended.
* `State.Happens` — everything that may be done with a pipeline from outside, at any time.
* `State.Reached` — the states that a pipeline can get into by that, from nothing at all.

**`State.Happens.leads`** — whatever happens goes in small steps, so all that they keep is kept.
-/

namespace ProfilePipeline.Processing

open Completion (Token Ledger Store)
open Export (Answer Exporter)

/-- **A transcript of calls.**  The state changes by the calls that are listed with what they gave,
in this order, and by what is allowed between them. -/
inductive Transcript {σ ι β : Type} (call : ι → σ → σ × β) (between : σ → σ → Prop) :
    σ → List (ι × β) → σ → Prop
  | done {s s' : σ} (rest : between s s') : Transcript call between s [] s'
  | call {s s₁ s' : σ} {i : ι} {calls : List (ι × β)} (before : between s s₁)
      (later : Transcript call between (call i s₁).1 calls s') :
      Transcript call between s ((i, (call i s₁).2) :: calls) s'

/-- What happens between calls may happen before the first one. -/
lemma Transcript.prepend {σ ι β : Type} {call : ι → σ → σ × β} {between : σ → σ → Prop}
    {s s₁ s' : σ} {calls : List (ι × β)}
    (trans : ∀ {a b c}, between a b → between b c → between a c)
    (before : between s s₁) (h : Transcript call between s₁ calls s') :
    Transcript call between s calls s' := by
  cases h with
  | done rest => exact .done (trans before rest)
  | call first later => exact .call (trans before first) later

/-- What happens between calls may happen after the last one. -/
lemma Transcript.append {σ ι β : Type} {call : ι → σ → σ × β} {between : σ → σ → Prop}
    {s s' s'' : σ} {calls : List (ι × β)}
    (trans : ∀ {a b c}, between a b → between b c → between a c)
    (h : Transcript call between s calls s') (after : between s' s'') :
    Transcript call between s calls s'' := by
  induction h with
  | done rest => exact .done (trans rest after)
  | call before _ ih => exact .call before (ih after)

/-- One more call is made. -/
lemma Transcript.concat {σ ι β : Type} {call : ι → σ → σ × β} {between : σ → σ → Prop}
    {s s₁ s' : σ} {calls : List (ι × β)} {i : ι} (h : Transcript call between s calls s₁)
    (after : between (call i s₁).1 s') :
    Transcript call between s (calls ++ [(i, (call i s₁).2)]) s' := by
  induction h with
  | done rest => exact .call rest (.done after)
  | call before _ ih => exact .call before (ih after)

namespace State

variable {s s' : State} {t : Token}

/-- **Something happens to a pipeline.** -/
inductive Happens : State → State → Prop
  /-- An exporter is called. -/
  | call (s : State) (e : Exporter) (c : Export.Call) : Happens s (s.callExporter e c).1
  /-- A record goes through a processor. -/
  | emit (s : State) (p : Processor) (span : SpanContext) (r : LiveRecord) :
      Happens s (p.onEmit span r s).1
  /-- A processor is flushed or shut down. -/
  | request (s : State) (p : Processor) (request : Request) : Happens s (p.perform request s).1
  /-- A completion is resolved by name. -/
  | resolve (s : State) {name : String} {t : Token} (named : (name, t) ∈ s.exports.deferred)
      (success : Bool) : Happens s (s.resolve t success).1
  /-- The workers of batch processors go on. -/
  | advance (s : State) : Happens s s.advanceBatches
  /-- The exports in flight take too long. -/
  | timeOut (s : State) : Happens s s.timeOutExports
  /-- Somebody makes a completion that has its outcome. -/
  | settle (s : State) (success : Bool) : Happens s (s.settle success).1
  /-- Somebody makes a completion that he resolves later. -/
  | postpone (s : State) (name : String) :
      Happens s { s with exports := (s.exports.postpone name).1 }
  /-- Somebody gathers completions. -/
  | gather (s : State) (ts : List Token) (there : ∀ t ∈ ts, t < s.size) :
      Happens s { s with exports := (s.exports.ofAll ts).1 }
  /-- Devices and processors are built or changed; what is new knows no completions. -/
  | build {s s' : State} (ledger : s'.exports.ledger = s.exports.ledger)
      (deferred : s'.exports.deferred = s.exports.deferred)
      (pending : ∀ t, s'.Pending t → s.Pending t)
      (promised : ∀ t, s'.Promised t → s.Promised t) : Happens s s'

/-- **One state comes after another.** -/
abbrev Later : State → State → Prop := Relation.ReflTransGen Happens

/-- **A pipeline can get into a state.** -/
abbrev Reached : State → Prop := Later {}

/-- **Whatever happens goes in small steps.** -/
theorem Happens.leads (h : s.Happens s') (orderly : s.Orderly []) : s.Leads 0 s' := by
  cases h with
  | call e c => exact leads_of_grows orderly (grows_callExporter orderly.bounded e c)
  | emit p span r => exact p.leads_onEmit span r orderly
  | request p request => exact (p.answered_perform request orderly).leads.mono (Nat.zero_le _)
  | resolve named success => exact leads_resolve orderly (orderly.claims _ (.named named)) success
  | advance => exact leads_advanceBatches orderly
  | timeOut => exact leads_timeOutExports orderly
  | settle success => exact (answered_settle orderly success).leads.mono (Nat.zero_le _)
  | postpone name =>
      have postponed := Export.State.answered_postpone orderly.bounded name
      exact leads_of_grows orderly (.of_exports postponed.grows rfl rfl rfl)
  | gather ts there =>
      have gathered := grows_ofAll (n := 0) orderly there fun t _ => .inr (Nat.zero_le _)
      exact leads_of_grows orderly gathered.1
  | build ledger deferred pending promised =>
      exact leads_of_grows orderly (.of_le ledger deferred pending promised)

theorem Later.leads (h : s.Later s') (orderly : s.Orderly []) : s.Leads 0 s' := by
  induction h with
  | refl => exact .refl orderly
  | tail _ happens ih => exact ih.trans (happens.leads ih.orderly)

/-- At first there is nothing. -/
lemma orderly_empty : Orderly {} [] := by
  have nobody (t : Token) : ({} : State).exports.ledger.store.waiting t = [] :=
    Store.waiting_of_size_le (Nat.zero_le t)
  refine ⟨⟨fun g a found => ?_, fun t g mem => ?_⟩, fun t pending => ?_, fun t claims => ?_,
    fun k success mem => absurd mem List.not_mem_nil⟩
  · simp at found
  · rw [nobody] at mem
    exact absurd mem List.not_mem_nil
  · obtain ⟨slot, p, id, found, -⟩ := pending
    simp at found
  · cases claims with
    | named mem => exact absurd mem List.not_mem_nil
    | promised promised =>
        obtain ⟨slot, p, mine, found, -⟩ := promised
        simp at found
    | waiting mem done =>
        rw [Ledger.mem_owners, nobody] at mem
        exact absurd mem List.not_mem_nil

/-- **Every state that a pipeline gets into is orderly.** -/
theorem Reached.orderly (h : s.Reached) : s.Orderly [] := (Later.leads h orderly_empty).orderly

end State

end ProfilePipeline.Processing
