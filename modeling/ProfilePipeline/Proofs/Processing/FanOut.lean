import Mathlib.Data.List.Forall2
import ProfilePipeline.Proofs.Processing.History
import ProfilePipeline.Proofs.Processing.Watch

/-!
# Fan-outs isolate their delegates

Whatever its delegates do, a fan-out calls each of them once, in order and with the same arguments,
and does not panic.  The completion it returns stands as those of the delegates do, where a panic
counts as a failure (`State.Visits`).  A fan-out may be a delegate itself: what happens between the
calls of a transcript may happen anyway (`State.Makes`), so each call finds a state that can be
reached, and all of this holds of it too.

* `State.Sums` — a completion stands as the answers of delegates do.
* `Isolates`, `IsolatesEmit` — what a fan-out does with its delegates, and that the composite of the
  same delegates does it too as long as none panics.
* **`fanOut_isolates`** — all fan-outs do, of exporters and of processors.
-/

namespace ProfilePipeline.Processing

open Completion (Token Ledger)
open Export (Answer Exporter)

namespace State

variable {ι : Type} {s s' s'' : State} {t r : Token} {d : ι} {calls : List (ι × Answer)}
  {answers : List Answer} {ts : List Token} {call : ι → State → State × Answer}

/-! ## Answers of delegates -/

/-- Completions are made, as anybody may, and nothing else happens. -/
def Makes (s s' : State) : Prop := s.Later s' ∧ ∃ ledger, s' = s.withLedger ledger

/-- **A completion stands as the answers of delegates do**: it is resolved exactly if all
completions are that they returned, and a success exactly if nobody panicked and all are
successes. -/
structure Sums (s : State) (t : Token) (answers : List Answer) : Prop where
  resolved : s.outcome? t ≠ none ↔ ∀ u, .returned u ∈ answers → s.outcome? u ≠ none
  success : s.outcome? t = some true ↔
    .panicked ∉ answers ∧ ∀ u, .returned u ∈ answers → s.outcome? u = some true

/-- **An operation is a sequence of calls of delegates.**  At any later time the completion it
returns stands as their answers do. -/
structure Visits (call : ι → State → State × Answer) (s : State) (calls : List (ι × Answer))
    (result : State × Answer) : Prop where
  transcript : Transcript call Makes s calls result.1
  returned : ∃ t, result.2 = .returned t ∧
    ∀ later, result.1.Later later → later.Sums t (calls.map Prod.snd)

lemma Makes.refl (s : State) : s.Makes s := ⟨.refl, s.exports.ledger, rfl⟩

lemma Makes.trans (h : s.Makes s') (h' : s'.Makes s'') : s.Makes s'' := by
  obtain ⟨later, ledger, rfl⟩ := h
  obtain ⟨later', ledger', rfl⟩ := h'
  exact ⟨later.trans later', ledger', rfl⟩

/-- The completions that answers stand for where panics are caught. -/
abbrev Caught (s : State) : List Answer → List Token → Prop :=
  List.Forall₂ fun answer t => answer = .returned t ∨ answer = .panicked ∧ s.outcome? t = some false

lemma Caught.later (h : s.Caught answers ts) (orderly : s.Orderly []) (later : s.Later s') :
    s'.Caught answers ts :=
  h.imp fun _ _ caught => caught.imp_right fun ⟨panicked, failed⟩ =>
    ⟨panicked, (later.leads orderly).outcome? orderly failed⟩

/-- What stands as those completions do stands as the answers do. -/
lemma Caught.sums (h : s.Caught answers ts) (sums : s.exports.ledger.Sums t ts) :
    s.Sums t answers where
  resolved := by
    refine sums.resolved.trans ?_
    clear sums
    induction h with
    | nil => simp
    | cons caught _ ih =>
        rw [List.forall_mem_cons, ih]
        rcases caught with rfl | ⟨rfl, failed⟩
        · simp [State.outcome?]
        · have failed : s.exports.ledger.outcome? _ = some false := failed
          simp [failed]
  success := by
    refine sums.success.trans ?_
    clear sums
    induction h with
    | nil => simp
    | cons caught _ ih =>
        rw [List.forall_mem_cons, ih]
        rcases caught with rfl | ⟨rfl, failed⟩
        · simp [State.outcome?, and_left_comm]
        · have failed : s.exports.ledger.outcome? _ = some false := failed
          simp [failed]

/-! ## Sweeps -/

/-- The delegates are called one after the other, and panics are caught. -/
def visited (call : ι → State → State × Answer) : List ι → State → List (ι × Answer)
  | [], _ => []
  | d :: ds, s =>
    (d, (call d s).2) :: visited call ds
      { (call d s).1 with exports := ((call d s).1.exports.contain (call d s).2).1 }

/-- What has become of a pipeline after that, with the completions that the answers stand for. -/
structure Sweep (call : ι → State → State × Answer) (s : State) (calls : List (ι × Answer))
    (ts : List Token) (s' : State) : Prop where
  transcript : Transcript call Makes s calls s'
  later : s.Later s'
  leads : s.Leads s.size s'
  new : ∀ t ∈ ts, s.size ≤ t ∧ s'.Untouched t
  nodup : ts.Nodup
  caught : s'.Caught (calls.map Prod.snd) ts

lemma Sweep.nil (orderly : s.Orderly []) : Sweep call s [] [] s where
  transcript := .done (.refl s)
  later := .refl
  leads := .refl orderly
  new := by simp
  nodup := .nil
  caught := .nil

/-- Catching a panic makes at most one completion. -/
lemma makes_contain (s : State) (answer : Answer) :
    s.Makes { s with exports := (s.exports.contain answer).1 } := by
  cases answer with
  | returned t => exact .refl s
  | panicked => exact ⟨.single (.settle s false), _, rfl⟩

lemma Sweep.cons (orderly : s.Orderly []) (answered : s.Answered (call d s))
    (happens : s.Happens (call d s).1)
    (rest : Sweep call { (call d s).1 with
      exports := ((call d s).1.exports.contain (call d s).2).1 } calls ts s') :
    Sweep call s ((d, (call d s).2) :: calls)
      (((call d s).1.exports.contain (call d s).2).2 :: ts) s' := by
  obtain ⟨leads, le, untouched⟩ := contain_answered orderly answered
  have makes := makes_contain (call d s).1 (call d s).2
  have size := leads.size_le orderly
  refine ⟨.call (.refl s) (rest.transcript.prepend Makes.trans makes),
    (Relation.ReflTransGen.single happens).trans (makes.1.trans rest.later),
    leads.trans (rest.leads.mono size), ?_, ?_, ?_⟩
  · refine List.forall_mem_cons.mpr ⟨⟨le, ?_⟩, fun t mem => ?_⟩
    · exact rest.leads.untouched leads.orderly untouched untouched.lt
    · exact (rest.new t mem).imp_left (Nat.le_trans size)
  · refine List.nodup_cons.mpr ⟨fun mem => ?_, rest.nodup⟩
    exact Nat.not_le.mpr untouched.lt (rest.new _ mem).1
  · refine .cons ?_ rest.caught
    cases answer : (call d s).2 with
    | returned u => exact .inl rfl
    | panicked =>
        rw [answer] at rest leads
        refine .inr ⟨rfl, rest.leads.outcome? leads.orderly ?_⟩
        exact (Completion.Store.outcome?_settled ..).trans (if_pos rfl)

/-- **Gathering what delegates returned** makes one operation of their calls. -/
lemma Sweep.gather (sweep : Sweep call s calls ts s') :
    Visits call s calls
      ({ s' with exports := (s'.exports.ofAll ts).1 }, .returned (s'.exports.ofAll ts).2) := by
  have orderly := sweep.leads.orderly
  have there : ∀ t ∈ ts, t < s'.size := fun t mem => (sweep.new t mem).2.lt
  have gather : s'.Later { s' with exports := (s'.exports.ofAll ts).1 } :=
    .single (.gather s' ts there)
  refine ⟨sweep.transcript.append Makes.trans ⟨gather, _, rfl⟩, _, rfl, fun later after => ?_⟩
  have gathered := gather.leads orderly
  have leads := after.leads gathered.orderly
  refine (sweep.caught.later orderly (gather.trans after)).sums (Ledger.sums_of_verdict? ?_)
  by_cases none : ts = []
  · subst none
    refine leads.outcome? gathered.orderly ?_
    exact (Completion.Store.outcome?_settled ..).trans (if_pos rfl)
  · have watched := watched_ofAll orderly (fun t mem => (sweep.new t mem).2) sweep.nodup none
    exact (leads.watched gathered.orderly watched).exact

/-- A delegate that stands for itself is an operation of its own. -/
lemma visits_single (returns : (call d s).2 ≠ .panicked) :
    Visits call s [(d, (call d s).2)] (call d s) where
  transcript := .call (.refl s) (.done (.refl _))
  returned := by
    cases answer : (call d s).2 with
    | panicked => exact absurd answer returns
    | returned t => exact ⟨t, rfl, fun later _ => ⟨by simp, by simp⟩⟩

end State

open State

/-! ## Fan-outs -/

variable {s : State}

/-- **A fan-out of `ds` isolates them**, and their composite does what the fan-out does, as long as
none of them panics. -/
def Isolates {ι : Type} (call : ι → State → State × Answer) (fanOut composite : ι) (ds : List ι)
    (s : State) : Prop :=
  ∃ calls, calls.map Prod.fst = ds ∧ Visits call s calls (call fanOut s) ∧
    (.panicked ∉ calls.map Prod.snd → Visits call s calls (call composite s))

/-- A record goes through a processor; in the answer, whether that panicked. -/
def emitting (span : SpanContext) (p : Processor) :
    State × LiveRecord → (State × LiveRecord) × Bool
  | (s, r) => (((p.onEmit span r s).1, (p.onEmit span r s).2.1), (p.onEmit span r s).2.2)

/-- **So does a fan-out that a record goes through.**  Nothing happens between the calls, and no
completion is returned. -/
def IsolatesEmit (span : SpanContext) (fanOut composite : Processor) (ps : List Processor)
    (s : State) (r : LiveRecord) : Prop :=
  ∃ calls s' r', calls.map Prod.fst = ps ∧
    Transcript (emitting span) Eq (s, r) calls (s', r') ∧
    fanOut.onEmit span r s = (s', r', false) ∧
    (true ∉ calls.map Prod.snd → composite.onEmit span r s = (s', r', false))

lemma fst_visited {ι : Type} (call : ι → State → State × Answer) (ds : List ι) (s : State) :
    (visited call ds s).map Prod.fst = ds := by
  induction ds generalizing s with
  | nil => rfl
  | cons d ds ih => rw [visited, List.map_cons, ih]

/-- The exporters of a list are called. -/
lemma sweep_exporters (c : Export.Call) (es : List Exporter) (orderly : s.Orderly []) :
    Sweep (fun e s => s.callExporter e c) s (visited (fun e s => s.callExporter e c) es s)
      (Exporter.performEach c es s.exports).2
      { s with exports := (Exporter.performEach c es s.exports).1 } := by
  induction es generalizing s with
  | nil => exact .nil orderly
  | cons e es ih =>
      have answered := answered_callExporter orderly e c
      exact .cons orderly answered (.call s e c) (ih (contain_answered orderly answered).1.orderly)

/-- The processors of a list are asked. -/
lemma sweep_processors (request : Request) (ps : List Processor) (orderly : s.Orderly []) :
    Sweep (fun p s => p.perform request s) s (visited (fun p s => p.perform request s) ps s)
      (Processor.performEach request ps s).2 (Processor.performEach request ps s).1 := by
  induction ps generalizing s with
  | nil => exact .nil orderly
  | cons p ps ih =>
      have answered := p.answered_perform request orderly
      exact .cons orderly answered (.request s p request)
        (ih (contain_answered orderly answered).1.orderly)

/-- A record goes through each processor of a list. -/
lemma transcript_onEmitEach (span : SpanContext) (ps : List Processor) (s : State)
    (r : LiveRecord) : ∃ calls, calls.map Prod.fst = ps ∧
      Transcript (emitting span) Eq (s, r) calls (Processor.onEmitEach span ps r s) := by
  induction ps generalizing s r with
  | nil => exact ⟨[], rfl, .done rfl⟩
  | cons p ps ih =>
      obtain ⟨calls, rfl, later⟩ := ih (p.onEmit span r s).1 (p.onEmit span r s).2.1
      exact ⟨_ :: calls, rfl, .call rfl later⟩

lemma isolates_exporters (orderly : s.Orderly []) (number : Nat) (c : Export.Call)
    (es : List Exporter) : Isolates (fun e s => s.callExporter e c) (.fanOut number es)
      (.composite number es) es s := by
  have fanOut := (sweep_exporters c es orderly).gather
  refine ⟨_, fst_visited .., fanOut, fun returns => ?_⟩
  match es with
  | [] => exact fanOut
  | [e] => exact visits_single fun panicked => returns (by simp [visited, panicked])
  | _ :: _ :: _ => exact fanOut

lemma isolates_processors (orderly : s.Orderly []) (number : Nat) (request : Request)
    (ps : List Processor) : Isolates (fun p s => p.perform request s) (.fanOut number ps)
      (.composite number ps) ps s := by
  have fanOut := (sweep_processors request ps orderly).gather
  refine ⟨_, fst_visited .., fanOut, fun returns => ?_⟩
  match ps with
  | [] => exact fanOut
  | [p] => exact visits_single fun panicked => returns (by simp [visited, panicked])
  | _ :: _ :: _ => exact fanOut

lemma isolatesEmit_processors (number : Nat) (span : SpanContext) (ps : List Processor)
    (r : LiveRecord) (s : State) :
    IsolatesEmit span (.fanOut number ps) (.composite number ps) ps s r := by
  obtain ⟨calls, rfl, transcript⟩ := transcript_onEmitEach span ps s r
  refine ⟨calls, _, _, rfl, transcript, rfl, fun returns => ?_⟩
  match calls with
  | [] => rfl
  | [(p, panicked)] =>
      have called : panicked = (p.onEmit span r s).2.2 := by
        cases transcript with
        | call before =>
            subst before
            rfl
      have returned : (p.onEmit span r s).2.2 = false := by
        rw [← called]
        simpa using returns
      exact Prod.ext rfl (Prod.ext rfl returned)
  | _ :: _ :: _ => rfl

/-- **Fan-outs isolate their delegates**, those of exporters and those of processors, in every state
that a pipeline can get into. -/
theorem fanOut_isolates (reached : s.Reached) (number : Nat) :
    (∀ (c : Export.Call) (es : List Exporter), Isolates (fun e s => s.callExporter e c)
      (.fanOut number es) (.composite number es) es s) ∧
    (∀ (request : Request) (ps : List Processor), Isolates
      (fun (p : Processor) s => p.perform request s) (.fanOut number ps) (.composite number ps)
      ps s) ∧
    ∀ (span : SpanContext) (ps : List Processor) (r : LiveRecord),
      IsolatesEmit span (.fanOut number ps) (.composite number ps) ps s r :=
  ⟨isolates_exporters reached.orderly number, isolates_processors reached.orderly number,
    fun span ps r => isolatesEmit_processors number span ps r s⟩

/-- One delegate panics when it is flushed, one fails, and one leaves its completion to be resolved
later. -/
def unlikeDelegates : State :=
  { exports := { devices := #[
      .scripted { name := "panicking", flush := { outcomes := [.panic] } },
      .scripted { name := "failing", flush := { outcomes := [.fail] } },
      .scripted { name := "deferring", flush := { outcomes := [.defer] } }] } }

theorem fanOut_isolates_unlike : unlikeDelegates.Reached ∧
    Isolates (fun e s => s.callExporter e .flush)
      (.fanOut 1 [.device 0, .fanOut 0 [.device 1, .device 2]])
      (.composite 1 [.device 0, .fanOut 0 [.device 1, .device 2]])
      [.device 0, .fanOut 0 [.device 1, .device 2]] unlikeDelegates := by
  have reached : unlikeDelegates.Reached := by
    refine .single (.build rfl rfl (fun t => ?_) fun t => ?_)
    · rintro ⟨slot, p, id, found, -⟩
      simp [unlikeDelegates] at found
    · rintro ⟨slot, p, mine, found, -⟩
      simp [unlikeDelegates] at found
  exact ⟨reached, (fanOut_isolates reached 1).1 .flush _⟩

end ProfilePipeline.Processing
