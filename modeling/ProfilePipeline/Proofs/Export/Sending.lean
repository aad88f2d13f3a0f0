import Mathlib.Tactic.Common
import ProfilePipeline.Proofs.Export.Calls
import ProfilePipeline.Proofs.Otlp.Framing

/-!
# What an exporter of requests sends

Whatever is asked of an exporter of requests, one thing after the other, it sends one request for
each batch that it gets before it is shut down, and none after that.  It shuts its transport down
once.

**One call.**  `State.Deals` is what one call does: what becomes of the exporter, what it asks of
its transport, and how the call ends.

**Runs.**  `State.Dealt` is the same for a sequence of calls, where the end of each call depends on
the calls before it; `State.Dealt.cons` puts a call in front.

**Requests.**  `State.callEach_sends` is the main result.
-/

namespace ProfilePipeline.Export

open Completion (Token Ledger Store)
open Otlp (OtlpExporter Protocol Submission request splitFrames?)
open Wire (Bytes Message)

variable {κ : Type}

/-! ## Calls and how they end -/

/-- Whether a call shuts down. -/
def Call.isShutdown : Call → Bool
  | shutdown => true
  | accept _ | flush => false

/-- The batches that come before the first shutdown. -/
def served : List Call → List (List Record)
  | [] => []
  | .accept records :: calls => records :: served calls
  | .flush :: calls => served calls
  | .shutdown :: _ => []

/-- How a transport ends that takes a request: it has nothing to leave for later. -/
def Outcome.sent : Outcome → Outcome
  | ok | defer => ok
  | fail => fail
  | panic => panic

/-- **How a call ends** after the calls `before`, if the transport is in service at first.  An idle
one does nothing when it is shut down. -/
def Call.ending (transport : Script) (idle : Bool) (before : List Call) : Call → Outcome
  | accept _ =>
    if before.any isShutdown then .fail
    else (transport.send.outcomes.getD (served before).length .ok).sent
  | flush => .ok
  | shutdown =>
    if before.any isShutdown || idle then .ok
    else if transport.shutdown.outcome = .panic then .panic else .ok

namespace State

/-- How a call has ended, as far as it has. -/
def ending (s : State κ) : Answer → Outcome
  | .returned t =>
    match s.ledger.outcome? t with
    | some true => .ok
    | some false => .fail
    | none => .defer
  | .panicked => .panic

/-- Calls of the device in a slot, one after the other, with what each of them answers. -/
def callEach (s : State κ) (slot : Nat) : List Call → State κ × List Answer
  | [] => (s, [])
  | c :: calls =>
    let (s, answer) := s.call slot c
    let (s, answers) := s.callEach slot calls
    (s, answer :: answers)

variable {s s' : State κ} {slot : Nat}

lemma ending_settle (success : Bool) :
    (s.settle success).1.ending (s.settle success).2 = if success then .ok else .fail := by
  have outcome := Store.outcome?_settled s.ledger.store success s.ledger.store.size
  rw [if_pos rfl] at outcome
  show (match (s.ledger.store.settled success).1.outcome? s.ledger.store.size with
    | some true => Outcome.ok
    | some false => .fail
    | none => .defer) = _
  rw [outcome]
  cases success <;> rfl

/-- What has ended has ended for good. -/
lemma Grows.ending_eq (h : s.Grows s') {a : Answer} (done : s.ending a ≠ .defer) :
    s'.ending a = s.ending a := by
  cases a with
  | panicked => rfl
  | returned t =>
      have lt : t < s.ledger.store.size := by
        refine Nat.lt_of_not_le fun le => done ?_
        rw [ending, Ledger.outcome?, Store.outcome?_of_size_le le]
      rw [ending, ending, h.ledger.outcome? t lt]

/-! ## One call -/

/-- What a call of the device in a slot does: what becomes of the device, what happens outside, and
how the call ends. -/
structure Deals (s : State κ) (slot : Nat) (after : Device) (happened : List Event)
    (ending : Outcome) (result : State κ × Answer) : Prop where
  answered : s.Answered result
  device : result.1.devices[slot]? = some after
  events : result.1.events.toList = s.events.toList ++ happened
  ending : result.1.ending result.2 = ending

section OneCall

variable {p : Protocol} {transport : Script} {idle : Bool} {device : Device}

/-- A call that at most changes the device and returns a completion with an outcome. -/
lemma deals_settle (ledger : s'.ledger = s.ledger) (deferred : s'.deferred = s.deferred)
    (events : s'.events = s.events) (found : s'.devices[slot]? = some device) (success : Bool) :
    s.Deals slot device [] (if success then .ok else .fail) (s'.settle success) where
  answered := (answered_settle success).frame ledger deferred rfl rfl
  device := found
  events := by
    rw [List.append_nil, ← events]
    rfl
  ending := ending_settle success

lemma devices_hangUp (transport : Script) : (s.hangUp transport).1.devices = s.devices := by
  rw [hangUp]
  cases (transport.track .shutdown).outcome <;> rfl

lemma devices_put (found : s.devices[slot]? = some device) (same : s'.devices = s.devices)
    (after : Device) : (s'.put slot after).devices[slot]? = some after := by
  have lt := (Array.getElem?_eq_some_iff.mp found).1
  simp [State.put, same, lt]

/-- Once it is shut down an exporter fails to export, and has nothing else to do. -/
lemma deals_down (found : s.devices[slot]? = some (.otlp ⟨p, true⟩ transport idle)) (c : Call) :
    s.Deals slot (.otlp ⟨p, true⟩ transport idle) [] (c.ending transport idle [.shutdown])
      (s.call slot c) := by
  rw [call, found]
  cases c with
  | accept records => exact deals_settle rfl rfl rfl found false
  | flush => exact deals_settle rfl rfl rfl found true
  | shutdown => exact deals_settle rfl rfl rfl found true

lemma deals_flush (e : OtlpExporter) (found : s.devices[slot]? = some (.otlp e transport idle)) :
    s.Deals slot (.otlp e transport idle) [] .ok (s.call slot .flush) := by
  rw [call, found]
  exact deals_settle rfl rfl rfl found true

/-- **A batch is sent once.** -/
lemma deals_accept (found : s.devices[slot]? = some (.otlp ⟨p, false⟩ transport idle))
    {records : List Record} (fits : (Message.encode (request records)).length < 2 ^ 32) :
    s.Deals slot (.otlp ⟨p, false⟩ (transport.next .send) idle)
      [⟨transport.name, .send (p.submission records)⟩] transport.send.outcome.sent
      (s.call slot (.accept records)) := by
  have submission := OtlpExporter.submission?_eq p fits
  rw [call, found]
  simp only [submission]
  refine ⟨(answered_send transport _).frame rfl rfl rfl rfl,
    devices_put found (devices_send transport _) _, ?_, ?_⟩
  · simp only [send]
    cases (transport.track .send).outcome <;> exact Array.toList_push
  · show (State.put _ _ _).ending _ = (transport.track .send).outcome.sent
    simp only [send]
    cases (transport.track .send).outcome with
    | ok | defer => exact ending_settle true
    | fail => exact ending_settle false
    | panic => rfl

/-- **The transport is shut down with the exporter.** -/
lemma deals_shutdown (found : s.devices[slot]? = some (.otlp ⟨p, false⟩ transport idle)) :
    ∃ transport', s.Deals slot (.otlp ⟨p, true⟩ transport' idle)
      (if idle then [] else [⟨transport.name, .shutdown⟩])
      (Call.ending transport idle [] .shutdown) (s.call slot .shutdown) := by
  rw [call, found]
  cases idle with
  | true =>
      refine ⟨transport, deals_settle ?_ ?_ ?_ (devices_put found rfl _) true⟩
      all_goals rfl
  | false =>
      refine ⟨transport.next .shutdown, (answered_hangUp transport).frame rfl rfl rfl rfl,
        devices_put found (devices_hangUp transport) _, ?_, ?_⟩
      · simp only [hangUp]
        cases (transport.track .shutdown).outcome <;> exact Array.toList_push
      · show (State.put _ _ _).ending _ =
          if (transport.track .shutdown).outcome = .panic then .panic else .ok
        simp only [hangUp]
        cases (transport.track .shutdown).outcome with
        | ok | fail | defer => exact ending_settle true
        | panic => rfl

end OneCall

/-! ## Runs -/

/-- What calls of the device in a slot do, one after the other: what happens outside, and how each
of them ends, by the calls before it. -/
structure Dealt (s : State κ) (slot : Nat) (happened : List Event)
    (ending : List Call → Call → Outcome) (calls : List Call) : Prop where
  grows : s.Grows (s.callEach slot calls).1
  events : (s.callEach slot calls).1.events.toList = s.events.toList ++ happened
  endings : ∀ i c, calls[i]? = some c → ∃ a, (s.callEach slot calls).2[i]? = some a ∧
    (s.callEach slot calls).1.ending a = ending (calls.take i) c

lemma dealt_nil (ending : List Call → Call → Outcome) : s.Dealt slot [] ending [] where
  grows := .of_eq rfl rfl
  events := (List.append_nil _).symm
  endings := by simp

/-- **A call in front.** -/
lemma Dealt.cons {after : Device} {happened more shown : List Event} {first : Outcome}
    {ending ending' : List Call → Call → Outcome} {c : Call} {calls : List Call}
    (shows : happened ++ more = shown)
    (deals : s.Deals slot after happened first (s.call slot c))
    (rest : (s.call slot c).1.Dealt slot more ending' calls) (done : first ≠ .defer)
    (now : ending [] c = first) (later : ∀ before d, ending (c :: before) d = ending' before d) :
    s.Dealt slot shown ending (c :: calls) where
  grows := deals.answered.grows.trans rest.grows
  events := by
    show ((s.call slot c).1.callEach slot calls).1.events.toList = _
    rw [rest.events, deals.events, List.append_assoc, shows]
  endings i d found := by
    cases i with
    | zero =>
        obtain rfl : c = d := Option.some.inj found
        refine ⟨_, rfl, ?_⟩
        show ((s.call slot c).1.callEach slot calls).1.ending (s.call slot c).2 = ending [] c
        rw [rest.grows.ending_eq (deals.ending ▸ done), deals.ending, now]
    | succ i =>
        obtain ⟨a, answer, ends⟩ := rest.endings i d found
        exact ⟨a, answer, ends.trans (later _ _).symm⟩

section Otlp

variable {p : Protocol} {transport : Script} {idle : Bool}

lemma ending_ne_defer (before : List Call) (c : Call) :
    c.ending transport idle before ≠ .defer := by
  cases c with
  | accept records =>
      rw [Call.ending]
      split
      · decide
      · cases transport.send.outcomes.getD (served before).length .ok <;> decide
  | flush => nofun
  | shutdown =>
      rw [Call.ending]
      split
      · decide
      · split <;> decide

/-- After a shutdown it does not matter what was before it or is after it. -/
lemma ending_shutdown_cons (before : List Call) (c : Call) (transport' : Script) :
    c.ending transport idle (.shutdown :: before) = c.ending transport' idle [.shutdown] := by
  cases c <;> rfl

/-- A batch takes one end off the list of the transport. -/
lemma ending_accept_cons (records : List Record) (before : List Call) (c : Call) :
    c.ending transport idle (.accept records :: before) =
      c.ending (transport.next .send) idle before := by
  cases c with
  | accept more =>
      show (if before.any Call.isShutdown then Outcome.fail
        else (transport.send.outcomes.getD ((served before).length + 1) .ok).sent) =
          if before.any Call.isShutdown then .fail
          else (transport.send.outcomes.tail.getD (served before).length .ok).sent
      rw [List.getD_eq_getElem?_getD, List.getD_eq_getElem?_getD, List.getElem?_tail]
  | flush => rfl
  | shutdown => rfl

/-- An exporter that is shut down lets nothing happen. -/
lemma dealt_down (found : s.devices[slot]? = some (.otlp ⟨p, true⟩ transport idle))
    (calls : List Call) :
    s.Dealt slot [] (fun before c => c.ending transport idle (.shutdown :: before)) calls := by
  induction calls generalizing s with
  | nil => exact dealt_nil _
  | cons c calls ih =>
      have deals := deals_down found c
      refine .cons rfl deals (ih deals.device) (ending_ne_defer _ c) rfl fun before d => ?_
      exact ending_shutdown_cons (c :: before) d transport

/-- **What an exporter does that is in service**: one request for each batch before the first
shutdown, in their order, and nothing after that but the end of the transport. -/
theorem dealt_up (found : s.devices[slot]? = some (.otlp ⟨p, false⟩ transport idle))
    {calls : List Call}
    (fits : ∀ records ∈ served calls, (Message.encode (request records)).length < 2 ^ 32) :
    s.Dealt slot
      ((served calls).map (fun records => ⟨transport.name, .send (p.submission records)⟩) ++
        if calls.any Call.isShutdown && !idle then [⟨transport.name, .shutdown⟩] else [])
      (fun before c => c.ending transport idle before) calls := by
  induction calls generalizing s transport with
  | nil => exact dealt_nil _
  | cons c calls ih =>
      cases c with
      | accept records =>
          obtain ⟨first, others⟩ := List.forall_mem_cons.mp fits
          have deals := deals_accept found first
          have now : Call.ending transport idle [] (.accept records) =
              transport.send.outcome.sent := by
            show (transport.send.outcomes.getD 0 .ok).sent =
              (transport.send.outcomes.headD .ok).sent
            cases transport.send.outcomes <;> rfl
          have done := now ▸ ending_ne_defer [] (.accept records)
          exact .cons (by rfl) deals (ih deals.device others) done now fun before d =>
            ending_accept_cons records before d
      | flush =>
          have deals := deals_flush _ found
          exact .cons (by rfl) deals (ih deals.device fits) (by decide) rfl fun _ d => by
            cases d <;> rfl
      | shutdown =>
          obtain ⟨transport', deals⟩ := deals_shutdown found
          have down := dealt_down deals.device calls
          refine .cons ?_ deals down (ending_ne_defer [] .shutdown) rfl ?_
          · cases idle <;> rfl
          · intro before d
            rw [ending_shutdown_cons before d transport', ending_shutdown_cons before d transport']

/-- What an exporter of requests does that is in service at first. -/
structure Sends (s : State κ) (slot : Nat) (p : Protocol) (transport : Script) (idle : Bool)
    (calls : List Call) : Prop where
  /-- Each batch before the first shutdown is sent once, in order, and nothing is sent after that.
  The transport is shut down once if the exporter ever is, unless it has nothing to do then. -/
  requests : (s.callEach slot calls).1.events.toList = s.events.toList ++
    ((served calls).map (fun records => ⟨transport.name, .send (p.submission records)⟩) ++
      if calls.any Call.isShutdown && !idle then [⟨transport.name, .shutdown⟩] else [])
  /-- Every call ends, each as it should. -/
  endings : ∀ (i : Nat) (c : Call), calls[i]? = some c →
    ∃ a, (s.callEach slot calls).2[i]? = some a ∧
      (s.callEach slot calls).1.ending a = c.ending transport idle (calls.take i)
  /-- No export is left pending, and it has succeeded exactly if it was before the first shutdown
  and the transport has taken the request. -/
  exports : ∀ (i : Nat) (records : List Record), calls[i]? = some (.accept records) →
    ∃ a, (s.callEach slot calls).2[i]? = some a ∧ (s.callEach slot calls).1.ending a ≠ .defer ∧
      ((s.callEach slot calls).1.ending a = .ok ↔
        (calls.take i).any Call.isShutdown = false ∧
          (transport.send.outcomes.getD (served (calls.take i)).length .ok).sent = .ok)
  /-- Over gRPC a reader who is given all bodies, one after the other, finds the messages. -/
  frames : p = .grpc →
    splitFrames? ((served calls).map fun records => (p.submission records).body).flatten =
      some ((served calls).map fun records => Message.encode (request records))

/-- **An exporter sends each batch once**, whatever it is asked for and whatever its transport makes
of the requests. -/
theorem callEach_sends (found : s.devices[slot]? = some (.otlp ⟨p, false⟩ transport idle))
    {calls : List Call}
    (fits : ∀ records ∈ served calls, (Message.encode (request records)).length < 2 ^ 32) :
    s.Sends slot p transport idle calls := by
  have dealt := dealt_up found fits
  refine ⟨dealt.events, dealt.endings, ?_, ?_⟩
  · intro i records at_i
    obtain ⟨a, answer, ends⟩ := dealt.endings i _ at_i
    refine ⟨a, answer, ends ▸ ending_ne_defer (calls.take i) (.accept records), ?_⟩
    rw [ends]
    show (if (calls.take i).any Call.isShutdown then Outcome.fail else _) = _ ↔ _
    cases (calls.take i).any Call.isShutdown with
    | true => exact iff_of_false nofun fun h => absurd h.1 (by decide)
    | false => exact (and_iff_right rfl).symm
  · rintro rfl
    have short : ∀ m ∈ (served calls).map fun records => Message.encode (request records),
        m.length < 2 ^ 32 := List.forall_mem_map.mpr fits
    have split := Otlp.splitFrames?_flatten short
    rwa [List.map_map] at split

/-- An exporter whose transport takes the first request and refuses the second one. -/
def refusing : State Nat where
  devices := #[.otlp ⟨.grpc, false⟩ ⟨"t", {}, {}, {}, ⟨[.ok, .fail], 0⟩, {}⟩ false]

/-- Two batches, a shutdown, and a batch and a shutdown too late. -/
def lateCalls : List Call :=
  [.accept [{ profileId := [1] }], .accept [], .shutdown, .accept [default], .shutdown]

/-- One batch of two is taken, and of two shutdowns one gets through. -/
theorem callEach_sends_refusing : (∀ records ∈ served lateCalls,
      (Message.encode (request records)).length < 2 ^ 32) ∧
    (refusing.callEach 0 lateCalls).1.events.size = 3 ∧
    refusing.Sends 0 .grpc ⟨"t", {}, {}, {}, ⟨[.ok, .fail], 0⟩, {}⟩ false lateCalls := by
  have fits : ∀ records ∈ served lateCalls, (Message.encode (request records)).length < 2 ^ 32 := by
    decide +kernel
  exact ⟨fits, by decide +kernel, callEach_sends rfl fits⟩

end Otlp

end State

end ProfilePipeline.Export
