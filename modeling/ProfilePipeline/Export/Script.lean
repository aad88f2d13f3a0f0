/-!
# Scripted behaviour

Exporters, transports and processors may be anything; what matters to the rest is only how each
call of them ends.  A script lists these ends in advance, one list for each kind of call.  When a
list is used up, further calls succeed.
-/

namespace ProfilePipeline.Export

/-- How a call ends: with a completion that has an outcome, with one that is resolved later by
name, or not at all. -/
inductive Outcome where
  | ok
  | fail
  | panic
  | defer
  deriving DecidableEq, Repr, Inhabited

/-- The kinds of calls. -/
inductive Operation where
  | accept
  | flush
  | shutdown
  | send
  | onEmit
  deriving DecidableEq, Repr

/-- The name of a kind of calls. -/
def Operation.name : Operation → String
  | accept => "export"
  | flush => "flush"
  | shutdown => "shutdown"
  | send => "send"
  | onEmit => "on_emit"

/-- What is left of the list for one kind of calls, and how many calls there were. -/
structure Track where
  outcomes : List Outcome := []
  calls : Nat := 0
  deriving DecidableEq, Repr, Inhabited

namespace Track

/-- How the next call ends. -/
def outcome (t : Track) : Outcome := t.outcomes.headD .ok

/-- The track after one call. -/
def next (t : Track) : Track := ⟨t.outcomes.tail, t.calls + 1⟩

end Track

/-- The behaviour of something that has a name. -/
structure Script where
  name : String
  accept : Track := {}
  flush : Track := {}
  shutdown : Track := {}
  send : Track := {}
  onEmit : Track := {}
  deriving DecidableEq, Repr

namespace Script

/-- The track of one kind of calls. -/
def track (s : Script) : Operation → Track
  | .accept => s.accept
  | .flush => s.flush
  | .shutdown => s.shutdown
  | .send => s.send
  | .onEmit => s.onEmit

/-- The script after a call. -/
def next (s : Script) : Operation → Script
  | .accept => { s with accept := s.accept.next }
  | .flush => { s with flush := s.flush.next }
  | .shutdown => { s with shutdown := s.shutdown.next }
  | .send => { s with send := s.send.next }
  | .onEmit => { s with onEmit := s.onEmit.next }

/-- The name of a completion that the next call of a kind would leave to be resolved later. -/
def deferredName (s : Script) (op : Operation) : String :=
  s.name ++ "." ++ op.name ++ "." ++ toString (s.track op).calls

end Script

end ProfilePipeline.Export
