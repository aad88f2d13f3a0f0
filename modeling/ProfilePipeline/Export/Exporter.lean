import ProfilePipeline.Export.State

/-!
# Exporters

An exporter discards, is a device, or fans out to other exporters.  A fan-out passes every call on
to each of its children in order.  One that panics counts as failed and does not keep the others
from being called.

* `Exporter.perform` — a call of an exporter.
* `Exporter.composite` — the exporter for a list of exporters.
-/

namespace ProfilePipeline.Export

open Completion (Token)

/-- An exporter.  Each fan-out has a number that tells it apart from others. -/
inductive Exporter where
  | discard
  | device (slot : Nat)
  | fanOut (number : Nat) (children : List Exporter)
  deriving Inhabited

namespace Exporter

/-- Whether two exporters are one and the same. -/
def isSame : Exporter → Exporter → Bool
  | discard, discard => true
  | device slot, device slot' => slot == slot'
  | fanOut number _, fanOut number' _ => number == number'
  | _, _ => false

/-- Whether an exporter is the one that discards everything. -/
def isDiscard (e : Exporter) : Bool := e.isSame discard

/-- The exporter for a list: none discards, one stands for itself, more are fanned out to. -/
def composite (number : Nat) : List Exporter → Exporter
  | [] => discard
  | [e] => e
  | es => fanOut number es

mutual

/-- **A call of an exporter.** -/
def perform {κ : Type} (c : Call) : Exporter → State κ → State κ × Answer
  | discard, s => s.settle true
  | device slot, s => s.call slot c
  | fanOut _ children, s =>
    let (s, tokens) := performEach c children s
    let (s, t) := s.ofAll tokens
    (s, .returned t)

/-- The same call of each exporter of a list, whatever the ones before it did. -/
def performEach {κ : Type} (c : Call) : List Exporter → State κ → State κ × List Token
  | [], s => (s, [])
  | e :: es, s =>
    let (s, answer) := e.perform c s
    let (s, t) := s.contain answer
    let (s, ts) := performEach c es s
    (s, t :: ts)

end

end Exporter

end ProfilePipeline.Export
