import ProfilePipeline.Record

/-!
# One line per record

An exporter that writes a one-line summary of each record.  When it folds, equal lines of a batch
are written once, in the order of their first occurrence, each with the number of its occurrences.

* `line` — the summary of a record.
* `tally` — distinct lines and how often each of them occurs.
-/

namespace ProfilePipeline.Export

/-- The summary of a record: its span, its scope and its attributes. -/
def line (r : Record) : String :=
  "Profile from StringWritingProfileExporter: " ++ r.span.trace.render ++ " " ++
    r.span.span.render ++ " [scopeInfo: " ++ r.scope.name ++ ":" ++ r.scope.version.getD "" ++
    "] " ++ r.attributes.render

/-- Counts one more occurrence of a line. -/
def addLine (counts : List (String × Nat)) (l : String) : List (String × Nat) :=
  match counts with
  | [] => [(l, 1)]
  | (k, n) :: rest => if k = l then (k, n + 1) :: rest else (k, n) :: addLine rest l

/-- **The distinct lines of a list**, in the order of their first occurrence, each with the number
of its occurrences. -/
def tally (lines : List String) : List (String × Nat) := lines.foldl addLine []

/-- A line with its number of occurrences. -/
def countedLine (entry : String × Nat) : String := entry.1 ++ " " ++ toString entry.2

/-- An exporter that writes lines. -/
structure LineExporter where
  fold : Bool := false
  isShutdown : Bool := false
  deriving DecidableEq, Repr

namespace LineExporter

/-- The lines for a batch. -/
def lines (e : LineExporter) (records : List Record) : List String :=
  let plain := records.map line
  if e.fold then (tally plain).map countedLine else plain

/-- The lines that a batch is written as, unless it is refused. -/
def accept? (e : LineExporter) (records : List Record) : Option (List String) :=
  if e.isShutdown then none else some (e.lines records)

/-- Takes no more batches. -/
def shutdown (e : LineExporter) : LineExporter := { e with isShutdown := true }

end LineExporter

end ProfilePipeline.Export
