/-!
# Enumerations of a payload

The closed sets of names that a payload draws from, with the number each member has on the wire.
-/

namespace ProfilePipeline.Payload

/-- How the measurements of a sample relate to each other. -/
inductive AggregationTemporality where
  | unspecified
  | delta
  | cumulative
  deriving DecidableEq, Repr, Inhabited

/-- Where the build id of a mapping comes from. -/
inductive BuildIdKind where
  | linker
  | binaryHash
  deriving DecidableEq, Repr, Inhabited

namespace AggregationTemporality

/-- The number of the enumeration member. -/
def code : AggregationTemporality → Int32
  | unspecified => 0
  | delta => 1
  | cumulative => 2

/-- The member with a number; a number without a name reads as the default. -/
def ofCode (n : Int32) : AggregationTemporality :=
  if n = 1 then delta else if n = 2 then cumulative else unspecified

theorem ofCode_code (t : AggregationTemporality) : ofCode t.code = t := by
  cases t <;> decide

/-- The name of the member. -/
def name : AggregationTemporality → String
  | unspecified => "Unspecified"
  | delta => "Delta"
  | cumulative => "Cumulative"

end AggregationTemporality

namespace BuildIdKind

/-- The number of the enumeration member. -/
def code : BuildIdKind → Int32
  | linker => 0
  | binaryHash => 1

/-- The member with a number; a number without a name reads as the default. -/
def ofCode (n : Int32) : BuildIdKind := if n = 1 then binaryHash else linker

theorem ofCode_code (k : BuildIdKind) : ofCode k.code = k := by
  cases k <;> decide

/-- The name of the member. -/
def name : BuildIdKind → String
  | linker => "Linker"
  | binaryHash => "BinaryHash"

end BuildIdKind

end ProfilePipeline.Payload
