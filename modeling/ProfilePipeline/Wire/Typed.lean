import ProfilePipeline.Payload.Kinds
import ProfilePipeline.Wire.Value

/-!
# Typed field values

The types a field can have, each with its values.  All of the integer types travel as the 64-bit
two's complement of the number, so that a negative 32-bit number takes ten bytes like any other
negative one.

* `Scalar` — the types that travel as one word.
* `Typed` — a value of one of the types, and `Typed.value`, what it is on the wire.
* `Typed.describe?` — the text of a field of a singular number type.
-/

namespace ProfilePipeline.Wire

open Payload (AggregationTemporality BuildIdKind)

/-! ## Scalars -/

/-- A type whose values travel as one word.  `ofWord` reads a word of any origin: it keeps the low
bits that the type has room for. -/
class Scalar (α : Type) where
  word : α → UInt64
  ofWord : UInt64 → α

instance : Scalar UInt64 := ⟨id, id⟩
instance : Scalar Int64 := ⟨Int64.toUInt64, UInt64.toInt64⟩
instance : Scalar UInt32 := ⟨UInt32.toUInt64, UInt64.toUInt32⟩
instance : Scalar Int32 := ⟨fun n => n.toInt64.toUInt64, fun w => w.toUInt32.toInt32⟩
instance : Scalar Bool := ⟨Bool.toUInt64, fun w => w != 0⟩
instance : Scalar AggregationTemporality :=
  ⟨fun t => Scalar.word t.code, fun w => .ofCode (Scalar.ofWord w)⟩
instance : Scalar BuildIdKind :=
  ⟨fun k => Scalar.word k.code, fun w => .ofCode (Scalar.ofWord w)⟩

namespace Value

/-- A scalar on the wire. -/
def scalar {α : Type} [Scalar α] (x : α) : Value := .varint (Scalar.word x)

/-- A list of scalars on the wire. -/
def scalars {α : Type} [Scalar α] (xs : List α) : Value := .packed (xs.map Scalar.word)

end Value

/-! ## Values with their type -/

/-- A value of one of the types that a field can have. -/
inductive Typed where
  | uint64 (n : UInt64)
  | int64 (n : Int64)
  | uint32 (n : UInt32)
  | int32 (n : Int32)
  | bool (b : Bool)
  | fixed64 (n : UInt64)
  /-- A double, as its bits. -/
  | double (bits : UInt64)
  | text (s : String)
  | bytes (b : Bytes)
  | temporality (t : AggregationTemporality)
  | buildIdKind (k : BuildIdKind)
  | uint64s (ns : List UInt64)
  | int64s (ns : List Int64)
  | uint32s (ns : List UInt32)
  | int32s (ns : List Int32)
  | bools (bs : List Bool)
  | temporalities (ts : List AggregationTemporality)
  | buildIdKinds (ks : List BuildIdKind)
  deriving DecidableEq, Repr

namespace Typed

/-- What a typed value is on the wire. -/
def value : Typed → Value
  | uint64 n => .scalar n
  | int64 n => .scalar n
  | uint32 n => .scalar n
  | int32 n => .scalar n
  | bool b => .scalar b
  | fixed64 n => .fixed64 n
  | double bits => .fixed64 bits
  | text s => .text s
  | bytes b => .bytes b
  | temporality t => .scalar t
  | buildIdKind k => .scalar k
  | uint64s ns => .scalars ns
  | int64s ns => .scalars ns
  | uint32s ns => .scalars ns
  | int32s ns => .scalars ns
  | bools bs => .scalars bs
  | temporalities ts => .scalars ts
  | buildIdKinds ks => .scalars ks

/-- The text of a single number, flag or enumeration member. -/
def text? : Typed → Option String
  | uint64 n => some (toString n.toNat)
  | int64 n => some (toString n.toInt)
  | uint32 n => some (toString n.toNat)
  | int32 n => some (toString n.toInt)
  | bool b => some (if b then "true" else "false")
  | fixed64 n => some ("Fixed64(" ++ toString n.toNat ++ ")")
  | temporality t => some t.name
  | buildIdKind k => some k.name
  | _ => none

/-- The text of a field with a value that has one. -/
def describe? (number : UInt32) (omitsDefault : Bool) (x : Typed) : Option String :=
  x.text?.map fun value =>
    "Field \x7b value: " ++ value ++ ", number: " ++ toString number.toNat ++
      ", optimize_for_zero: " ++ (if omitsDefault then "true" else "false") ++ " \x7d"

end Typed

end ProfilePipeline.Wire
