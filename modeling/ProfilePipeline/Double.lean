import ProfilePipeline.Decimal.Shortest

/-!
# Doubles

A 64-bit binary floating point number is kept as its bits, so that payloads of NaN and the sign
of zero survive.

* `Double.same` — the comparison of the standard: NaN differs from everything, zero has no sign.
* `Double.render` — the shortest digits that read back, in positional notation.
-/

namespace ProfilePipeline

/-- A 64-bit floating point number by its bits. -/
structure Double where
  bits : UInt64
  deriving DecidableEq, Repr, Inhabited

namespace Double

/-- Whether the sign bit is set. -/
def isNegative (x : Double) : Bool := x.bits >>> 63 == 1

/-- The eleven bits of the exponent. -/
def exponentBits (x : Double) : UInt64 := (x.bits >>> 52) &&& 0x7ff

/-- The 52 bits of the fraction. -/
def fractionBits (x : Double) : UInt64 := x.bits &&& 0xfffffffffffff

/-- Neither finite nor infinite. -/
def isNaN (x : Double) : Bool := x.exponentBits == 0x7ff && x.fractionBits != 0

/-- Infinite of either sign. -/
def isInfinite (x : Double) : Bool := x.exponentBits == 0x7ff && x.fractionBits == 0

/-- Zero of either sign. -/
def isZero (x : Double) : Bool := x.exponentBits == 0 && x.fractionBits == 0

/-- **Numeric equality.**  Except for zero and NaN it is equality of bits. -/
def same (x y : Double) : Bool :=
  if x.isNaN || y.isNaN then false
  else if x.isZero && y.isZero then true
  else x.bits == y.bits

instance : BEq Double := ⟨same⟩

/-- The magnitude of a finite double other than zero.  The lower neighbour of a power of two is
half as far away as the upper one, unless it is subnormal or the least normal number. -/
def magnitude (x : Double) : Decimal.Binary :=
  let fraction := x.fractionBits.toNat
  if x.exponentBits = 0 then ⟨fraction, -1074, false⟩
  else
    ⟨0x10000000000000 + fraction, (x.exponentBits.toNat : Int) - 1075,
      fraction == 0 && 1 < x.exponentBits⟩

/-- The text of a double. -/
def render (x : Double) : String :=
  if x.isNaN then "NaN"
  else
    let sign := if x.isNegative then "-" else ""
    if x.isInfinite then sign ++ "inf"
    else if x.isZero then sign ++ "0"
    else sign ++ x.magnitude.shortest.positional

end Double

end ProfilePipeline
