/-!
# Spans

Identifiers that tie a record to a trace.  They are fixed-width numbers, written in hexadecimal
with the most significant byte first; zero is the invalid identifier.
-/

namespace ProfilePipeline

/-- The hexadecimal digit of a number below sixteen. -/
def hexDigit (n : Nat) : Char := if n < 10 then Char.ofNat (48 + n) else Char.ofNat (87 + n)

/-- Bytes as pairs of lower-case hexadecimal digits. -/
def renderHex (bytes : List UInt8) : String :=
  String.ofList (bytes.flatMap fun b => [hexDigit (b.toNat / 16), hexDigit (b.toNat % 16)])

/-- The number that a hexadecimal digit stands for; upper case is the same. -/
def hexValue? (c : Char) : Option Nat :=
  if '0' ≤ c ∧ c ≤ '9' then some (c.toNat - 48)
  else if 'a' ≤ c ∧ c ≤ 'f' then some (c.toNat - 87)
  else if 'A' ≤ c ∧ c ≤ 'F' then some (c.toNat - 55)
  else none

/-- Bytes from pairs of hexadecimal digits, after those read before in reverse. -/
def readHexPairs? (before : List UInt8) : List Char → Option (List UInt8)
  | [] => some before.reverse
  | high :: low :: rest =>
    match hexValue? high, hexValue? low with
    | some x, some y => readHexPairs? ((16 * x + y).toUInt8 :: before) rest
    | _, _ => none
  | [_] => none

/-- The bytes that a text of hexadecimal digits stands for. -/
def readHex? (s : String) : Option (List UInt8) := readHexPairs? [] s.toList

/-- The number that a text of hexadecimal digits stands for. -/
def readHexNat? (s : String) : Option Nat :=
  s.toList.foldlM (fun n c => (hexValue? c).map (16 * n + ·)) 0

/-- The lowest `count` bytes of a number, most significant first. -/
def bigEndian : Nat → Nat → List UInt8
  | 0, _ => []
  | count + 1, n => bigEndian count (n / 256) ++ [n.toUInt8]

/-- The number with the given bytes, most significant first. -/
def ofBigEndian (bytes : List UInt8) : Nat := bytes.foldl (fun n b => 256 * n + b.toNat) 0

/-- A trace, by 128 bits. -/
structure TraceId where
  value : BitVec 128 := 0
  deriving DecidableEq, Repr, Inhabited

/-- A span of a trace, by 64 bits. -/
structure SpanId where
  value : BitVec 64 := 0
  deriving DecidableEq, Repr, Inhabited

namespace TraceId

/-- The identifier with the given bytes, most significant first. -/
def ofBytes (bytes : List UInt8) : TraceId := ⟨BitVec.ofNat 128 (ofBigEndian bytes)⟩

/-- The sixteen bytes, most significant first. -/
def toBytes (id : TraceId) : List UInt8 := bigEndian 16 id.value.toNat

/-- Zero stands for no trace. -/
def isValid (id : TraceId) : Bool := id.value != 0

/-- The bytes in hexadecimal. -/
def render (id : TraceId) : String := renderHex id.toBytes

end TraceId

namespace SpanId

/-- The identifier with the given bytes, most significant first. -/
def ofBytes (bytes : List UInt8) : SpanId := ⟨BitVec.ofNat 64 (ofBigEndian bytes)⟩

/-- The eight bytes, most significant first. -/
def toBytes (id : SpanId) : List UInt8 := bigEndian 8 id.value.toNat

/-- Zero stands for no span. -/
def isValid (id : SpanId) : Bool := id.value != 0

/-- The bytes in hexadecimal. -/
def render (id : SpanId) : String := renderHex id.toBytes

end SpanId

/-- A position in a trace. -/
structure SpanContext where
  trace : TraceId := {}
  span : SpanId := {}
  deriving DecidableEq, Repr, Inhabited

namespace SpanContext

/-- The context of a record that belongs to no span. -/
def invalid : SpanContext := {}

/-- Both identifiers have to be valid. -/
def isValid (c : SpanContext) : Bool := c.trace.isValid && c.span.isValid

end SpanContext

/-- What surrounds an emission: the active span, if there is one. -/
structure Context where
  active : Option SpanContext := none
  deriving DecidableEq, Repr, Inhabited

namespace Context

/-- The active span, or the invalid one. -/
def span (c : Context) : SpanContext := c.active.getD .invalid

end Context

end ProfilePipeline
