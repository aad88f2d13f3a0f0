/-!
# Variable-length integers

A 64-bit word travels as its base-128 digits, least significant first, with the top bit set on
every digit but the last.

* `Varint.size` — the number of digits by a closed formula, so that a length is known before
  anything is written.
* `Varint.write` — the digits themselves, by a loop.
* `Varint.ofNat` — the base-128 digits of a number, by division; what the digits ought to be.
* `Varint.read?` — one word from the front of an input; at most ten digits, and the word has to
  fit 64 bits.  Superfluous high zero digits are accepted.
-/

namespace ProfilePipeline.Wire

/-- Bytes, first byte first. -/
abbrev Bytes := List UInt8

namespace Varint

/-- The number of zero bits above the highest set bit. -/
def leadingZeros (x : UInt64) : UInt32 :=
  if x = 0 then 64 else 63 - x.log2.toUInt32

/-- **The digit count, without a loop.**  The exclusive or with `63` is the position of the highest
set bit, and `9 / 64` is close enough to `1 / 7` over all 64 positions. -/
def size (x : UInt64) : UInt64 :=
  (((leadingZeros (x ||| 1) ^^^ 63) * 9 + 73) / 64).toUInt64

/-- A shift by seven bits makes any word above the last digit smaller. -/
theorem shift_lt {x : UInt64} (h : ¬ x < 0x80) : (x >>> 7).toNat < x.toNat := by
  have hx : 128 ≤ x.toNat := by
    simpa [UInt64.lt_iff_toNat_lt] using h
  have hs : (x >>> 7).toNat = x.toNat / 128 := by
    simp [UInt64.toNat_shiftRight, Nat.shiftRight_eq_div_pow]
  rw [hs]
  exact Nat.div_lt_self (by omega) (by omega)

/-- The digits of a word, lowest first; each but the last carries the continuation bit. -/
def write (x : UInt64) : Bytes :=
  if x < 0x80 then [x.toUInt8]
  else ((x &&& 0x7f) ||| 0x80).toUInt8 :: write (x >>> 7)
termination_by x.toNat
decreasing_by exact shift_lt ‹_›

/-- The base-128 digits of a number, lowest first; each but the last is raised by 128. -/
def ofNat (n : Nat) : Bytes :=
  if n < 128 then [n.toUInt8] else (n % 128 + 128).toUInt8 :: ofNat (n / 128)
termination_by n
decreasing_by exact Nat.div_lt_self (by omega) (by omega)

/-- The value of the digits at the front of the input, `seen` digits being read already, and the
unread rest.  The tenth digit stands for bit 63 alone. -/
def readFrom (seen : Nat) : Bytes → Option (Nat × Bytes)
  | [] => none
  | d :: rest =>
    if d < 0x80 then
      if seen = 9 ∧ 2 ≤ d then none else some (d.toNat, rest)
    else if seen = 9 then none
    else (readFrom (seen + 1) rest).map fun (high, rest) => (d.toNat - 128 + 128 * high, rest)

/-- One word from the front of the input, and the unread rest. -/
def read? (input : Bytes) : Option (UInt64 × Bytes) :=
  (readFrom 0 input).map fun (value, rest) => (value.toUInt64, rest)

/-- A read that succeeds consumes at least one byte. -/
theorem readFrom_shorter {seen : Nat} {input rest : Bytes} {value : Nat}
    (h : readFrom seen input = some (value, rest)) : rest.length < input.length := by
  induction input generalizing seen value with
  | nil => simp [readFrom] at h
  | cons d input ih =>
    unfold readFrom at h
    split at h
    · split at h
      · cases h
      · simp only [Option.some.injEq, Prod.mk.injEq] at h
        simp [← h.2]
    · split at h
      · cases h
      · obtain ⟨⟨high, rest'⟩, hr, he⟩ := Option.map_eq_some_iff.1 h
        simp only [Prod.mk.injEq] at he
        have := ih (he.2 ▸ hr)
        simp only [List.length_cons]
        omega

/-- A word that is read leaves a shorter input. -/
theorem read?_shorter {input rest : Bytes} {x : UInt64} (h : read? input = some (x, rest)) :
    rest.length < input.length := by
  obtain ⟨⟨value, rest'⟩, hr, he⟩ := Option.map_eq_some_iff.1 h
  simp only [Prod.mk.injEq] at he
  exact readFrom_shorter (he.2 ▸ hr)

end Varint

end ProfilePipeline.Wire
