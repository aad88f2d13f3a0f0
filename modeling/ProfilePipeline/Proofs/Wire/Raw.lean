import Mathlib.Tactic.Common
import ProfilePipeline.Proofs.Wire.Varint
import ProfilePipeline.Wire.Content
import ProfilePipeline.Wire.Raw

/-!
# Reading back one field

A field that is written as key and payload is cut off the front of an input again, whatever
follows it.

* `Raw.Plain` — the payloads that are ever written: words, eight bytes, and byte strings that are
  short enough for their length to be a word.
* `readKey?_keyBytes`, `readPayload?_bytes` — key and payload each on their own.
* `readField?_append` — **one field and the rest.**
-/

namespace ProfilePipeline.Wire

/-- How a reader calls a wire type. -/
def WireType.keyType : WireType → KeyType
  | varint => .varint
  | fixed64 => .fixed64
  | delimited => .delimited

lemma KeyType.ofCode?_code (type : WireType) : ofCode? type.code.toNat = some type.keyType := by
  cases type <;> rfl

lemma WireType.code_lt (type : WireType) : type.code.toNat < 8 := by
  cases type <;> decide

/-! ## Keys -/

/-- A key holds eight times the number plus the wire type, as long as the number has 29 bits. -/
lemma toNat_key {number : UInt32} (type : WireType) (h : number.toNat < 2 ^ 29) :
    (key number type).toNat = 8 * number.toNat + type.code.toNat := by
  have hcode : type.code.toNat < 2 ^ 3 := type.code_lt
  have hshift : (number <<< 3).toNat = 2 ^ 3 * number.toNat := by
    rw [UInt32.toNat_shiftLeft, Nat.shiftLeft_eq]
    show number.toNat * 2 ^ 3 % 2 ^ 32 = _
    omega
  show ((number <<< 3) ||| type.code).toNat = _
  rw [UInt32.toNat_or, hshift, ← Nat.two_pow_add_eq_or_of_lt hcode]

/-- Both accounts of a key write the same digits. -/
lemma write_key {number : UInt32} (type : WireType) (h : number.toNat < 2 ^ 29) :
    Varint.write (key number type) = keyBytes number.toNat type := by
  rw [Varint.write_eq_ofNat, toNat_key type h, keyBytes]

theorem readKey?_keyBytes {number : Nat} (type : WireType) (rest : Bytes) (hpos : 0 < number)
    (hlt : number < 2 ^ 29) :
    readKey? (keyBytes number type ++ rest) = some ((number, type.keyType), rest) := by
  have hcode := type.code_lt
  have hword : (8 * number + type.code.toNat).toUInt64.toNat = 8 * number + type.code.toNat :=
    Nat.mod_eq_of_lt (by omega)
  have hmod : (8 * number + type.code.toNat) % 8 = type.code.toNat := by omega
  have hdiv : (8 * number + type.code.toNat) / 8 = number := by omega
  rw [keyBytes, readKey?, Varint.read?_ofNat (by omega)]
  simp only [hword, hmod, hdiv, KeyType.ofCode?_code]
  rw [if_neg (by omega), if_neg (by omega)]

/-! ## Payloads -/

lemma splitExact?_append (front rest : Bytes) :
    splitExact? front.length (front ++ rest) = some (front, rest) := by
  simp [splitExact?]

/-- The lowest byte of a word below the bytes above it. -/
lemma low_or_high {x y : UInt64} (h : y.toNat = x.toNat / 256) :
    x.toUInt8.toUInt64 ||| (y <<< 8) = x := by
  have hx := x.toNat_lt
  have hlow : x.toUInt8.toUInt64.toNat = x.toNat % 2 ^ 8 := rfl
  have hhigh : (y <<< 8).toNat = 2 ^ 8 * (x.toNat / 256) := by
    rw [UInt64.toNat_shiftLeft, Nat.shiftLeft_eq, h]
    show x.toNat / 256 * 2 ^ 8 % 2 ^ 64 = _
    omega
  apply UInt64.toNat_inj.mp
  rw [UInt64.toNat_or, hlow, hhigh, Nat.or_comm,
    ← Nat.two_pow_add_eq_or_of_lt (Nat.mod_lt _ (by decide))]
  omega

theorem ofLittleEndian_littleEndian (word : UInt64) :
    ofLittleEndian (littleEndian word) = word := by
  have hlast : (word >>> 56).toUInt8.toUInt64 ||| ((0 : UInt64) <<< 8) = word >>> 56 := by
    apply low_or_high
    have := word.toNat_lt
    simp only [UInt64.toNat_shiftRight, Nat.shiftRight_eq_div_pow, UInt64.reduceToNat,
      Nat.reduceMod, Nat.reducePow]
    omega
  -- Each step takes the bytes above as one word that is the one below without its last byte.
  simp only [littleEndian, ofLittleEndian, hlast]
  rw [low_or_high (x := word >>> 48), low_or_high (x := word >>> 40),
    low_or_high (x := word >>> 32), low_or_high (x := word >>> 24),
    low_or_high (x := word >>> 16), low_or_high (x := word >>> 8), low_or_high]
  all_goals simp only [UInt64.toNat_shiftRight, Nat.shiftRight_eq_div_pow, UInt64.reduceToNat,
    Nat.reduceMod, Nat.reducePow]
  all_goals omega

namespace Raw

/-- The wire type of a payload that is written. -/
def wireType : Raw → WireType
  | varint _ => .varint
  | fixed64 _ => .fixed64
  | _ => .delimited

/-- The bytes of a payload that is written. -/
def bytes : Raw → Bytes
  | varint word => Varint.ofNat word.toNat
  | fixed64 word => littleEndian word
  | delimited body => delimit body
  | _ => []

/-- A payload that is written: neither a group nor four bytes, and with a length that is a word. -/
def Plain : Raw → Prop
  | varint _ | fixed64 _ => True
  | delimited body => body.length < 2 ^ 64
  | _ => False

end Raw

theorem readPayload?_bytes {raw : Raw} (h : raw.Plain) (rest : Bytes) :
    readPayload? raw.wireType.keyType (raw.bytes ++ rest) = some (raw, rest) := by
  cases raw with
  | varint word =>
      show (Varint.read? (Varint.ofNat word.toNat ++ rest)).map _ = _
      rw [Varint.read?_ofNat word.toNat_lt]
      simp
  | fixed64 word =>
      show (splitExact? (littleEndian word).length (littleEndian word ++ rest)).map _ = _
      rw [splitExact?_append]
      show some (Raw.fixed64 (ofLittleEndian (littleEndian word)), rest) = _
      rw [ofLittleEndian_littleEndian]
  | delimited body =>
      have hlen : body.length.toUInt64.toNat = body.length := Nat.mod_eq_of_lt h
      show readPayload? .delimited (Varint.write body.length.toUInt64 ++ body ++ rest) = _
      rw [List.append_assoc, readPayload?, Varint.read?_write]
      show (splitExact? body.length.toUInt64.toNat (body ++ rest)).map _ = _
      rw [hlen, splitExact?_append]
      rfl
  | fixed32 => exact absurd h not_false
  | group => exact absurd h not_false

/-! ## Fields -/

/-- A field is not empty: it has a key. -/
lemma exists_cons_field (number : Nat) (type : WireType) (payload rest : Bytes) :
    ∃ b bs, keyBytes number type ++ payload ++ rest = b :: bs := by
  refine List.exists_cons_of_ne_nil ?_
  intro hnil
  rw [List.append_assoc] at hnil
  exact Varint.ofNat_ne_nil _ (List.append_eq_nil_iff.mp hnil).1

/-- **A field that was written is read back**, and the rest is left. -/
theorem readField?_append {number : Nat} {raw : Raw} (budget : Nat) (rest : Bytes)
    (hpos : 0 < number) (hlt : number < 2 ^ 29) (h : raw.Plain) :
    readField? budget (keyBytes number raw.wireType ++ raw.bytes ++ rest) =
      some ((number, raw), rest) := by
  have hpayload := readPayload?_bytes h rest
  rw [List.append_assoc, readField?, readKey?_keyBytes raw.wireType _ hpos hlt]
  cases raw <;> simp_all [Raw.wireType, WireType.keyType]

end ProfilePipeline.Wire
