import Mathlib.Algebra.Order.Group.Nat
import Mathlib.Tactic.Common
import ProfilePipeline.Proofs.Wire.Lengths
import ProfilePipeline.Proofs.Wire.Line

/-!
# What a reader consumes

A reader takes numbers with superfluous digits, so what it consumes is not what would be written
for what it read.  But it is never less: **`length_readField?`** says so of a field, and
`length_readWords?` of a packed list.

What is written may still be longer, because a number is cut down to its type before it is written.
A negative 32-bit number may come in five digits and has ten.  **`ScalarType.length_normalize_le`**
says that this is the worst case; `delimitedLen_add_le` and `delimitedLen_double_le` say what
becomes of the length in front of a body that got longer.
-/

namespace ProfilePipeline.Wire

/-! ## Digits -/

namespace Varint

lemma lt_pow_length (n : Nat) : n < 128 ^ (ofNat n).length := by
  have hpos := length_ofNat_pos n
  obtain ⟨k, hk⟩ := Nat.exists_eq_succ_of_ne_zero hpos.ne'
  rw [hk]
  exact (length_ofNat_le n k).mp hk.le

lemma length_ofNat_le_of_lt {n k : Nat} (hk : 0 < k) (h : n < 128 ^ k) : (ofNat n).length ≤ k := by
  obtain ⟨j, rfl⟩ := Nat.exists_eq_succ_of_ne_zero hk.ne'
  exact (length_ofNat_le n j).mpr h

lemma length_ofNat_mono {m n : Nat} (h : m ≤ n) : (ofNat m).length ≤ (ofNat n).length :=
  length_ofNat_le_of_lt (length_ofNat_pos n) (h.trans_lt (lt_pow_length n))

/-- **A sum has no more digits than its terms have together.** -/
lemma length_ofNat_add (m n : Nat) :
    (ofNat (m + n)).length ≤ (ofNat m).length + (ofNat n).length := by
  have hm := lt_pow_length m
  have hn := lt_pow_length n
  have hm2 : 128 ≤ 128 ^ (ofNat m).length := Nat.le_self_pow (length_ofNat_pos m).ne' 128
  have hn2 : 128 ≤ 128 ^ (ofNat n).length := Nat.le_self_pow (length_ofNat_pos n).ne' 128
  refine length_ofNat_le_of_lt (Nat.add_pos_left (length_ofNat_pos m) _) ?_
  rw [Nat.pow_add]
  calc m + n < 128 ^ (ofNat m).length + 128 ^ (ofNat n).length := by omega
    _ ≤ 128 ^ (ofNat m).length * 128 ^ (ofNat n).length :=
        Nat.add_le_mul (by omega) (by omega)

/-- Doubling a number takes at most one digit more. -/
lemma length_ofNat_double (n : Nat) : (ofNat (2 * n)).length ≤ (ofNat n).length + 1 := by
  have hn := lt_pow_length n
  refine length_ofNat_le_of_lt (Nat.succ_pos _) ?_
  rw [Nat.pow_succ]
  omega

lemma length_ofNat_word (w : UInt64) : (ofNat w.toNat).length ≤ 10 :=
  length_ofNat_le_of_lt (by decide) (w.toNat_lt.trans_le (by decide))

end Varint

/-- A number of 31 bits is the same as a signed one of 32. -/
lemma signExtend_of_small {w : UInt64} (h : w.toNat < 2 ^ 31) :
    (w.toBitVec.setWidth 32).signExtend 64 = w.toBitVec := by
  have hnat : (w.toBitVec.setWidth 32).toNat = w.toNat := by
    rw [BitVec.toNat_setWidth]
    exact Nat.mod_eq_of_lt (h.trans (by decide))
  have hmsb : (w.toBitVec.setWidth 32).msb = false := by
    rw [BitVec.msb_eq_false_iff_two_mul_lt, hnat]
    omega
  rw [BitVec.signExtend_eq_setWidth_of_msb_false hmsb]
  refine BitVec.eq_of_toNat_eq ?_
  rw [BitVec.toNat_setWidth, hnat]
  exact Nat.mod_eq_of_lt w.toNat_lt

/-- **A number that is cut down to its type has at most twice as many digits.**  The only type that
makes one longer is the signed one of 32 bits, and it does so from five digits to ten. -/
lemma ScalarType.length_normalize_le (type : ScalarType) (w : UInt64) :
    (Varint.ofNat (type.normalize w).toNat).length ≤ 2 * (Varint.ofNat w.toNat).length := by
  have hshrinks : ∀ {x : UInt64}, x.toNat ≤ w.toNat →
      (Varint.ofNat x.toNat).length ≤ 2 * (Varint.ofNat w.toNat).length := by
    intro x hx
    have := Varint.length_ofNat_mono hx
    omega
  cases type with
  | uint64 | int64 => exact hshrinks (le_refl _)
  | uint32 =>
      refine hshrinks ?_
      show (w.toUInt32.toUInt64).toNat ≤ _
      rw [UInt32.toNat_toUInt64, UInt64.toNat_toUInt32]
      exact Nat.mod_le _ _
  | bool =>
      refine hshrinks ?_
      by_cases hw : w = 0
      · subst hw
        decide
      · have hpos : w.toNat ≠ 0 := fun h => hw (UInt64.toNat_inj.mp h)
        show (Bool.toUInt64 (w != 0)).toNat ≤ _
        rw [bne_iff_ne.mpr hw]
        show 1 ≤ _
        omega
  | int32 =>
      by_cases hsmall : w.toNat < 2 ^ 31
      · refine hshrinks (le_of_eq (congrArg UInt64.toNat ?_))
        exact UInt64.toBitVec_inj.mp (signExtend_of_small hsmall)
      · have hmany : 4 < (Varint.ofNat w.toNat).length := by
          have := mt (Varint.length_ofNat_le w.toNat 3).mp (by omega)
          omega
        have := Varint.length_ofNat_word (ScalarType.int32.normalize w)
        omega

/-! ## Lengths in front -/

lemma delimitedLen_of_lt {n : Nat} (h : n < 2 ^ 64) :
    delimitedLen n = (Varint.ofNat n).length + n := by
  rw [delimitedLen, digitCount_eq, Varint.write_eq_ofNat, toNat_toUInt64_of_lt h]

lemma delimitedLen_mono {m n : Nat} (hle : m ≤ n) (h : n < 2 ^ 64) :
    delimitedLen m ≤ delimitedLen n := by
  rw [delimitedLen_of_lt h, delimitedLen_of_lt (hle.trans_lt h)]
  exact Nat.add_le_add (Varint.length_ofNat_mono hle) hle

lemma delimitedLen_add_le {m n : Nat} (h : m + n < 2 ^ 64) :
    delimitedLen (m + n) ≤ delimitedLen m + delimitedLen n := by
  have := Varint.length_ofNat_add m n
  rw [delimitedLen_of_lt h, delimitedLen_of_lt (by omega), delimitedLen_of_lt (by omega)]
  omega

lemma delimitedLen_double_le {n : Nat} (h : 2 * n < 2 ^ 64) :
    delimitedLen (2 * n) ≤ 2 * delimitedLen n := by
  have hpos := Varint.length_ofNat_pos n
  have := Varint.length_ofNat_double n
  rw [delimitedLen_of_lt h, delimitedLen_of_lt (by omega)]
  omega

/-- The wire type makes no difference to the length of a key. -/
lemma length_keyBytes (number : Nat) (type other : WireType) :
    (keyBytes number type).length = (keyBytes number other).length := by
  have hle : ∀ type other : WireType,
      (keyBytes number type).length ≤ (keyBytes number other).length := by
    intro type other
    have htype := type.code_lt
    have hlt := Varint.lt_pow_length (8 * number + other.code.toNat)
    have hpos := Varint.length_ofNat_pos (8 * number + other.code.toNat)
    rw [keyBytes, keyBytes]
    refine Varint.length_ofNat_le_of_lt hpos ?_
    -- Powers of 128 are multiples of eight, so the low three bits do not matter.
    obtain ⟨k, hk⟩ := Nat.exists_eq_succ_of_ne_zero hpos.ne'
    rw [hk, Nat.pow_succ] at hlt ⊢
    omega
  exact Nat.le_antisymm (hle type other) (hle other type)

/-! ## What was read -/

namespace Varint

/-- Digits that were read are at least as many as the number has. -/
lemma length_readFrom {seen value : Nat} {input rest : Bytes}
    (h : readFrom seen input = some (value, rest)) :
    (ofNat value).length + rest.length ≤ input.length := by
  induction input generalizing seen value with
  | nil => simp [readFrom] at h
  | cons d input ih =>
    unfold readFrom at h
    split at h
    · rename_i hlast
      split at h
      · cases h
      · simp only [Option.some.injEq, Prod.mk.injEq] at h
        obtain ⟨rfl, rfl⟩ := h
        have hone : (ofNat d.toNat).length ≤ 1 :=
          (length_ofNat_le _ 0).mpr (UInt8.lt_iff_toNat_lt.mp hlast)
        rw [List.length_cons]
        omega
    · split at h
      · cases h
      · obtain ⟨⟨high, rest'⟩, hr, he⟩ := Option.map_eq_some_iff.1 h
        simp only [Prod.mk.injEq] at he
        obtain ⟨rfl, rfl⟩ := he
        have hhigh := ih hr
        have hlow : d.toNat - 128 < 128 := by
          have := d.toNat_lt
          omega
        have hdigits : (ofNat (d.toNat - 128 + 128 * high)).length ≤ (ofNat high).length + 1 := by
          have := lt_pow_length high
          refine length_ofNat_le_of_lt (Nat.succ_pos _) ?_
          rw [Nat.pow_succ]
          omega
        rw [List.length_cons]
        omega

lemma length_read? {w : UInt64} {input rest : Bytes} (h : read? input = some (w, rest)) :
    (ofNat w.toNat).length + rest.length ≤ input.length := by
  obtain ⟨⟨value, rest'⟩, hr, he⟩ := Option.map_eq_some_iff.1 h
  simp only [Prod.mk.injEq] at he
  obtain ⟨rfl, rfl⟩ := he
  have hword : (ofNat value.toUInt64.toNat).length ≤ (ofNat value).length :=
    length_ofNat_mono (Nat.mod_le _ _)
  have := length_readFrom hr
  omega

end Varint

lemma length_readKey? {number : Nat} {type : KeyType} {input rest : Bytes} (written : WireType)
    (h : readKey? input = some ((number, type), rest)) :
    (keyBytes number written).length + rest.length ≤ input.length := by
  unfold readKey? at h
  split at h
  · cases h
  · rename_i word rest' hr
    have hdigits := Varint.length_read? hr
    split at h
    · cases h
    · split at h
      · cases h
      · split at h
        · cases h
        · simp only [Option.some.injEq, Prod.mk.injEq] at h
          obtain ⟨⟨rfl, rfl⟩, rfl⟩ := h
          have hkey : (keyBytes (word.toNat / 8) .varint).length ≤
              (Varint.ofNat word.toNat).length := by
            refine Varint.length_ofNat_mono ?_
            show 8 * (word.toNat / 8) + 0 ≤ word.toNat
            omega
          rw [length_keyBytes _ written .varint]
          omega

/-- What `splitExact?` splits. -/
lemma splitExact?_eq_some {n : Nat} {input front rest : Bytes}
    (h : splitExact? n input = some (front, rest)) :
    front.length = n ∧ front.length + rest.length = input.length := by
  simp only [splitExact?, List.splitAt_eq] at h
  split at h
  · rename_i hlen
    simp only [Option.some.injEq, Prod.mk.injEq] at h
    obtain ⟨rfl, rfl⟩ := h
    refine ⟨hlen, ?_⟩
    rw [← List.length_append, List.take_append_drop]
  · cases h

/-- A payload took at least the bytes of its canonical spelling. -/
lemma length_readPayload? {type : KeyType} {raw : Raw} {input rest : Bytes}
    (h : readPayload? type input = some (raw, rest)) :
    raw.bytes.length + rest.length ≤ input.length := by
  cases type <;> simp only [readPayload?] at h
  case varint =>
    obtain ⟨⟨w, r⟩, hr, he⟩ := Option.map_eq_some_iff.1 h
    simp only [Prod.mk.injEq] at he
    obtain ⟨rfl, rfl⟩ := he
    exact Varint.length_read? hr
  case fixed64 =>
    obtain ⟨⟨w, r⟩, hr, he⟩ := Option.map_eq_some_iff.1 h
    simp only [Prod.mk.injEq] at he
    obtain ⟨rfl, rfl⟩ := he
    obtain ⟨hfront, hlen⟩ := splitExact?_eq_some hr
    show 8 + _ ≤ _
    omega
  case delimited =>
    split at h
    · cases h
    · rename_i len r hl
      obtain ⟨⟨body, r'⟩, hr, he⟩ := Option.map_eq_some_iff.1 h
      simp only [Prod.mk.injEq] at he
      obtain ⟨rfl, rfl⟩ := he
      obtain ⟨hfront, hlen⟩ := splitExact?_eq_some hr
      have hdigits := Varint.length_read? hl
      rw [Raw.bytes, ← delimitedLen_eq, hfront, delimitedLen_of_lt len.toNat_lt]
      omega
  case fixed32 =>
    obtain ⟨⟨w, r⟩, hr, he⟩ := Option.map_eq_some_iff.1 h
    simp only [Prod.mk.injEq] at he
    obtain ⟨rfl, rfl⟩ := he
    obtain ⟨-, hlen⟩ := splitExact?_eq_some hr
    show 0 + _ ≤ _
    omega
  all_goals cases h

/-- **A field took at least the bytes of its canonical spelling.** -/
theorem length_readField? {budget number : Nat} {raw : Raw} {input rest : Bytes}
    (written : WireType) (h : readField? budget input = some ((number, raw), rest)) :
    (keyBytes number written).length + raw.bytes.length + rest.length ≤ input.length := by
  unfold readField? at h
  split at h
  · cases h
  · rename_i number' rest' hk
    have hkey := length_readKey? written hk
    split at h
    · cases h
    · obtain ⟨r, hr, he⟩ := Option.map_eq_some_iff.1 h
      simp only [Prod.mk.injEq] at he
      obtain ⟨⟨rfl, rfl⟩, rfl⟩ := he
      have hskip := skipGroups_le hr
      show _ + 0 + _ ≤ _
      omega
  · rename_i number' type rest' _ hk
    have hkey := length_readKey? written hk
    obtain ⟨⟨raw', r⟩, hr, he⟩ := Option.map_eq_some_iff.1 h
    simp only [Prod.mk.injEq] at he
    obtain ⟨⟨rfl, rfl⟩, rfl⟩ := he
    have hpayload := length_readPayload? hr
    omega

lemma length_readWords?_go {seen ws : List UInt64} {input : Bytes}
    (h : readWords?.go seen input = some ws) :
    (ws.flatMap fun w => Varint.ofNat w.toNat).length ≤
      (seen.reverse.flatMap fun w => Varint.ofNat w.toNat).length + input.length := by
  induction hn : input.length using Nat.strongRecOn generalizing seen input with
  | _ n ih =>
    subst hn
    unfold readWords?.go at h
    split at h
    · obtain rfl : seen.reverse = ws := by simpa using h
      exact Nat.le_add_right _ _
    · split at h
      · exact absurd h (by simp)
      · rename_i b bs word rest hread
        have hrest := ih _ (Varint.read?_shorter hread) h rfl
        have hdigits := Varint.length_read? hread
        rw [List.reverse_cons, List.flatMap_append, List.length_append, List.flatMap_singleton]
          at hrest
        omega

/-- The words of a packed list took at least their digits. -/
lemma length_readWords? {body : Bytes} {ws : List UInt64} (h : readWords? body = some ws) :
    (ws.flatMap fun w => Varint.ofNat w.toNat).length ≤ body.length := by
  simpa using length_readWords?_go h

lemma ScalarType.length_words_le (type : ScalarType) (ws : List UInt64) :
    ((ws.map fun w => Item.word (type.normalize w)).reverse.flatMap Item.wordBytes).length ≤
      2 * (ws.flatMap fun w => Varint.ofNat w.toNat).length := by
  induction ws with
  | nil => exact Nat.zero_le _
  | cons w ws ih =>
      have hword := type.length_normalize_le w
      rw [List.map_cons, List.reverse_cons, List.flatMap_append, List.flatMap_singleton,
        List.flatMap_cons, List.length_append, List.length_append, Item.wordBytes]
      omega

lemma utf8_of_ofUtf8? {body : Bytes} {s : String} (h : ofUtf8? body = some s) : utf8 s = body := by
  rw [ofUtf8?, String.fromUTF8?] at h
  split at h
  · obtain rfl := Option.some.inj h
    rfl
  · exact absurd h (by simp)

end ProfilePipeline.Wire
