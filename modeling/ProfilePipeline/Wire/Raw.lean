import ProfilePipeline.Wire.Value

/-!
# Reading raw fields

A field can be cut off the front of an input without knowing its message: the key tells how long
the payload is.

* `readField?` — one field and the unread rest, with the payload still uninterpreted.
* `skipGroups` — passes over a group, which holds whole fields up to the end key of the same
  number.  Groups nest, and nesting uses up the same budget as nested messages do.

Every reader consumes at least the key, so a loop over fields ends.
-/

namespace ProfilePipeline.Wire

/-- The payload of a field before its type is known. -/
inductive Raw where
  | varint (word : UInt64)
  | fixed64 (word : UInt64)
  | delimited (body : Bytes)
  /-- Four bytes; no field of a known message has this layout. -/
  | fixed32
  /-- A whole group; no field of a known message has this layout. -/
  | group
  deriving DecidableEq, Repr

/-- What the low three bits of a key can mean. -/
inductive KeyType where
  | varint
  | fixed64
  | delimited
  | startGroup
  | endGroup
  | fixed32
  deriving DecidableEq, Repr

namespace KeyType

/-- The meaning of a code; six and seven have none. -/
def ofCode? (code : Nat) : Option KeyType :=
  match code with
  | 0 => some varint
  | 1 => some fixed64
  | 2 => some delimited
  | 3 => some startGroup
  | 4 => some endGroup
  | 5 => some fixed32
  | _ => none

end KeyType

/-- A key: a word below `2 ^ 32` with a known type and a number above zero. -/
def readKey? (input : Bytes) : Option ((Nat × KeyType) × Bytes) :=
  match Varint.read? input with
  | none => none
  | some (word, rest) =>
    if 0x100000000 ≤ word.toNat then none
    else match KeyType.ofCode? (word.toNat % 8) with
      | none => none
      | some type => if word.toNat / 8 = 0 then none else some ((word.toNat / 8, type), rest)

/-- The first `n` bytes and the rest, if there are that many. -/
def splitExact? (n : Nat) (input : Bytes) : Option (Bytes × Bytes) :=
  let (front, rest) := input.splitAt n
  if front.length = n then some (front, rest) else none

/-- The word whose bytes are given, least significant first. -/
def ofLittleEndian : Bytes → UInt64
  | [] => 0
  | b :: rest => b.toUInt64 ||| (ofLittleEndian rest <<< 8)

/-- The payload of a field that is no group. -/
def readPayload? (type : KeyType) (input : Bytes) : Option (Raw × Bytes) :=
  match type with
  | .varint => (Varint.read? input).map fun (word, rest) => (.varint word, rest)
  | .fixed64 => (splitExact? 8 input).map fun (word, rest) => (.fixed64 (ofLittleEndian word), rest)
  | .delimited =>
    match Varint.read? input with
    | none => none
    | some (len, rest) =>
      (splitExact? len.toNat rest).map fun (body, rest) => (.delimited body, rest)
  | .fixed32 => (splitExact? 4 input).map fun (_, rest) => (.fixed32, rest)
  | .startGroup | .endGroup => none

/-! ## Every reader consumes input -/

theorem readKey?_shorter {input rest : Bytes} {k : Nat × KeyType}
    (h : readKey? input = some (k, rest)) : rest.length < input.length := by
  unfold readKey? at h
  split at h
  · cases h
  · rename_i word rest' hr
    have := Varint.read?_shorter hr
    split at h
    · cases h
    · split at h
      · cases h
      · split at h
        · cases h
        · simp only [Option.some.injEq, Prod.mk.injEq] at h
          exact h.2 ▸ this

theorem splitExact?_le {n : Nat} {input front rest : Bytes}
    (h : splitExact? n input = some (front, rest)) : rest.length ≤ input.length := by
  simp only [splitExact?, List.splitAt_eq] at h
  split at h
  · simp only [Option.some.injEq, Prod.mk.injEq] at h
    simp [← h.2]
  · cases h

theorem readPayload?_le {type : KeyType} {input rest : Bytes} {raw : Raw}
    (h : readPayload? type input = some (raw, rest)) : rest.length ≤ input.length := by
  cases type <;> simp only [readPayload?] at h
  case varint =>
    obtain ⟨⟨w, r⟩, hr, he⟩ := Option.map_eq_some_iff.1 h
    simp only [Prod.mk.injEq] at he
    exact Nat.le_of_lt (Varint.read?_shorter (he.2 ▸ hr))
  case fixed64 =>
    obtain ⟨⟨w, r⟩, hr, he⟩ := Option.map_eq_some_iff.1 h
    simp only [Prod.mk.injEq] at he
    exact splitExact?_le (he.2 ▸ hr)
  case delimited =>
    split at h
    · cases h
    · rename_i len r hl
      obtain ⟨⟨w, r'⟩, hr, he⟩ := Option.map_eq_some_iff.1 h
      simp only [Prod.mk.injEq] at he
      have := Varint.read?_shorter hl
      have := splitExact?_le (he.2 ▸ hr)
      omega
  case fixed32 =>
    obtain ⟨⟨w, r⟩, hr, he⟩ := Option.map_eq_some_iff.1 h
    simp only [Prod.mk.injEq] at he
    exact splitExact?_le (he.2 ▸ hr)
  all_goals cases h

/-! ## Groups and fields -/

/-- The input after the groups `opened` (innermost first) are all closed.  A field inside the
innermost of `d` groups needs a budget above `d`. -/
def skipGroups (budget : Nat) (opened : List Nat) (input : Bytes) : Option Bytes :=
  match opened with
  | [] => some input
  | innermost :: outer =>
    match _h : readKey? input with
    | none => none
    | some ((number, type), rest) =>
      if type = .endGroup then
        if number = innermost then skipGroups budget outer rest else none
      else if budget ≤ opened.length then none
      else if type = .startGroup then skipGroups budget (number :: opened) rest
      else match _h' : readPayload? type rest with
        | none => none
        | some (_, rest) => skipGroups budget opened rest
termination_by input.length
decreasing_by
  · exact readKey?_shorter _h
  · exact readKey?_shorter _h
  · exact Nat.lt_of_le_of_lt (readPayload?_le _h') (readKey?_shorter _h)

/-- One field from the front of the input: its number, its payload, and the unread rest.  An end
key that closes nothing is refused. -/
def readField? (budget : Nat) (input : Bytes) : Option ((Nat × Raw) × Bytes) :=
  match readKey? input with
  | none => none
  | some ((number, .startGroup), rest) =>
    if budget = 0 then none
    else (skipGroups budget [number] rest).map fun rest => ((number, .group), rest)
  | some ((number, type), rest) =>
    (readPayload? type rest).map fun (raw, rest) => ((number, raw), rest)

theorem skipGroups_le {budget : Nat} {opened : List Nat} {input rest : Bytes}
    (h : skipGroups budget opened input = some rest) : rest.length ≤ input.length := by
  induction hn : input.length using Nat.strongRecOn generalizing opened input with
  | _ n ih =>
    subst hn
    unfold skipGroups at h
    split at h
    · simp_all
    · split at h
      · cases h
      · rename_i number type next hk
        have hlt := readKey?_shorter hk
        split at h
        · split at h
          · exact Nat.le_trans (ih _ hlt h rfl) (Nat.le_of_lt hlt)
          · cases h
        · split at h
          · cases h
          · split at h
            · exact Nat.le_trans (ih _ hlt h rfl) (Nat.le_of_lt hlt)
            · split at h
              · cases h
              · rename_i raw after hp
                have hlt' := Nat.lt_of_le_of_lt (readPayload?_le hp) hlt
                exact Nat.le_trans (ih _ hlt' h rfl) (Nat.le_of_lt hlt')

/-- **A field consumes input.** -/
theorem readField?_shorter {budget : Nat} {input rest : Bytes} {f : Nat × Raw}
    (h : readField? budget input = some (f, rest)) : rest.length < input.length := by
  unfold readField? at h
  split at h
  · cases h
  · rename_i number rest' hk
    split at h
    · cases h
    · obtain ⟨r, hr, he⟩ := Option.map_eq_some_iff.1 h
      simp only [Prod.mk.injEq] at he
      have := readKey?_shorter hk
      have := skipGroups_le (he.2 ▸ hr)
      omega
  · rename_i number type rest' _ hk
    obtain ⟨⟨raw, r⟩, hr, he⟩ := Option.map_eq_some_iff.1 h
    simp only [Prod.mk.injEq] at he
    have := readKey?_shorter hk
    have := readPayload?_le (he.2 ▸ hr)
    omega

end ProfilePipeline.Wire
