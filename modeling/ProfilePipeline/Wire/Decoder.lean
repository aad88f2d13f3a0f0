import ProfilePipeline.Wire.Content
import ProfilePipeline.Wire.Raw

/-!
# Reading messages

A message is read field by field into its content, starting from the blank one.  A later scalar
replaces an earlier one, messages merge, repeated fields append, lists of scalars may come packed
or one by one, and setting a member of a choice clears the other members.  Fields without a
descriptor line are passed over.

Messages nest at most `depthLimit` deep below the outer one.  The budget that is left is also what
groups may use, and a field without a descriptor line needs some of it: in a message at the limit
such a field is refused.

While fields are read a slot holds its newest item first, so that an item more costs the same
however many there are.  The slots are turned around when the whole message is read.

* `Slot.merge?` — what one raw field does to its slot.
* `Content.absorb?` — the loop over the fields of one message.
* `Content.inOrder` — the slots of a message, and of the messages in it, turned around.
* `Content.decode?` — a whole message.
-/

namespace ProfilePipeline.Wire

/-- How deep messages nest below the outer one. -/
def depthLimit : Nat := 100

/-- The words of a packed list; the last one has to end where the list ends. -/
def readWords? (input : Bytes) : Option (List UInt64) := go [] input
where
  /-- Collects words, last one first. -/
  go (words : List UInt64) (input : Bytes) : Option (List UInt64) :=
    match input with
    | [] => some words.reverse
    | b :: bs =>
      match _h : Varint.read? (b :: bs) with
      | none => none
      | some (word, rest) => go (word :: words) rest
  termination_by input.length
  decreasing_by exact Varint.read?_shorter _h

/-- The text with the given UTF-8 bytes, if they are well formed. -/
def ofUtf8? (b : Bytes) : Option String := String.fromUTF8? ⟨b.toArray⟩

variable {μ : Type}

/-- What a raw field does to the slot of its descriptor line, newest item first.  `nested` reads a
body into the content of a message that is nested in this one. -/
def Slot.merge? (nested : μ → Content → Bytes → Option Content) (schema : Schema μ)
    (spec : FieldSpec μ) (slot : Slot) (raw : Raw) : Option Slot :=
  match spec.type, raw with
  | .scalar type, .varint w =>
    match spec.label with
    | .repeated => some (.word (type.normalize w) :: slot)
    | _ => some [.word (type.normalize w)]
  | .scalar type, .delimited body =>
    match spec.label with
    | .repeated =>
      (readWords? body).map fun words =>
        words.foldl (fun slot w => .word (type.normalize w) :: slot) slot
    | _ => none
  | .fixed64, .fixed64 w | .double, .fixed64 w =>
    match spec.label with
    | .repeated => some (.fixed64 w :: slot)
    | _ => some [.fixed64 w]
  | .text, .delimited body =>
    (ofUtf8? body).map fun s =>
      match spec.label with
      | .repeated => .text s :: slot
      | _ => [.text s]
  | .bytes, .delimited body =>
    match spec.label with
    | .repeated => some (.bytes body :: slot)
    | _ => some [.bytes body]
  | .message name, .delimited body =>
    match spec.label, slot with
    | .repeated, _ =>
      (nested name (.blank (schema name)) body).map fun slots => .message slots :: slot
    | _, .message slots :: _ => (nested name slots body).map fun slots => [.message slots]
    | _, _ => (nested name (.blank (schema name)) body).map fun slots => [.message slots]
  | _, _ => none

/-- Replaces the slot at a position.  A member of a choice clears the slots of the other members,
which are those whose lines are members too. -/
def Content.store (specs : List (FieldSpec μ)) (content : Content) (position : Nat) (slot : Slot)
    (clearsChoice : Bool) : Content :=
  if clearsChoice then
    (specs.zip content).mapIdx fun i (spec, old) =>
      if i = position then slot
      else if spec.label = .choice then [] else old
  else content.set position slot

/-- Reads the fields of one message into its content. -/
def Content.absorb? (nested : μ → Content → Bytes → Option Content) (schema : Schema μ)
    (budget : Nat) (specs : List (FieldSpec μ)) (content : Content) (input : Bytes) :
    Option Content :=
  match input with
  | [] => some content
  | b :: bs =>
    match _h : readField? budget (b :: bs) with
    | none => none
    | some ((number, raw), rest) =>
      match specs.findIdx? (·.number == number) with
      | none =>
        if budget = 0 then none else Content.absorb? nested schema budget specs content rest
      | some position =>
        match specs[position]?, content[position]? with
        | some spec, some slot =>
          match Slot.merge? nested schema spec slot raw with
          | none => none
          | some slot =>
            Content.absorb? nested schema budget specs
              (content.store specs position slot (spec.label = .choice)) rest
        | _, _ => none
termination_by input.length
decreasing_by all_goals exact readField?_shorter _h

/-- Reads a body into the content of a message, with a budget for the messages nested in it. -/
def Content.read? (schema : Schema μ) : Nat → μ → Content → Bytes → Option Content
  | 0, name, content, input =>
    Content.absorb? (fun _ _ _ => none) schema 0 (schema name) content input
  | budget + 1, name, content, input =>
    Content.absorb? (Content.read? schema budget) schema (budget + 1) (schema name) content input

mutual

/-- An item whose messages hold their slots newest item first, turned around. -/
def Item.inOrder : Item → Item
  | .message slots => .message (Content.inOrder slots)
  | item => item

/-- The items of a slot turned around, in front of `later` ones. -/
def Slot.inOrder (later : Slot) : Slot → Slot
  | [] => later
  | item :: items => Slot.inOrder (item.inOrder :: later) items

/-- The slots of a message turned around. -/
def Content.inOrder : Content → Content
  | [] => []
  | slot :: slots => Slot.inOrder [] slot :: Content.inOrder slots

end

/-- **A whole message**, or nothing if the input breaks a rule of the format. -/
def Content.decode? (schema : Schema μ) (name : μ) (input : Bytes) : Option Content :=
  (Content.read? schema depthLimit name (.blank (schema name)) input).map Content.inOrder

end ProfilePipeline.Wire
