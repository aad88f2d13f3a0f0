import ProfilePipeline.Double
import ProfilePipeline.Span

/-!
# Documents

A document is plain data: texts, numbers, flags, lists, and objects with named members.  It is what
descriptions are read from and results are shown as, whatever notation is used outside.

* `Document.get` — a member of an object, read as some type.  A missing member is null, and null
  reads as the empty value of most types.
* `doc` — how a value is shown.
* `Document.abridgedBytes`, `Document.abridgedText` — many bytes are shown by a digest.
-/

namespace ProfilePipeline

/-- Plain data. -/
inductive Document where
  | null
  | flag (b : Bool)
  | number (n : Int)
  | text (s : String)
  | list (items : List Document)
  | object (members : List (String × Document))
  deriving Inhabited

/-- What may fail because a document has another form than is expected. -/
abbrev Reading := Except String

/-- Types whose values can be read from documents. -/
class FromDocument (α : Type) where
  of : Document → Reading α

/-- Types whose values can be shown as documents. -/
class ToDocument (α : Type) where
  doc : α → Document

export ToDocument (doc)

namespace Document

variable {α : Type}

/-- A document read as a value. -/
def as [FromDocument α] (d : Document) : Reading α := FromDocument.of d

/-- The member of an object under a key; null if it is missing. -/
def member (d : Document) (key : String) : Document :=
  match d with
  | object members => (members.lookup key).getD null
  | _ => null

/-- A member of an object, read as a value. -/
def get [FromDocument α] (d : Document) (key : String) : Reading α := (d.member key).as

/-- Whether a member of an object is set; a missing one is not. -/
def holds (d : Document) (key : String) : Reading Bool :=
  match d.member key with
  | null => pure false
  | flag b => pure b
  | _ => throw "flag expected"

/-- A member of an object, read as a value; a missing one stands for the given value. -/
def getD [FromDocument α] (d : Document) (key : String) (default : α) : Reading α :=
  match d.member key with
  | null => pure default
  | found => found.as

/-- The first of two members that is not null. -/
def either (d : Document) (a b : String) : Document :=
  match d.member a with
  | null => d.member b
  | found => found

/-- The elements of a list; null is the empty list. -/
def items : Document → Reading (List Document)
  | null => pure []
  | list ds => pure ds
  | _ => throw "list expected"

/-- A part of a list, read as a value; parts past the end are null. -/
def part [FromDocument α] (d : Document) (i : Nat) : Reading α := do
  ((← d.items).getD i null).as

/-- A name, read as what it stands for.  Null is the empty name. -/
def choice (names : List (String × α)) : Document → Reading α
  | null => among "" names
  | text s => among s names
  | _ => throw "name expected"
where
  among (s : String) (names : List (String × α)) : Reading α :=
    match names.lookup s with
    | some a => pure a
    | none => throw ("unknown name " ++ s)

/-- What has been read by other means, unless there is nothing. -/
def sure (what : String) : Option α → Reading α
  | some a => pure a
  | none => throw (what ++ " expected")

end Document

open Document (null flag number text)

/-! ## Reading -/

section Reading

variable {α β : Type}

instance : FromDocument Document := ⟨pure⟩

instance : FromDocument Int where
  of
    | .null => pure 0
    | .number n => pure n
    | _ => throw "number expected"

instance : FromDocument Nat where
  of d := do
    let n : Int ← d.as
    if n < 0 then throw "natural number expected" else pure n.toNat

instance : FromDocument Bool where
  of
    | .null => pure false
    | .flag b => pure b
    | _ => throw "flag expected"

instance : FromDocument String where
  of
    | .null => pure ""
    | .text s => pure s
    | _ => throw "text expected"

instance [FromDocument α] : FromDocument (List α) := ⟨fun d => do (← d.items).mapM (·.as)⟩

instance [FromDocument α] : FromDocument (Option α) where
  of
    | .null => pure none
    | d => some <$> d.as

instance [FromDocument α] [FromDocument β] : FromDocument (α × β) where
  of d := do
    match ← d.items with
    | [a, b] => return (← a.as, ← b.as)
    | _ => throw "pair expected"

instance : FromDocument UInt64 := ⟨fun d => Nat.toUInt64 <$> d.as⟩

instance : FromDocument Int64 := ⟨fun d => Int64.ofInt <$> d.as⟩

instance : FromDocument Int32 := ⟨fun d => Int32.ofInt <$> d.as⟩

/-- Larger numbers than fit stand for the largest one. -/
instance : FromDocument UInt32 := ⟨fun d => (fun n => (min n 4294967295).toUInt32) <$> d.as⟩

/-- Bytes are written in hexadecimal. -/
instance : FromDocument (List UInt8) :=
  ⟨fun d => do Document.sure "hexadecimal text" (readHex? (← d.as))⟩

/-- A number that is written in hexadecimal. -/
def Document.hexNat (d : Document) : Reading Nat := do
  Document.sure "hexadecimal number" (readHexNat? (← d.as))

/-- Doubles are written by their bits. -/
instance : FromDocument Double := ⟨fun d => (fun n => ⟨n.toUInt64⟩) <$> d.hexNat⟩

end Reading

/-! ## Showing -/

section Showing

variable {α β : Type}

instance : ToDocument Document := ⟨id⟩

instance : ToDocument Int := ⟨number⟩

instance : ToDocument Nat := ⟨fun n => number n⟩

instance : ToDocument UInt64 := ⟨fun n => number n.toNat⟩

instance : ToDocument Int64 := ⟨fun n => number n.toInt⟩

instance : ToDocument Bool := ⟨flag⟩

instance : ToDocument String := ⟨text⟩

instance [ToDocument α] : ToDocument (List α) := ⟨fun as => .list (as.map doc)⟩

instance [ToDocument α] : ToDocument (Option α) := ⟨fun a => (a.map doc).getD null⟩

instance [ToDocument α] [ToDocument β] : ToDocument (α × β) := ⟨fun (a, b) => .list [doc a, doc b]⟩

/-- Eight bytes in hexadecimal. -/
def hexWord (w : UInt64) : String := renderHex (bigEndian 8 w.toNat)

instance : ToDocument Double := ⟨fun x => text (hexWord x.bits)⟩

namespace Document

/-- Bytes in hexadecimal. -/
def hex (bytes : List UInt8) : Document := text (renderHex bytes)

/-- The 64-bit FNV-1a digest, which takes each byte in before it multiplies. -/
def fnv1a (bytes : List UInt8) : UInt64 :=
  bytes.foldl (fun h b => (h ^^^ b.toUInt64) * 0x100000001b3) 0xcbf29ce484222325

/-- Bytes; many are shown by their number, a digest, and how they begin and end. -/
def abridgedBytes (bytes : List UInt8) : Document :=
  let len := bytes.length
  if len ≤ 4096 then hex bytes
  else
    object [("len", doc len), ("fnv1a64", doc (hexWord (fnv1a bytes))),
      ("head", hex (bytes.take 64)), ("tail", hex (bytes.drop (len - 64)))]

/-- A text; a long one is shown by a digest. -/
def abridgedText (s : String) : Document :=
  if s.utf8ByteSize ≤ 4096 then text s
  else object [("digest", abridgedBytes s.toByteArray.data.toList)]

end Document

end Showing

end ProfilePipeline
