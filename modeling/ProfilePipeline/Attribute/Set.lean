import ProfilePipeline.Attribute.Value

/-!
# Attribute sets

Keys are unique and stay where they were first inserted; a later value replaces the earlier one in
place.  Insertion order is what goes on the wire, but equality ignores it.

* `Attributes.insert`, `Attributes.extend` — the operations that build a set.
* `Attributes.get?` — the view through which they are described.
* `Attributes.same` — same size, and every entry of the left found equal on the right.
-/

namespace ProfilePipeline

/-- A set of attributes in insertion order. -/
structure Attributes where
  entries : List (String × AttributeValue)
  keys_nodup : (entries.map Prod.fst).Nodup

namespace Attributes

/-- The keys in insertion order. -/
def keys (a : Attributes) : List String := a.entries.map Prod.fst

/-- The set without attributes. -/
def empty : Attributes := ⟨[], by simp⟩

instance : Inhabited Attributes := ⟨empty⟩

/-- The value that the first entry with a key has. -/
def lookup (key : String) : List (String × AttributeValue) → Option AttributeValue
  | [] => none
  | (k, v) :: rest => if k = key then some v else lookup key rest

/-- The entries with a key set to a value: in place if the key is there, else at the end. -/
def put (key : String) (value : AttributeValue) :
    List (String × AttributeValue) → List (String × AttributeValue)
  | [] => [(key, value)]
  | (k, v) :: rest => if k = key then (k, value) :: rest else (k, v) :: put key value rest

/-- Setting a key keeps the keys where they are and adds the key at the end if it is new. -/
theorem map_fst_put (key : String) (value : AttributeValue)
    (entries : List (String × AttributeValue)) :
    (put key value entries).map Prod.fst =
      if key ∈ entries.map Prod.fst then entries.map Prod.fst
      else entries.map Prod.fst ++ [key] := by
  induction entries with
  | nil => simp [put]
  | cons entry rest ih =>
    obtain ⟨k, v⟩ := entry
    by_cases h : k = key
    · simp [put, h]
    · have h' : ¬ key = k := fun e => h e.symm
      simp only [put, h, ↓reduceIte, List.map_cons, ih, List.mem_cons, h', false_or]
      split <;> simp

/-- Setting a key leaves the keys distinct. -/
theorem nodup_put (key : String) (value : AttributeValue)
    {entries : List (String × AttributeValue)} (h : (entries.map Prod.fst).Nodup) :
    ((put key value entries).map Prod.fst).Nodup := by
  rw [map_fst_put]
  split
  · exact h
  · rename_i hk
    rw [List.nodup_append]
    exact ⟨h, by simp, fun a ha b hb => by
      simp only [List.mem_singleton] at hb
      exact fun e => hk (hb ▸ e ▸ ha)⟩

/-- The set with a key set to a value. -/
def insert (a : Attributes) (key : String) (value : AttributeValue) : Attributes :=
  ⟨put key value a.entries, nodup_put key value a.keys_nodup⟩

/-- The value of a key. -/
def get? (a : Attributes) (key : String) : Option AttributeValue := lookup key a.entries

/-- Whether a key has a value. -/
def contains (a : Attributes) (key : String) : Bool := (a.get? key).isSome

/-- The number of attributes. -/
def size (a : Attributes) : Nat := a.entries.length

/-- Whether there are no attributes. -/
def isEmpty (a : Attributes) : Bool := a.entries.isEmpty

/-- The set with all pairs of a list set in order. -/
def insertAll (a : Attributes) (pairs : List (String × AttributeValue)) : Attributes :=
  pairs.foldl (fun a (key, value) => a.insert key value) a

/-- The set that a list of pairs gives when they are set in order. -/
def ofList (pairs : List (String × AttributeValue)) : Attributes := empty.insertAll pairs

/-- The set with the attributes of another one set on top; the other wins. -/
def extend (a b : Attributes) : Attributes := a.insertAll b.entries

/-- **Equality ignores order.** -/
def same (a b : Attributes) : Bool :=
  a.size == b.size &&
    a.entries.all fun (key, value) =>
      match b.get? key with
      | some other => value.same other
      | none => false

instance : BEq Attributes := ⟨same⟩

/-- The text of a set: `key=value` pairs between braces. -/
def render (a : Attributes) : String :=
  "\x7b" ++ String.intercalate ", " (a.entries.map fun (key, value) => key ++ "=" ++ value.render)
    ++ "\x7d"

/-! ## Operations through the view -/

/-- **A look-up after an insertion.** -/
theorem get?_insert (a : Attributes) (key k : String) (value : AttributeValue) :
    (a.insert key value).get? k = if k = key then some value else a.get? k := by
  have go : ∀ entries : List (String × AttributeValue),
      lookup k (put key value entries) = if k = key then some value else lookup k entries := by
    intro entries
    induction entries with
    | nil =>
      by_cases h : k = key
      · simp [put, lookup, h]
      · have h' : ¬ key = k := fun e => h e.symm
        simp [put, lookup, h, h']
    | cons entry rest ih =>
      obtain ⟨k', v'⟩ := entry
      by_cases h : k' = key
      · by_cases hk : k = key
        · simp [put, lookup, h, hk]
        · have hk' : ¬ key = k := fun e => hk e.symm
          simp [put, lookup, h, hk, hk']
      · simp only [put, h, ↓reduceIte, lookup, ih]
        by_cases hk : k' = k
        · have : ¬ k = key := fun e => h (hk.trans e)
          simp [hk, this]
        · simp [hk]
  exact go a.entries

/-- The keys after an insertion. -/
theorem keys_insert (a : Attributes) (key : String) (value : AttributeValue) :
    (a.insert key value).keys = if key ∈ a.keys then a.keys else a.keys ++ [key] :=
  map_fst_put key value a.entries

end Attributes

end ProfilePipeline
