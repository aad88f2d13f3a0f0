import ProfilePipeline.Payload.Basic

/-!
# Dangling references

Indices of a payload go to the wire uninterpreted.  A producer may check beforehand that each one
resolves within its table.

* `Payload.checkIndices` — stops at the first reference that does not resolve.
* `Payload.references` — every reference that is checked, in the order of the check, as an
  unbounded integer with the table it points into.
* `Reference.Resolves` — zero, or a position of the table.
-/

namespace ProfilePipeline.Payload

/-- A reference that does not resolve.  The index is saturated to 63 bits. -/
structure IndexError where
  entity : String
  position : Nat
  field : String
  index : Int64
  table : String
  len : Nat
  deriving DecidableEq, Repr

namespace IndexError

/-- The text of the error. -/
def message (e : IndexError) : String :=
  e.entity ++ "[" ++ toString e.position ++ "]." ++ e.field ++ " = " ++ toString e.index.toInt ++
    " is out of range for " ++ e.table ++ " of length " ++ toString e.len

end IndexError

/-- A table that is referred to, by name and length. -/
structure Table where
  name : String
  len : Nat
  deriving DecidableEq, Repr

namespace Table

/-- Checks a signed index. -/
def check (t : Table) (entity : String) (position : Nat) (field : String) (index : Int64) :
    Except IndexError Unit :=
  if index = 0 ∨ (0 ≤ index ∧ index.toInt.toNat < t.len) then .ok ()
  else .error ⟨entity, position, field, index, t.name, t.len⟩

/-- The signed number nearest to an unsigned one. -/
def saturate (index : UInt64) : Int64 :=
  if index ≤ Int64.maxValue.toUInt64 then index.toInt64 else Int64.maxValue

/-- Checks an unsigned index. -/
def checkUnsigned (t : Table) (entity : String) (position : Nat) (field : String)
    (index : UInt64) : Except IndexError Unit :=
  t.check entity position field (saturate index)

/-- Checks a list of unsigned indices in order. -/
def checkAll (t : Table) (entity : String) (position : Nat) (field : String)
    (indices : List UInt64) : Except IndexError Unit :=
  indices.forM (t.checkUnsigned entity position field)

end Table

/-- Runs a check over the elements of a list with their positions. -/
def forEach {α : Type} (check : Nat → α → Except IndexError Unit) (xs : List α) :
    Except IndexError Unit :=
  xs.zipIdx.forM fun (x, i) => check i x

/-! ## The tables of a payload -/

section Tables

variable (p : Payload)

/-- Texts. -/
def strings : Table := ⟨"string_table", p.stringTable.length⟩

/-- Locations. -/
def locationTable : Table := ⟨"locations", p.locations.length⟩

/-- Mappings. -/
def mappingTable : Table := ⟨"mappings", p.mappings.length⟩

/-- Functions. -/
def functionTable : Table := ⟨"functions", p.functions.length⟩

/-- Attributes, by their position among the distinct keys. -/
def attributeTableLen : Table := ⟨"attribute_table", p.attributeTable.size⟩

/-- Links. -/
def linkTable : Table := ⟨"links", p.links.length⟩

end Tables

/-- **The check**: every index of the payload resolves within its table, or the first that does
not is reported. -/
def checkIndices (p : Payload) : Except IndexError Unit := do
  forEach (fun i v => do
    p.strings.check "sample_types" i "type" v.type
    p.strings.check "sample_types" i "unit" v.unit) (p.sampleTypes ++ p.periodType.toList)
  forEach (fun i s => do
    p.locationTable.checkAll "samples" i "location_index" s.locationIndex
    p.attributeTableLen.checkAll "samples" i "attributes" s.attributes
    p.linkTable.checkUnsigned "samples" i "link" s.link
    s.labels.forM fun l => do
      p.strings.check "samples" i "label.key" l.key
      p.strings.check "samples" i "label.str" l.str
      p.strings.check "samples" i "label.num_unit" l.numUnit) p.samples
  forEach (fun i m => do
    p.strings.check "mappings" i "filename" m.filename
    p.strings.check "mappings" i "build_id" m.buildId
    p.attributeTableLen.checkAll "mappings" i "attributes" m.attributes) p.mappings
  forEach (fun i l => do
    p.mappingTable.checkUnsigned "locations" i "mapping_index" l.mappingIndex
    p.attributeTableLen.checkAll "locations" i "attributes" l.attributes
    l.lines.forM fun line =>
      p.functionTable.checkUnsigned "locations" i "line.function_index" line.functionIndex)
    p.locations
  forEach (fun i index => p.locationTable.check "location_indices" i "value" index)
    p.locationIndices
  forEach (fun i f => do
    p.strings.check "functions" i "name" f.name
    p.strings.check "functions" i "system_name" f.systemName
    p.strings.check "functions" i "filename" f.filename) p.functions
  forEach (fun i u => do
    p.strings.check "attribute_units" i "attribute_key" u.attributeKey
    p.strings.check "attribute_units" i "unit" u.unit) p.attributeUnits
  forEach (fun i comment => p.strings.check "comments" i "value" comment) p.comments
  p.strings.check "profile" 0 "drop_frames" p.dropFrames
  p.strings.check "profile" 0 "keep_frames" p.keepFrames
  p.strings.check "profile" 0 "default_sample_type" p.defaultSampleType

/-! ## The references of a payload -/

/-- A place of a payload that refers into a table. -/
structure Reference where
  entity : String
  position : Nat
  field : String
  index : Int
  table : Table
  deriving DecidableEq, Repr

namespace Reference

/-- Zero always resolves; any other index has to be a position of the table. -/
def Resolves (r : Reference) : Prop := r.index = 0 ∨ (0 ≤ r.index ∧ r.index < r.table.len)

instance (r : Reference) : Decidable r.Resolves := inferInstanceAs (Decidable (_ ∨ _))

/-- What is reported about a reference. -/
def error (r : Reference) : IndexError :=
  ⟨r.entity, r.position, r.field, Int64.ofInt (min r.index Int64.maxValue.toInt), r.table.name,
    r.table.len⟩

end Reference

/-- The elements of a list with their positions, each turned into references. -/
def referencesOf {α : Type} (f : Nat → α → List Reference) (xs : List α) : List Reference :=
  xs.zipIdx.flatMap fun (x, i) => f i x

/-- **Every reference that the check looks at, in its order.** -/
def references (p : Payload) : List Reference :=
  referencesOf (fun i v =>
    [⟨"sample_types", i, "type", v.type.toInt, p.strings⟩,
      ⟨"sample_types", i, "unit", v.unit.toInt, p.strings⟩])
    (p.sampleTypes ++ p.periodType.toList) ++
  referencesOf (fun i s =>
    s.locationIndex.map (⟨"samples", i, "location_index", ·.toNat, p.locationTable⟩) ++
    s.attributes.map (⟨"samples", i, "attributes", ·.toNat, p.attributeTableLen⟩) ++
    [⟨"samples", i, "link", s.link.toNat, p.linkTable⟩] ++
    s.labels.flatMap fun l =>
      [⟨"samples", i, "label.key", l.key.toInt, p.strings⟩,
        ⟨"samples", i, "label.str", l.str.toInt, p.strings⟩,
        ⟨"samples", i, "label.num_unit", l.numUnit.toInt, p.strings⟩]) p.samples ++
  referencesOf (fun i m =>
    [⟨"mappings", i, "filename", m.filename.toInt, p.strings⟩,
      ⟨"mappings", i, "build_id", m.buildId.toInt, p.strings⟩] ++
    m.attributes.map (⟨"mappings", i, "attributes", ·.toNat, p.attributeTableLen⟩)) p.mappings ++
  referencesOf (fun i l =>
    [⟨"locations", i, "mapping_index", l.mappingIndex.toNat, p.mappingTable⟩] ++
    l.attributes.map (⟨"locations", i, "attributes", ·.toNat, p.attributeTableLen⟩) ++
    l.lines.map (⟨"locations", i, "line.function_index", ·.functionIndex.toNat, p.functionTable⟩))
    p.locations ++
  referencesOf (fun i index =>
    [⟨"location_indices", i, "value", index.toInt, p.locationTable⟩]) p.locationIndices ++
  referencesOf (fun i f =>
    [⟨"functions", i, "name", f.name.toInt, p.strings⟩,
      ⟨"functions", i, "system_name", f.systemName.toInt, p.strings⟩,
      ⟨"functions", i, "filename", f.filename.toInt, p.strings⟩]) p.functions ++
  referencesOf (fun i u =>
    [⟨"attribute_units", i, "attribute_key", u.attributeKey.toInt, p.strings⟩,
      ⟨"attribute_units", i, "unit", u.unit.toInt, p.strings⟩]) p.attributeUnits ++
  referencesOf (fun i comment => [⟨"comments", i, "value", comment.toInt, p.strings⟩]) p.comments ++
  [⟨"profile", 0, "drop_frames", p.dropFrames.toInt, p.strings⟩,
    ⟨"profile", 0, "keep_frames", p.keepFrames.toInt, p.strings⟩,
    ⟨"profile", 0, "default_sample_type", p.defaultSampleType.toInt, p.strings⟩]

end ProfilePipeline.Payload
