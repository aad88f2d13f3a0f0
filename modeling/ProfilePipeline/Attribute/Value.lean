import ProfilePipeline.Double

/-!
# Attribute values

A value is a text, a flag, an integer or a double, or a list of values of one of these kinds.

* `AttributeValue.same` — values of different kinds differ, and doubles compare numerically.
* `AttributeValue.truncated` — texts, and each text of a list, cut to a number of characters.
* `AttributeValue.render` — the text of a value.
-/

namespace ProfilePipeline

/-- The value of an attribute.  Lists hold one kind of value. -/
inductive AttributeValue where
  | text (s : String)
  | bool (b : Bool)
  | int (n : Int64)
  | double (x : Double)
  | texts (ss : List String)
  | bools (bs : List Bool)
  | ints (ns : List Int64)
  | doubles (xs : List Double)
  deriving Repr, Inhabited

/-- The first `limit` characters of a text; a character is a Unicode scalar value. -/
def truncateText (s : String) (limit : Nat) : String :=
  if s.length ≤ limit then s else String.ofList (s.toList.take limit)

namespace AttributeValue

/-- Equality of values: kind by kind, with doubles compared as numbers. -/
def same : AttributeValue → AttributeValue → Bool
  | text s, text t => s == t
  | bool b, bool c => b == c
  | int m, int n => m == n
  | double x, double y => x.same y
  | texts ss, texts ts => ss == ts
  | bools bs, bools cs => bs == cs
  | ints ms, ints ns => ms == ns
  | doubles xs, doubles ys => xs.length == ys.length && (xs.zip ys).all fun (x, y) => x.same y
  | _, _ => false

instance : BEq AttributeValue := ⟨same⟩

/-- The value with every text in it cut to `limit` characters; other kinds are as they were. -/
def truncated (limit : Nat) : AttributeValue → AttributeValue
  | text s => text (truncateText s limit)
  | texts ss => texts (ss.map fun s => truncateText s limit)
  | value => value

/-- The name of a truth value. -/
def renderBool (b : Bool) : String := if b then "true" else "false"

/-- Elements between brackets. -/
def renderList (elements : List String) : String :=
  "[" ++ String.intercalate ", " elements ++ "]"

/-- The text of a value.  A text stands for itself, without quotes. -/
def render : AttributeValue → String
  | text s => s
  | bool b => renderBool b
  | int n => toString n.toInt
  | double x => x.render
  | texts ss => renderList ss
  | bools bs => renderList (bs.map renderBool)
  | ints ns => renderList (ns.map fun n => toString n.toInt)
  | doubles xs => renderList (xs.map Double.render)

end AttributeValue

end ProfilePipeline
