/-!
# Attributes

The values that an endpoint carries to the router beside its route: scalars, class names, constants of
enumerations, lists, and maps with entries in order. Floating point values are kept as bit patterns.

* `Attribute.put`: sets an entry of a map; a key keeps the place where it first stood.
-/

namespace Routecraft

inductive Attribute where
  | boolean (b : Bool)
  | byte (n : Int8)
  | char (c : Char)
  | short (n : Int16)
  | int (n : Int32)
  | long (n : Int64)
  | float (bits : UInt32)
  | double (bits : UInt64)
  | string (s : String)
  | classRef (name : String)
  | enum (type constant : String)
  | list (items : List Attribute)
  | map (entries : List (String × Attribute))
  deriving Repr, Inhabited

abbrev AttributeMap := List (String × Attribute)

namespace Attribute

def kindName : Attribute → String
  | boolean _ => "boolean"
  | byte _ => "byte"
  | char _ => "char"
  | short _ => "short"
  | int _ => "int"
  | long _ => "long"
  | float _ => "float"
  | double _ => "double"
  | string _ => "string"
  | classRef _ => "class"
  | enum _ _ => "enum"
  | list _ => "list"
  | map _ => "map"

/-- Sets an entry; a new key goes to the end. -/
def put (entries : AttributeMap) (key : String) (value : Attribute) : AttributeMap :=
  if entries.any (·.1 == key) then
    entries.map fun (k, v) => if k == key then (k, value) else (k, v)
  else entries ++ [(key, value)]

end Attribute

end Routecraft
