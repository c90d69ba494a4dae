import Routecraft.Bytecode.DataType

/-!
# Slot types

What the checker knows of the value in a stack slot or a local: the kind of a plain value, the class of a
reference, or that an object has been allocated whose constructor has not run. The small integer types
share one kind.
-/

namespace Routecraft.Bytecode

inductive SlotType where
  | int
  | long
  | float
  | double
  | null
  | ref (name : String)
  /-- An object of the class before its constructor has run. -/
  | raw (name : String)
  deriving DecidableEq, Repr, Inhabited

namespace SlotType

/-- The slot type of values of a data type. -/
def of : DataType → SlotType
  | .boolean | .byte | .char | .short | .int => int
  | .long => long
  | .float => float
  | .double => double
  | t => ref t.className

/-- Whether the value is a reference to an initialized object. -/
def isReference : SlotType → Bool
  | null => true
  | ref _ => true
  | _ => false

def display : SlotType → String
  | int => "int"
  | long => "long"
  | float => "float"
  | double => "double"
  | null => "null"
  | ref name => name
  | raw name => "uninitialized " ++ name

end SlotType

end Routecraft.Bytecode
