import Routecraft.Decimal.Reading
import Routecraft.Machine.Error
import Routecraft.Machine.Value

/-!
# Values from request text

How the text of a request becomes a value of the type that a parameter asks for.

* `readPrimitive`: a plain value of a primitive type.
* `readAs`: a value of a class: a text, a box, or a record that wraps the text.
-/

namespace Routecraft.Machine

/-- The smallest and the largest value of a primitive type whose values are integers. -/
def integerRange? : Primitive → Option (Int × Int)
  | .byte => some (Int8.minValue.toInt, Int8.maxValue.toInt)
  | .short => some (Int16.minValue.toInt, Int16.maxValue.toInt)
  | .int => some (Int32.minValue.toInt, Int32.maxValue.toInt)
  | .long => some (Int64.minValue.toInt, Int64.maxValue.toInt)
  | _ => none

/-- The integer of a primitive type that a text stands for. -/
def readInteger? (kind : Primitive) (raw : String) : Option Int := do
  let (low, high) ← integerRange? kind
  Decimal.readIntIn? low high raw.toList

def readPrimitive? (kind : Primitive) (raw : String) : Option Value :=
  match kind with
  | .boolean =>
    if raw = "true" then some (.ofBool true)
    else if raw = "false" then some (.ofBool false)
    else none
  | .char =>
    match raw.toList with
    | [c] => some (.int (Int32.ofNat c.toNat))
    | _ => none
  | .long => (readInteger? .long raw).map fun n => .long (Int64.ofInt n)
  | .float => (Decimal.single.read? raw.toList).map fun bits => .float (UInt32.ofNat bits)
  | .double => (Decimal.double.read? raw.toList).map fun bits => .double (UInt64.ofNat bits)
  | kind => (readInteger? kind raw).map fun n => .int (Int32.ofInt n)

def readPrimitive (kind : Primitive) (raw : String) : Except MachineError Value :=
  match readPrimitive? kind raw with
  | some v => .ok v
  | none => .error (.conversion raw kind.name)

/-- The value of a class that a text stands for. -/
def readAs (className raw : String) : Except MachineError Value :=
  if className = Platform.string then .ok (.text raw)
  else
    match Primitive.ofBoxClass? className with
    | some kind => (readPrimitive kind raw).map (.boxed kind)
    | none => .ok (.record className [("value", .text raw)])

end Routecraft.Machine
