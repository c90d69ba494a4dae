import Std.Data.TreeMap
import Routecraft.Bytecode.DataType
import Routecraft.Decimal.Plain
import Routecraft.Text.Quoted

/-!
# Constants

What instructions refer to: numbers, texts, classes, and members of classes by owner, name and descriptor.
Floating point constants are bit patterns, so that equal constants are those that are written alike.

* `Constant.order`: the order by which constants are looked up.
-/

namespace Routecraft.Bytecode

@[ext]
structure Member where
  owner : String
  name : String
  descriptor : String
  deriving DecidableEq, Repr

def Member.display (m : Member) : String := m.owner ++ "." ++ m.name ++ ":" ++ m.descriptor

inductive Constant where
  | int (n : Int32)
  | long (n : Int64)
  | float (bits : UInt32)
  | double (bits : UInt64)
  | string (s : String)
  | classRef (name : String)
  | field (member : Member)
  | method (member : Member)
  | interfaceMethod (member : Member)
  deriving DecidableEq, Repr

namespace Constant

def ofType (t : DataType) : Constant := classRef t.className

def kindName : Constant → String
  | int _ => "int"
  | long _ => "long"
  | float _ => "float"
  | double _ => "double"
  | string _ => "string"
  | classRef _ => "class"
  | field _ => "field"
  | method _ => "method"
  | interfaceMethod _ => "interface method"

def display : Constant → String
  | int n => "int " ++ toString n.toInt
  | long n => "long " ++ toString n.toInt
  | float bits => "float " ++ Decimal.plainSingle bits
  | double bits => "double " ++ Decimal.plainDouble bits
  | string s => "string " ++ Text.quoted s
  | classRef name => "class " ++ name
  | field m => "field " ++ m.display
  | method m => "method " ++ m.display
  | interfaceMethod m => "interface " ++ m.display

/-! ## Order -/

def number : Constant → Int
  | int n => n.toInt
  | long n => n.toInt
  | float bits => bits.toNat
  | double bits => bits.toNat
  | _ => 0

def texts : Constant → List String
  | string s => [s]
  | classRef name => [name]
  | field m | method m | interfaceMethod m => [m.owner, m.name, m.descriptor]
  | _ => []

/-- Constants by their kinds, numbers and texts. -/
def order : Constant → Constant → Ordering :=
  compareLex (compareOn kindName) (compareLex (compareOn number) (compareOn texts))

instance transCmpOrder : Std.TransCmp order := by
  unfold order
  infer_instance

/-- Only equal constants are in the same place of the order. -/
theorem order_eq {c d : Constant} : order c d = .eq ↔ c = d := by
  unfold order
  simp only [compareLex_eq_eq, compareOn, Std.LawfulEqCmp.compare_eq_iff_eq]
  constructor
  · rintro ⟨hkind, hnumber, htexts⟩
    cases c <;> cases d <;> simp [kindName] at hkind
    case float.float => exact congrArg float (UInt32.toNat_inj.mp (Int.ofNat_inj.mp hnumber))
    case double.double => exact congrArg double (UInt64.toNat_inj.mp (Int.ofNat_inj.mp hnumber))
    all_goals simp_all [number, texts, Member.ext_iff, Int32.toInt_inj, Int64.toInt_inj]
  · rintro rfl
    exact ⟨rfl, rfl, rfl⟩

end Constant

end Routecraft.Bytecode
