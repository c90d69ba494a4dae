import Routecraft.Decimal.Plain
import Routecraft.Platform
import Routecraft.Route.Primitive
import Routecraft.Text.Quoted

/-!
# Values of the machine

What is on the stack and in the locals of running code. Plain data is a tree. Arrays, objects of units and
objects of the host are held by reference: the value says of which class the thing is and where it is.

* `Value.className?`: the class of a value; null and plain numbers have none.
* `Value.same`: equality; floating point numbers are equal by their bits, things held by reference if they
  are the same thing.
* `Value.displayWith`: the text of a value, given the texts of the arrays that have one.
-/

namespace Routecraft.Machine

/-- A value. Floating point numbers are bit patterns. -/
inductive Value where
  | null
  | int (n : Int32)
  | long (n : Int64)
  | float (bits : UInt32)
  | double (bits : UInt64)
  | boxed (kind : Primitive) (content : Value)
  | text (s : String)
  | classRef (name : String)
  /-- A class applied to types. -/
  | reified (base : String) (args : List Value)
  | bytes (content : List UInt8)
  | list (items : List Value)
  | set (items : List Value)
  | map (entries : List (Value × Value))
  | optional (content : Option Value)
  | mediaType (name : String)
  | status (code : UInt16)
  /-- A constant of an enumeration. -/
  | constant (type name : String)
  | record (className : String) (fields : List (String × Value))
  /-- The array with a number. -/
  | array (className : String) (number : Nat)
  /-- The object of a unit with a number. -/
  | object (unit : String) (number : Nat)
  /-- A handle to an object of the host. -/
  | host (className : String) (handle : Nat)
  deriving Repr, Inhabited

namespace Value

def boxedInt (n : Int32) : Value := boxed .int (int n)

/-- The truth values of the machine. -/
def ofBool (b : Bool) : Value := int (if b then 1 else 0)

def className? : Value → Option String
  | null | int _ | long _ | float _ | double _ => none
  | boxed kind _ => some kind.boxClass
  | text _ => some Platform.string
  | classRef _ => some Platform.classClass
  | reified _ _ => some Platform.reified
  | bytes _ => some "[B"
  | list _ => some Platform.list
  | set _ => some Platform.set
  | map _ => some Platform.map
  | optional _ => some Platform.optional
  | mediaType _ => some Platform.mediaType
  | status _ => some Platform.statusCode
  | constant type _ => some type
  | record className _ => some className
  | array className _ => some className
  | object unit _ => some unit
  | host className _ => some className

/-! ## Equality -/

mutual

/-- Whether two values are equal. -/
def same : Value → Value → Bool
  | null, null => true
  | int m, int n => m == n
  | long m, long n => m == n
  | float m, float n => m == n
  | double m, double n => m == n
  | boxed k v, boxed l w => k == l && v.same w
  | text s, text t => s == t
  | classRef s, classRef t => s == t
  | reified s vs, reified t ws => s == t && sameItems vs ws
  | bytes s, bytes t => s == t
  | list vs, list ws => sameItems vs ws
  | set vs, set ws => sameItems vs ws
  | map vs, map ws => sameEntries vs ws
  | optional none, optional none => true
  | optional (some v), optional (some w) => v.same w
  | mediaType s, mediaType t => s == t
  | status m, status n => m == n
  | constant s c, constant t d => s == t && c == d
  | record s vs, record t ws => s == t && sameFields vs ws
  | array s m, array t n => s == t && m == n
  | object s m, object t n => s == t && m == n
  | host s m, host t n => s == t && m == n
  | _, _ => false

/-- Whether two lists have equal values in the same order. -/
def sameItems : List Value → List Value → Bool
  | [], [] => true
  | v :: vs, w :: ws => v.same w && sameItems vs ws
  | _, _ => false

/-- Whether two maps have equal entries in the same order. -/
def sameEntries : List (Value × Value) → List (Value × Value) → Bool
  | [], [] => true
  | (j, v) :: vs, (k, w) :: ws => j.same k && v.same w && sameEntries vs ws
  | _, _ => false

/-- Whether two records have equal fields in the same order. -/
def sameFields : List (String × Value) → List (String × Value) → Bool
  | [], [] => true
  | (j, v) :: vs, (k, w) :: ws => j == k && v.same w && sameFields vs ws
  | _, _ => false

end

instance : BEq Value := ⟨same⟩

/-- The values without those that are equal to an earlier one. -/
def distinct (vs : List Value) : List Value := vs.eraseDups

/-! ## Text -/

def commas (parts : List String) : String := String.intercalate ", " parts

mutual

/-- The text of a value, if the array with a number has the text `arrays` of it. A value has no text if there is an
array in it that has none. -/
def displayWith (arrays : Nat → Option String) : Value → Option String
  | null => some "null"
  | int n => some (toString n.toInt)
  | long n => some (toString n.toInt ++ "L")
  | float bits => some (Decimal.plainSingle bits ++ "f")
  | double bits => some (Decimal.plainDouble bits)
  | boxed _ v => v.displayWith arrays
  | text s => some (Text.quoted s)
  | classRef name => some name
  | reified base args => (displayItems arrays args).map fun parts => base ++ "<" ++ commas parts ++ ">"
  | bytes content => some ("byte[" ++ toString content.length ++ "]")
  | list items => (displayItems arrays items).map fun parts => "List[" ++ commas parts ++ "]"
  | set items => (displayItems arrays items).map fun parts => "Set[" ++ commas parts ++ "]"
  | map entries => (displayEntries arrays entries).map fun parts => "\x7b" ++ commas parts ++ "\x7d"
  | optional none => some "Optional.empty"
  | optional (some v) => (v.displayWith arrays).map fun part => "Optional[" ++ part ++ "]"
  | mediaType name => some name
  | status code => some ("status " ++ toString code.toNat)
  | constant type name => some (type ++ "." ++ name)
  | record className fields => (displayFields arrays fields).map fun parts => className ++ "(" ++ commas parts ++ ")"
  | array _ number => arrays number
  | object unit _ => some ("<" ++ unit ++ ">")
  | host className _ => some ("<" ++ className ++ ">")

def displayItems (arrays : Nat → Option String) : List Value → Option (List String)
  | [] => some []
  | v :: vs => do return (← v.displayWith arrays) :: (← displayItems arrays vs)

def displayEntries (arrays : Nat → Option String) : List (Value × Value) → Option (List String)
  | [] => some []
  | (k, v) :: vs => do
    return ((← k.displayWith arrays) ++ "=" ++ (← v.displayWith arrays)) :: (← displayEntries arrays vs)

def displayFields (arrays : Nat → Option String) : List (String × Value) → Option (List String)
  | [] => some []
  | (k, v) :: vs => do return (k ++ "=" ++ (← v.displayWith arrays)) :: (← displayFields arrays vs)

end

def displayArray (items : List String) : String := "[" ++ commas items ++ "]"

end Value

end Routecraft.Machine
