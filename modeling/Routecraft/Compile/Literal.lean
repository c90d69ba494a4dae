import Routecraft.Compile.Framework
import Routecraft.Route.Controller

/-!
# Types and attributes as code

The data types of generated code, and the instructions that leave a type or an attribute on the stack: a
class as a constant, a class with arguments as a reified type built from them, a list or a map from an
array of its parts, a primitive value in its box.
-/

namespace Routecraft.Compile

open Bytecode

/-! ## Data types -/

/-- The data type of a type's values; there is none where nothing is the value. -/
def dataType? : TypeExpr → Option DataType
  | .void => none
  | .primitive kind => some (Framework.primitive kind)
  | .named name _ => some (.object name)
  | .array element => (dataType? element).map .array

def signatureOf (e : Endpoint) : Signature :=
  { params := e.params.map fun p => (dataType? p.type).getD (.object Platform.object)
    result := dataType? e.returnType }

/-- The class that stands for a type: the box of a primitive type, or the type itself. -/
def classLiteral? : TypeExpr → Option DataType
  | .primitive kind => some (.object kind.boxClass)
  | t => dataType? t

/-! ## Arrays -/

/-- A count as an integer of 32 bits, or the largest one. -/
def saturate32 (n : Nat) : Int32 := Int32.ofNat (min n 2147483647)

/-- Stores each of `items`, given as code, into the array on the stack, from place `i` on. -/
def storeFrom (i : Nat) : List (List (Instr Constant)) → List (Instr Constant)
  | [] => []
  | item :: rest =>
    .dup :: .pushInt (saturate32 i) :: item ++ .arrayStore :: storeFrom (i + 1) rest

def arrayCode (element : DataType) (items : List (List (Instr Constant))) :
    List (Instr Constant) :=
  .pushInt (saturate32 items.length) :: .newArray element :: storeFrom 0 items

/-! ## Types -/

/-- The class that stands for a type; the request context stands for nothing. -/
def classCode (t : TypeExpr) : List (Instr Constant) :=
  [.classOf ((classLiteral? t).getD (.object Platform.context))]

mutual

def typeCode : TypeExpr → List (Instr Constant)
  | .named name (arg :: args) =>
    .classOf (.object name)
      :: arrayCode (.object Platform.type) (typeCodes (arg :: args))
      ++ [Framework.reifiedParameterized.instr]
  | t => classCode t

def typeCodes : List TypeExpr → List (List (Instr Constant))
  | [] => []
  | t :: rest => typeCode t :: typeCodes rest

end

/-- A class with the given arguments. -/
def reifiedCode (name : String) (args : List TypeExpr) : List (Instr Constant) :=
  .classOf (.object name)
    :: arrayCode (.object Platform.type) (typeCodes args)
    ++ [Framework.reifiedParameterized.instr]

/-! ## Attributes -/

def boxed (kind : Primitive) (i : Instr Constant) : List (Instr Constant) :=
  [i, (Framework.box kind).instr]

/-- Stores the key and value of each entry into the array on the stack, from place `i` on. -/
def storeEntriesFrom (i : Nat) : List (String × List (Instr Constant)) → List (Instr Constant)
  | [] => []
  | (key, value) :: rest =>
    .dup :: .pushInt (saturate32 i) :: .string key :: .arrayStore
      :: .dup :: .pushInt (saturate32 (i + 1)) :: value
      ++ .arrayStore :: storeEntriesFrom (i + 2) rest

mutual

def attributeCode : Attribute → List (Instr Constant)
  | .boolean b => boxed .boolean (.pushInt (if b then 1 else 0))
  | .byte n => boxed .byte (.pushInt n.toInt32)
  | .char c => boxed .char (.pushInt (Int32.ofNat c.toNat))
  | .short n => boxed .short (.pushInt n.toInt32)
  | .int n => boxed .int (.pushInt n)
  | .long n => boxed .long (.const (.long n))
  | .float bits => boxed .float (.const (.float bits))
  | .double bits => boxed .double (.const (.double bits))
  | .string s => [.string s]
  | .classRef name => [.classOf (.object name)]
  | .enum type constant => [.getStatic type constant (.object type)]
  | .list items =>
    arrayCode (.object Platform.object) (attributeCodes items) ++ [Framework.listOf.instr]
  | .map entries =>
    .pushInt (saturate32 (entries.length * 2)) :: .newArray (.object Platform.object)
      :: storeEntriesFrom 0 (entryCodes entries) ++ [Framework.mapOfEntries.instr]

def attributeCodes : List Attribute → List (List (Instr Constant))
  | [] => []
  | a :: rest => attributeCode a :: attributeCodes rest

def entryCodes : List (String × Attribute) → List (String × List (Instr Constant))
  | [] => []
  | (key, a) :: rest => (key, attributeCode a) :: entryCodes rest

end

end Routecraft.Compile
