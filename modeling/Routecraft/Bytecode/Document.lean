import Routecraft.Bytecode.Assembler
import Routecraft.Json.Record

/-!
# Units as documents

The parts of a unit as JSON, for units and code that are made by hand. A constant is an object with one
member, whose key says the kind; an instruction is a list of its mnemonic and its operand; code is written
as the list of the steps of an assembler. Floating point numbers are bit patterns in base sixteen.

* `Constant.ofJson`, `Constant.toJson`, `Instr.ofJson`, `CodeUnit.ofJson`: the parts of a unit.
* `Assembler.ofJson`: code with labels and constants.
-/

namespace Routecraft.Bytecode

open Json

/-- Why a document is no part of a unit: it has not the form of one, or what it says is refused. -/
inductive DocumentFault where
  | shape
  | refused (e : UnitError)
  deriving DecidableEq, Repr

/-- A part of a document that has a form. -/
def shaped {α : Type} : Option α → Except DocumentFault α
  | some x => .ok x
  | none => .error .shape

/-- A part of a document that may be refused. -/
def unlessRefused {α : Type} : Except UnitError α → Except DocumentFault α
  | .ok x => .ok x
  | .error e => .error (.refused e)

/-! ## Texts and numbers -/

def textOf (j : Json) : Except DocumentFault String := shaped j.asPieces?

def intOf (low high : Int) (j : Json) : Except DocumentFault Int := shaped (j.asIntIn? low high)

def word8Of (j : Json) : Except DocumentFault UInt8 := return UInt8.ofNat (← intOf 0 255 j).toNat

def word16Of (j : Json) : Except DocumentFault UInt16 :=
  return UInt16.ofNat (← intOf 0 65535 j).toNat

def countOf (j : Json) : Except DocumentFault Nat := return (← intOf 0 UInt64.size j).toNat

def int32Of (j : Json) : Except DocumentFault Int32 := shaped j.asInt32?

def int64Of (j : Json) : Except DocumentFault Int64 := shaped j.asInt64?

def patternOf (j : Json) : Except DocumentFault Nat := do
  shaped (Text.hexToNat? (← textOf j).toList)

def typeOf (j : Json) : Except DocumentFault DataType := do unlessRefused (dataTypeOf (← textOf j))

def callOf (j : Json) : Except DocumentFault Signature := do unlessRefused (signatureOf (← textOf j))

def listOf {α : Type} (item : Json → Except DocumentFault α) : Json → Except DocumentFault (List α)
  | .array items => items.mapM item
  | _ => .error .shape

/-- A bit pattern on a count of digits. -/
def patternText (digits n : Nat) : Json := .text (String.ofList (Text.hexFixed digits n))

/-! ## Constants -/

/-- Reads a member: its owner, its name and its descriptor. -/
def Member.ofJson (j : Json) : Except DocumentFault Member := do
  match ← listOf textOf j with
  | [owner, name, descriptor] => return ⟨owner, name, descriptor⟩
  | _ => .error .shape

def Member.toJson (m : Member) : Json := .array [.text m.owner, .text m.name, .text m.descriptor]

namespace Constant

/-- Reads a constant. A class may also be given by a descriptor. -/
def ofJson : Json → Except DocumentFault Constant
  | .object [("int", j)] => return int (← int32Of j)
  | .object [("long", j)] => return long (← int64Of j)
  | .object [("float", j)] => return float (UInt32.ofNat (← patternOf j))
  | .object [("double", j)] => return double (UInt64.ofNat (← patternOf j))
  | .object [("string", j)] => return string (← textOf j)
  | .object [("class", j)] => return classRef (← textOf j)
  | .object [("class_of", j)] => return ofType (← typeOf j)
  | .object [("field", j)] => return field (← Member.ofJson j)
  | .object [("method", j)] => return method (← Member.ofJson j)
  | .object [("interface_method", j)] => return interfaceMethod (← Member.ofJson j)
  | _ => .error .shape

def toJson : Constant → Json
  | int n => .object [("int", .int n.toInt)]
  | long n => .object [("long", .int n.toInt)]
  | float bits => .object [("float", patternText 8 bits.toNat)]
  | double bits => .object [("double", patternText 16 bits.toNat)]
  | string s => .object [("string", .text s)]
  | classRef name => .object [("class", .text name)]
  | field m => .object [("field", m.toJson)]
  | method m => .object [("method", m.toJson)]
  | interfaceMethod m => .object [("interface_method", m.toJson)]

end Constant

/-- Reads a slot type. One of a data type may be given by a descriptor. -/
def SlotType.ofJson : Json → Except DocumentFault SlotType
  | .text "int" => .ok int
  | .text "long" => .ok long
  | .text "float" => .ok float
  | .text "double" => .ok double
  | .text "null" => .ok null
  | .object [("ref", j)] => return ref (← textOf j)
  | .object [("uninit", j)] => return raw (← textOf j)
  | .object [("of", j)] => return of (← typeOf j)
  | _ => .error .shape

/-! ## Instructions -/

def operation? {α : Type} (all : List α) (mnemonic : α → String) (name : String) : Option α :=
  all.find? (mnemonic · == name)

def Instr.ofJson {K : Type} (const : Json → Except DocumentFault K) :
    Json → Except DocumentFault (Instr K)
  | .array [.text name] => return bare (← shaped (operation? BareOp.all BareOp.mnemonic name))
  | .array [.text name, operand] => do
    if let some op := operation? LocalOp.all LocalOp.mnemonic name then
      return onLocal op (← word8Of operand)
    else if let some op := operation? ConstOp.all ConstOp.mnemonic name then
      return onConst op (← const operand)
    else if let some op := operation? JumpOp.all JumpOp.mnemonic name then
      return jump op (← word16Of operand)
    else if name = intMnemonic then return pushInt (← int32Of operand)
    else .error .shape
  | _ => .error .shape

/-- Reads instructions on indices: one, or one with the number of times that it is repeated. -/
def instrsOf : Json → Except DocumentFault (List (Instr UInt16))
  | .array [.text "repeat", times, i] =>
    return List.replicate (← countOf times) (← Instr.ofJson word16Of i)
  | j => return [← Instr.ofJson word16Of j]

def codeOf (j : Json) : Except DocumentFault Code :=
  return (← listOf instrsOf j).flatten.toArray

/-! ## Units -/

def Role.ofJson (j : Json) : Except DocumentFault Role := do
  let name ← textOf j
  if name = registration.name then return registration
  else if name = handler.name then return handler
  else .error .shape

def Field.ofJson : Json → Except DocumentFault Field
  | .array [name, type] => return ⟨← textOf name, ← typeOf type⟩
  | _ => .error .shape

def Method.ofJson (j : Json) : Except DocumentFault Method := do
  match ← shaped (j.fields? ["name", "type", "stack", "locals", "code"]) with
  | [some name, some type, some stack, some locals, some code] =>
    return ⟨← textOf name, ← callOf type, ← word16Of stack, ← word16Of locals, ← codeOf code⟩
  | _ => .error .shape

/-- Reads a pool; a constant that is repeated is entered once. -/
def Pool.ofJson (j : Json) : Except DocumentFault Pool := do
  let constants ← listOf Constant.ofJson j
  let b ← constants.foldlM (fun (b : Interner) c =>
    match b.intern c with
    | (b, .ok _) => Except.ok b
    | (_, .error e) => .error (DocumentFault.refused e)) Interner.empty
  return b.pool

/-- What a document says of a list; nothing stands for the empty one. -/
def listOrNone {α : Type} (item : Json → Except DocumentFault α) :
    Option Json → Except DocumentFault (List α)
  | some j => listOf item j
  | none => .ok []

def CodeUnit.ofJson (j : Json) : Except DocumentFault CodeUnit := do
  match ← shaped (j.fields? ["name", "kind", "interfaces", "pool", "fields", "methods"]) with
  | [some name, some role, interfaces, pool, fields, methods] =>
    let pool ← Pool.ofJson (pool.getD (.array []))
    let fields ← listOrNone Field.ofJson fields
    let methods ← listOrNone Method.ofJson methods
    return ⟨← textOf name, ← Role.ofJson role, ← listOrNone textOf interfaces, pool, fields, methods⟩
  | _ => .error .shape

/-! ## Code with labels -/

namespace Assembler

/-- Takes the step that a document stands for. -/
def step (a : Assembler) : Json → Except DocumentFault Assembler
  | .array [.text "load", slot] => return a.emit (.load (← word8Of slot))
  | .array [.text "store", slot] => return a.emit (.store (← word8Of slot))
  | .array [.text "push_null"] => return a.emit .null
  | .array [.text "push_int", n] => return a.emit (.pushInt (← int32Of n))
  | .array [.text "push_str", s] => return a.emit (.string (← textOf s))
  | .array [.text "push_class", t] => return a.emit (.classOf (← typeOf t))
  | .array [.text "ldc", c] => return a.emit (.const (← Constant.ofJson c))
  | .array [.text "get_field", owner, name, t] =>
    return a.emit (.getField (← textOf owner) (← textOf name) (← typeOf t))
  | .array [.text "put_field", owner, name, t] =>
    return a.emit (.putField (← textOf owner) (← textOf name) (← typeOf t))
  | .array [.text "get_static", owner, name, t] =>
    return a.emit (.getStatic (← textOf owner) (← textOf name) (← typeOf t))
  | .array [.text "invoke_virtual", owner, name, s] =>
    return a.emit (.invokeVirtual (← textOf owner) (← textOf name) (← callOf s))
  | .array [.text "invoke_interface", owner, name, s] =>
    return a.emit (.invokeInterface (← textOf owner) (← textOf name) (← callOf s))
  | .array [.text "invoke_static", owner, name, s] =>
    return a.emit (.invokeStatic (← textOf owner) (← textOf name) (← callOf s))
  | .array [.text "invoke_special", owner, name, s] =>
    return a.emit (.invokeSpecial (← textOf owner) (← textOf name) (← callOf s))
  | .array [.text "new_object", name] => return a.emit (.newObject (← textOf name))
  | .array [.text "new_array", t] => return a.emit (.newArray (← typeOf t))
  | .array [.text "array_store"] => return a.emit .arrayStore
  | .array [.text "check_cast", t] => return a.emit (.checkCast (← typeOf t))
  | .array [.text "dup"] => return a.emit .dup
  | .array [.text "pop"] => return a.emit .pop
  | .array [.text "swap"] => return a.emit .swap
  | .array [.text "return"] => return a.emit .returnVoid
  | .array [.text "return_value"] => return a.emit .returnValue
  | .array [.text "new_label"] => return a.newLabel.2
  | .array [.text "bind", n] => return a.bind ⟨saturate16 (← countOf n)⟩
  | .array [.text "if_false", n] => return a.jump .ifFalse ⟨saturate16 (← countOf n)⟩
  | .array [.text "goto", n] => return a.jump .goto ⟨saturate16 (← countOf n)⟩
  | .array [.text "emit", i] => return a.emit (← Instr.ofJson Constant.ofJson i)
  | .array [.text "repeat", times, i] => do
    let i ← Instr.ofJson Constant.ofJson i
    return a.emitAll (List.replicate (← countOf times) i)
  | _ => .error .shape

/-- Reads code as the steps by which it is written. -/
def ofJson : Json → Except DocumentFault Assembler
  | .array steps => steps.foldlM step .empty
  | _ => .error .shape

end Assembler

end Routecraft.Bytecode
