import Routecraft.Bytecode.Bytes
import Routecraft.Bytecode.Unit

/-!
# The byte form of units

A unit is encoded as a mark and a version, its role and name, and then its interfaces, constants, fields
and methods, each table behind its length. Descriptors are stored as texts and read again.

* `CodeUnit.encode`: the bytes of a unit, if all its parts fit.
* `CodeUnit.decode`: the unit with given bytes, or what is wrong with them.
-/

namespace Routecraft.Bytecode

/-- The bytes that every unit begins with. -/
def mark : List UInt8 := [0x44, 0x55, 0x4e, 0x54]

def version : UInt16 := 1

/-! ## Constants -/

def Member.encode (m : Member) : Except UnitError (List UInt8) := do
  .ok ((← textBytes m.owner) ++ (← textBytes m.name) ++ (← textBytes m.descriptor))

def Member.read : Reader Member := fun bytes => do
  let (owner, bytes) ← readText "member owner" bytes
  let (name, bytes) ← readText "member name" bytes
  let (descriptor, bytes) ← readText "member descriptor" bytes
  .ok (⟨owner, name, descriptor⟩, bytes)

namespace Constant

def tag : Constant → UInt8
  | int _ => 1
  | long _ => 2
  | float _ => 3
  | double _ => 4
  | string _ => 5
  | classRef _ => 6
  | field _ => 7
  | method _ => 8
  | interfaceMethod _ => 9

def content : Constant → Except UnitError (List UInt8)
  | int n => .ok (bytes32 n.toUInt32)
  | long n => .ok (bytes64 n.toUInt64)
  | float bits => .ok (bytes32 bits)
  | double bits => .ok (bytes64 bits)
  | string s => textBytes s
  | classRef name => textBytes name
  | field m => m.encode
  | method m => m.encode
  | interfaceMethod m => m.encode

def encode (c : Constant) : Except UnitError (List UInt8) := do
  .ok (c.tag :: (← c.content))

def read : Reader Constant := fun bytes => do
  let (tag, bytes) ← read8 "constant tag" bytes
  if tag = 1 then
    let (n, rest) ← read32 "int constant" bytes
    .ok (int n.toInt32, rest)
  else if tag = 2 then
    let (n, rest) ← read64 "long constant" bytes
    .ok (long n.toInt64, rest)
  else if tag = 3 then
    let (bits, rest) ← read32 "float constant" bytes
    .ok (float bits, rest)
  else if tag = 4 then
    let (bits, rest) ← read64 "double constant" bytes
    .ok (double bits, rest)
  else if tag = 5 then
    let (s, rest) ← readText "string constant" bytes
    .ok (string s, rest)
  else if tag = 6 then
    let (name, rest) ← readText "class constant" bytes
    .ok (classRef name, rest)
  else if tag = 7 then
    let (m, rest) ← Member.read bytes
    .ok (field m, rest)
  else if tag = 8 then
    let (m, rest) ← Member.read bytes
    .ok (method m, rest)
  else if tag = 9 then
    let (m, rest) ← Member.read bytes
    .ok (interfaceMethod m, rest)
  else .error (.unknownConstantTag tag)

end Constant

namespace Pool

def encode (p : Pool) : Except UnitError (List UInt8) := do
  .ok ((← countBytes "constant pool" p.size) ++ (← concatBytes Constant.encode p.toList))

def read : Reader Pool := fun bytes => do
  let (count, bytes) ← read16 "constant pool count" bytes
  let (constants, bytes) ← readMany Constant.read count.toNat bytes
  .ok (⟨constants.toArray⟩, bytes)

end Pool

/-! ## Instructions -/

namespace Instr

def encode : Instr UInt16 → List UInt8
  | bare op => [op.opcode]
  | onLocal op slot => [op.opcode, slot]
  | pushInt n => intOpcode :: bytes32 n.toUInt32
  | onConst op k => op.opcode :: bytes16 k
  | jump op target => op.opcode :: bytes16 target

/-- Reads an instruction: the operation of its first byte tells the layout of its operand. -/
def read : Reader (Instr UInt16) := fun bytes => do
  let (code, bytes) ← read8 "opcode" bytes
  match BareOp.all.find? (·.opcode == code) with
  | some op => .ok (bare op, bytes)
  | none =>
  match LocalOp.all.find? (·.opcode == code) with
  | some op =>
    let (slot, bytes) ← read8 "instruction operand" bytes
    .ok (onLocal op slot, bytes)
  | none =>
  match ConstOp.all.find? (·.opcode == code) with
  | some op =>
    let (k, bytes) ← read16 "instruction operand" bytes
    .ok (onConst op k, bytes)
  | none =>
  match JumpOp.all.find? (·.opcode == code) with
  | some op =>
    let (target, bytes) ← read16 "instruction operand" bytes
    .ok (jump op target, bytes)
  | none =>
    if code = intOpcode then
      let (n, bytes) ← read32 "instruction operand" bytes
      .ok (pushInt n.toInt32, bytes)
    else .error (.unknownOpcode code)

end Instr

/-! ## Units -/

namespace Role

def tag : Role → UInt8
  | handler => 1
  | registration => 2

def ofTag (tag : UInt8) : Except UnitError Role :=
  if tag = 1 then .ok handler
  else if tag = 2 then .ok registration
  else .error (.unknownRole tag)

end Role

namespace Field

def encode (f : Field) : Except UnitError (List UInt8) := do
  .ok ((← textBytes f.name) ++ (← textBytes f.type.descriptor))

def read : Reader Field := fun bytes => do
  let (name, bytes) ← readText "field name" bytes
  let (descriptor, bytes) ← readText "field descriptor" bytes
  .ok (⟨name, ← dataTypeOf descriptor⟩, bytes)

end Field

namespace Method

def encode (m : Method) : Except UnitError (List UInt8) := do
  let name ← textBytes m.name
  let signature ← textBytes m.signature.descriptor
  let count ← countBytes "code" m.code.size
  .ok (name ++ (signature ++ (bytes16 m.maxStack ++ (bytes16 m.maxLocals ++
    (count ++ m.code.toList.flatMap Instr.encode)))))

def read : Reader Method := fun bytes => do
  let (name, bytes) ← readText "method name" bytes
  let (descriptor, bytes) ← readText "method descriptor" bytes
  let signature ← signatureOf descriptor
  let (maxStack, bytes) ← read16 "max stack" bytes
  let (maxLocals, bytes) ← read16 "max locals" bytes
  let (count, bytes) ← read16 "code length" bytes
  let (code, bytes) ← readMany Instr.read count.toNat bytes
  .ok (⟨name, signature, maxStack, maxLocals, code.toArray⟩, bytes)

end Method

namespace CodeUnit

def encode (u : CodeUnit) : Except UnitError (List UInt8) := do
  let name ← textBytes u.name
  let interfaceCount ← countBytes "interfaces" u.interfaces.length
  let interfaces ← concatBytes textBytes u.interfaces
  let pool ← u.pool.encode
  let fieldCount ← countBytes "fields" u.fields.length
  let fields ← concatBytes Field.encode u.fields
  let methodCount ← countBytes "methods" u.methods.length
  let methods ← concatBytes Method.encode u.methods
  .ok (mark ++ (bytes16 version ++ (u.role.tag :: (name ++ (interfaceCount ++ (interfaces ++
    (pool ++ (fieldCount ++ (fields ++ (methodCount ++ methods))))))))))

def readHeader : Reader Unit := fun bytes => do
  let (found, bytes) ← take "magic" 4 bytes
  if found ≠ mark then .error (.badMagic found)
  else
    let (foundVersion, bytes) ← read16 "version" bytes
    if foundVersion ≠ version then .error (.unsupportedVersion foundVersion)
    else .ok ((), bytes)

def read : Reader CodeUnit := fun bytes => do
  let ((), bytes) ← readHeader bytes
  let (tag, bytes) ← read8 "kind" bytes
  let role ← Role.ofTag tag
  let (name, bytes) ← readText "unit name" bytes
  let (interfaceCount, bytes) ← read16 "interface count" bytes
  let (interfaces, bytes) ← readMany (readText "interface name") interfaceCount.toNat bytes
  let (pool, bytes) ← Pool.read bytes
  let (fieldCount, bytes) ← read16 "field count" bytes
  let (fields, bytes) ← readMany Field.read fieldCount.toNat bytes
  let (methodCount, bytes) ← read16 "method count" bytes
  let (methods, bytes) ← readMany Method.read methodCount.toNat bytes
  .ok (⟨name, role, interfaces, pool, fields, methods⟩, bytes)

/-- The unit that makes up all of the bytes. -/
def decode (bytes : List UInt8) : Except UnitError CodeUnit := do
  let (u, rest) ← read bytes
  if rest.isEmpty then .ok u
  else .error (.malformed u.name (.trailingBytes rest.length))

end CodeUnit

end Routecraft.Bytecode
