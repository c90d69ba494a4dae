import Routecraft.Bytecode.SlotType
import Routecraft.Text.Hex

/-!
# What can be wrong with a unit

The causes for which bytes are no unit, a unit has no bytes, or code is not accepted, and their wording.
-/

namespace Routecraft.Bytecode

/-- Why an index into the constant pool is not good where it stands. -/
inductive ConstantFault where
  | outOfRange
  /-- A constant of another kind was expected than the one found. -/
  | expected (kind found : String)
  deriving DecidableEq, Repr

def ConstantFault.message : ConstantFault → String
  | outOfRange => "index out of range"
  | expected kind found => "expected " ++ kind ++ ", found " ++ found

/-- Why the checker refuses an instruction or a method. -/
inductive FrameFault where
  | emptyBody
  | underflow
  | expected (type : DataType) (found : SlotType)
  | expectedReference (found : SlotType)
  | expectedArray (found : SlotType)
  | unsetLocal (slot : UInt8)
  | unloadable (kind : String)
  | notConstructor
  | constructorOf (owner : String) (found : SlotType)
  | cannotStore (value : SlotType) (array : String)
  | returnsNothing (result : DataType)
  | returnsValue
  | fallsOff
  | inconsistentJoin (target : Nat)
  | unreachable
  | branchInFragment (mnemonic : String)
  | exceedsFrame (stack locals declaredStack declaredLocals : UInt16)
  /-- The types at the joins keep changing; this takes a hierarchy with a cycle. -/
  | unsettled
  deriving DecidableEq, Repr

def FrameFault.message : FrameFault → String
  | emptyBody => "empty method body"
  | underflow => "operand stack underflow"
  | expected type found => "expected " ++ type.descriptor ++ ", found " ++ found.display
  | expectedReference found => "expected a reference, found " ++ found.display
  | expectedArray found => "expected an array, found " ++ found.display
  | unsetLocal slot => "local " ++ toString slot.toNat ++ " is not initialized"
  | unloadable kind => "ldc of a " ++ kind ++ " constant"
  | notConstructor => "invokespecial of a non-constructor"
  | constructorOf owner found => "constructor of " ++ owner ++ " called on " ++ found.display
  | cannotStore value array => "cannot store " ++ value.display ++ " into " ++ array
  | returnsNothing result => "`return` in a method returning " ++ result.descriptor
  | returnsValue => "`returnvalue` in a void method"
  | fallsOff => "control falls off the end of the method"
  | inconsistentJoin target => "inconsistent stack shape at join point " ++ toString target
  | unreachable => "unreachable instruction"
  | branchInFragment mnemonic => "`" ++ mnemonic ++ "` in a straight-line fragment"
  | exceedsFrame stack locals declaredStack declaredLocals =>
    "frame " ++ toString stack.toNat ++ "/" ++ toString locals.toNat ++ " exceeds declared "
      ++ toString declaredStack.toNat ++ "/" ++ toString declaredLocals.toNat
  | unsettled => "the types at a join point do not settle"

/-- Why a text or a sequence of bytes is not well formed. -/
inductive Malformation where
  | descriptor (fault : DescriptorFault)
  | trailingBytes (count : Nat)
  deriving DecidableEq, Repr

def Malformation.message : Malformation → String
  | descriptor fault => fault.message
  | trailingBytes count => toString count ++ " trailing bytes after unit"

inductive UnitError where
  | truncated (part : String) (missing : Nat)
  | badMagic (bytes : List UInt8)
  | unsupportedVersion (version : UInt16)
  | unknownRole (tag : UInt8)
  | unknownConstantTag (tag : UInt8)
  | unknownOpcode (opcode : UInt8)
  | invalidUtf8 (part : String)
  | stringTooLong (bytes : Nat)
  | tableOverflow (table : String)
  | malformed (text : String) (cause : Malformation)
  | badConstant (index : UInt16) (cause : ConstantFault)
  | unboundLabel (label : UInt16)
  | verify (method : String) (index : Nat) (fault : FrameFault)
  deriving DecidableEq, Repr

namespace UnitError

def kindName : UnitError → String
  | truncated .. => "Truncated"
  | badMagic .. => "BadMagic"
  | unsupportedVersion .. => "UnsupportedVersion"
  | unknownRole .. => "UnknownKind"
  | unknownConstantTag .. => "UnknownConstantTag"
  | unknownOpcode .. => "UnknownOpcode"
  | invalidUtf8 .. => "InvalidUtf8"
  | stringTooLong .. => "StringTooLong"
  | tableOverflow .. => "TableOverflow"
  | malformed .. => "MalformedDescriptor"
  | badConstant .. => "BadConstant"
  | unboundLabel .. => "UnboundLabel"
  | verify .. => "Verify"

def message : UnitError → String
  | truncated part missing =>
    "truncated unit: needed " ++ toString missing ++ " more bytes while reading " ++ part
  | badMagic bytes =>
    "not a unit: bad magic ["
      ++ String.intercalate ", " (bytes.map fun b => String.ofList (Text.hexByte b)) ++ "]"
  | unsupportedVersion version => "unsupported unit format version " ++ toString version.toNat
  | unknownRole tag => "unknown unit kind tag " ++ toString tag.toNat
  | unknownConstantTag tag => "unknown constant tag " ++ toString tag.toNat
  | unknownOpcode opcode => "unknown opcode 0x" ++ String.ofList (Text.hexByte opcode)
  | invalidUtf8 part => "invalid UTF-8 in " ++ part
  | stringTooLong bytes =>
    "string too long for unit encoding (" ++ toString bytes ++ " bytes)"
  | tableOverflow table => "too many entries in " ++ table
  | malformed text cause => "malformed descriptor `" ++ text ++ "`: " ++ cause.message
  | badConstant index cause =>
    "bad constant reference #" ++ toString index.toNat ++ ": " ++ cause.message
  | unboundLabel label => "label " ++ toString label.toNat ++ " used but never bound"
  | verify method index fault =>
    "verification failed in " ++ method ++ " at instruction " ++ toString index ++ ": "
      ++ fault.message

end UnitError

/-! ## Descriptors with their text -/

/-- A reading of `text` whose faults name the text. -/
def naming {α : Type} (text : String) : Except DescriptorFault α → Except UnitError α
  | .ok x => .ok x
  | .error fault => .error (.malformed text (.descriptor fault))

def dataTypeOf (descriptor : String) : Except UnitError DataType :=
  naming descriptor (DataType.parse descriptor)

def signatureOf (descriptor : String) : Except UnitError Signature :=
  naming descriptor (Signature.parse descriptor)

def dataTypeOfClass (name : String) : Except UnitError DataType :=
  naming name (DataType.ofClassName name)

end Routecraft.Bytecode
