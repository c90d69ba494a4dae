/-!
# Instructions

An instruction is an operation and the operand that its layout calls for: none, the number of a local, an
integer, a constant, or a jump target. The constant is of any type `K`: code under construction refers to
constants themselves, the code of a unit to their places in its pool.
-/

namespace Routecraft.Bytecode

inductive BareOp where
  | pushNull
  | arrayStore
  | dup
  | pop
  | swap
  | returnVoid
  | returnValue
  deriving DecidableEq, Repr

inductive LocalOp where
  | load
  | store
  deriving DecidableEq, Repr

inductive ConstOp where
  | loadConst
  | getField
  | putField
  | getStatic
  | invokeVirtual
  | invokeInterface
  | invokeStatic
  | invokeSpecial
  | newObject
  | newArray
  | checkCast
  deriving DecidableEq, Repr

inductive JumpOp where
  | ifFalse
  | goto
  deriving DecidableEq, Repr

inductive Instr (K : Type) where
  | bare (op : BareOp)
  | onLocal (op : LocalOp) (slot : UInt8)
  | pushInt (n : Int32)
  | onConst (op : ConstOp) (k : K)
  | jump (op : JumpOp) (target : UInt16)
  deriving DecidableEq, Repr

/-! ## Names and codes -/

namespace BareOp

def all : List BareOp := [pushNull, arrayStore, dup, pop, swap, returnVoid, returnValue]

def mnemonic : BareOp → String
  | pushNull => "null"
  | arrayStore => "arraystore"
  | dup => "dup"
  | pop => "pop"
  | swap => "swap"
  | returnVoid => "return"
  | returnValue => "returnvalue"

def opcode : BareOp → UInt8
  | pushNull => 0x03
  | arrayStore => 0x32
  | dup => 0x40
  | pop => 0x41
  | swap => 0x42
  | returnVoid => 0x60
  | returnValue => 0x61

end BareOp

namespace LocalOp

def all : List LocalOp := [load, store]

def mnemonic : LocalOp → String
  | load => "load"
  | store => "store"

def opcode : LocalOp → UInt8
  | load => 0x01
  | store => 0x02

end LocalOp

namespace ConstOp

def all : List ConstOp :=
  [loadConst, getField, putField, getStatic, invokeVirtual, invokeInterface, invokeStatic,
    invokeSpecial, newObject, newArray, checkCast]

def mnemonic : ConstOp → String
  | loadConst => "ldc"
  | getField => "getfield"
  | putField => "putfield"
  | getStatic => "getstatic"
  | invokeVirtual => "invokevirtual"
  | invokeInterface => "invokeinterface"
  | invokeStatic => "invokestatic"
  | invokeSpecial => "invokespecial"
  | newObject => "new"
  | newArray => "newarray"
  | checkCast => "checkcast"

def opcode : ConstOp → UInt8
  | loadConst => 0x05
  | getField => 0x10
  | putField => 0x11
  | getStatic => 0x12
  | invokeVirtual => 0x20
  | invokeInterface => 0x21
  | invokeStatic => 0x22
  | invokeSpecial => 0x23
  | newObject => 0x30
  | newArray => 0x31
  | checkCast => 0x33

end ConstOp

namespace JumpOp

def all : List JumpOp := [ifFalse, goto]

def mnemonic : JumpOp → String
  | ifFalse => "iffalse"
  | goto => "goto"

def opcode : JumpOp → UInt8
  | ifFalse => 0x50
  | goto => 0x51

end JumpOp

/-- The code of integers, the one layout with a single operation. -/
def intOpcode : UInt8 := 0x04

def intMnemonic : String := "int"

namespace Instr

variable {K : Type}

def opcode : Instr K → UInt8
  | bare op => op.opcode
  | onLocal op _ => op.opcode
  | pushInt _ => intOpcode
  | onConst op _ => op.opcode
  | jump op _ => op.opcode

def mnemonic : Instr K → String
  | bare op => op.mnemonic
  | onLocal op _ => op.mnemonic
  | pushInt _ => intMnemonic
  | onConst op _ => op.mnemonic
  | jump op _ => op.mnemonic

/-- Whether control never passes to the instruction behind this one. -/
def endsBlock : Instr K → Bool
  | bare .returnVoid => true
  | bare .returnValue => true
  | jump .goto _ => true
  | _ => false

/-- Where a jump may go. -/
def target? : Instr K → Option UInt16
  | jump _ target => some target
  | _ => none

def const? : Instr K → Option K
  | onConst _ k => some k
  | _ => none

end Instr

end Routecraft.Bytecode
