import Routecraft.Bytecode.Error
import Routecraft.Text.Quoted

/-!
# What can go wrong when units run

The causes for which units do not link or a run has no result, and their wording. A run that never ends is one of
them, although nobody is left to be told.
-/

namespace Routecraft.Machine

/-- A mistake in running code that has no name of its own. -/
inductive Fault where
  | callOnNull (method : String)
  | outOfCode (pc : Nat) (method : String)
  | underflow
  | unsetLocal (slot : UInt8)
  | unloadable (constant : String)
  | negativeSize (size : Int32)
  | outOfBounds (index : Int32) (size : Nat)
  | oddEntries
  deriving DecidableEq, Repr

def Fault.message : Fault → String
  | callOnNull method => "call of " ++ method ++ " on null"
  | outOfCode pc method => "pc " ++ toString pc ++ " out of range in " ++ method
  | underflow => "operand stack underflow"
  | unsetLocal slot => "load of unset local " ++ toString slot.toNat
  | unloadable constant => "ldc of " ++ constant
  | negativeSize size => "negative array size " ++ toString size.toInt
  | outOfBounds index size =>
    "array index " ++ toString index.toInt ++ " out of bounds " ++ toString size
  | oddEntries => "odd number of map entry items"

/-- Why a run has no result. -/
inductive MachineError where
  | unit (e : Bytecode.UnitError)
  | unknownUnit (name : String)
  | duplicateUnit (name : String)
  | noSuchMethod (owner name : String)
  | typeMismatch (expected found : String)
  | missing (what : String)
  | conversion (value target : String)
  /-- The run took more instructions than it may. -/
  | stepLimit (limit : Nat)
  | fault (cause : Fault)
  /-- The run has no end: it is about to tell of a value, and to write out the value goes on for ever. -/
  | endless
  deriving DecidableEq, Repr

def MachineError.kindName : MachineError → String
  | unit _ => "Unit"
  | unknownUnit _ => "UnknownUnit"
  | duplicateUnit _ => "DuplicateUnit"
  | noSuchMethod .. => "NoSuchMethod"
  | typeMismatch .. => "TypeMismatch"
  | missing _ => "Missing"
  | conversion .. => "Conversion"
  | stepLimit _ => "StepLimit"
  | fault _ => "Fault"
  | endless => "Endless"

def MachineError.message : MachineError → String
  | unit e => "unit error: " ++ e.message
  | unknownUnit name => "unit not loaded: " ++ name
  | duplicateUnit name => "unit loaded twice: " ++ name
  | noSuchMethod owner name => "no method " ++ name ++ " on " ++ owner
  | typeMismatch expected found => "expected " ++ expected ++ ", found " ++ found
  | missing what => "missing " ++ what
  | conversion value target => "cannot convert " ++ Text.quoted value ++ " to " ++ target
  | stepLimit limit => "instruction budget of " ++ toString limit ++ " exhausted"
  | fault cause => "machine fault: " ++ cause.message
  | endless => "no end of a value"

end Routecraft.Machine
