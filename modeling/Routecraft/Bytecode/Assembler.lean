import Routecraft.Bytecode.Unit

/-!
# Assembling code

Code is written down with constants in place of their indices and labels in place of jump targets. A label
is made first, jumped to from anywhere, and bound to the place of the next instruction. Assembling enters
the constants into a pool and replaces each label by its place.

* `Assembler.emit`, `Assembler.newLabel`, `Assembler.bind`: writing code down.
* `Assembler.assemble`: the finished code, and the pool with its constants; the constants that were entered
  before an error remain.
-/

namespace Routecraft.Bytecode

/-! ## Instructions on constants -/

namespace Instr

def null : Instr Constant := bare .pushNull
def dup : Instr Constant := bare .dup
def pop : Instr Constant := bare .pop
def swap : Instr Constant := bare .swap
def arrayStore : Instr Constant := bare .arrayStore
def returnVoid : Instr Constant := bare .returnVoid
def returnValue : Instr Constant := bare .returnValue

def load (slot : UInt8) : Instr Constant := onLocal .load slot
def store (slot : UInt8) : Instr Constant := onLocal .store slot

def const (c : Constant) : Instr Constant := onConst .loadConst c

def string (s : String) : Instr Constant := const (.string s)

def classOf (t : DataType) : Instr Constant := const (.ofType t)

def getField (owner name : String) (t : DataType) : Instr Constant :=
  onConst .getField (.field ⟨owner, name, t.descriptor⟩)

def putField (owner name : String) (t : DataType) : Instr Constant :=
  onConst .putField (.field ⟨owner, name, t.descriptor⟩)

def getStatic (owner name : String) (t : DataType) : Instr Constant :=
  onConst .getStatic (.field ⟨owner, name, t.descriptor⟩)

def invokeVirtual (owner name : String) (s : Signature) : Instr Constant :=
  onConst .invokeVirtual (.method ⟨owner, name, s.descriptor⟩)

def invokeInterface (owner name : String) (s : Signature) : Instr Constant :=
  onConst .invokeInterface (.interfaceMethod ⟨owner, name, s.descriptor⟩)

def invokeStatic (owner name : String) (s : Signature) : Instr Constant :=
  onConst .invokeStatic (.method ⟨owner, name, s.descriptor⟩)

def invokeSpecial (owner name : String) (s : Signature) : Instr Constant :=
  onConst .invokeSpecial (.method ⟨owner, name, s.descriptor⟩)

def newObject (name : String) : Instr Constant := onConst .newObject (.classRef name)

def newArray (element : DataType) : Instr Constant := onConst .newArray (.ofType element)

def checkCast (t : DataType) : Instr Constant := onConst .checkCast (.ofType t)

end Instr

/-! ## Writing code -/

/-- A place in code that is yet to be bound. -/
structure Label where
  number : UInt16
  deriving DecidableEq, Repr

/-- A number, or the largest one of 16 bits if it has more. -/
def saturate16 (n : Nat) : UInt16 := UInt16.ofNat (min n 65535)

theorem toNat_saturate16 (n : Nat) : (saturate16 n).toNat = min n 65535 := by
  rw [saturate16, UInt16.toNat_ofNat_of_lt']
  show min n 65535 < 65536
  omega

/-- Code as it is written down: its instructions, and the place of each label that is bound. -/
structure Assembler where
  instrs : Array (Instr Constant)
  labels : Array (Option UInt16)
  deriving Repr

namespace Assembler

def empty : Assembler := ⟨#[], #[]⟩

instance : EmptyCollection Assembler := ⟨empty⟩

instance : Inhabited Assembler := ⟨empty⟩

def size (a : Assembler) : Nat := a.instrs.size

def emit (a : Assembler) (i : Instr Constant) : Assembler := { a with instrs := a.instrs.push i }

def emitAll (a : Assembler) (is : List (Instr Constant)) : Assembler := is.foldl emit a

def newLabel (a : Assembler) : Label × Assembler :=
  (⟨saturate16 a.labels.size⟩, { a with labels := a.labels.push none })

/-- Binds a label to the place of the next instruction. A label that was never made stays unbound. -/
def bind (a : Assembler) (l : Label) : Assembler :=
  { a with labels := a.labels.setIfInBounds l.number.toNat (some (saturate16 a.size)) }

def jump (a : Assembler) (op : JumpOp) (l : Label) : Assembler := a.emit (.jump op l.number)

/-! ## Assembling -/

/-- The instruction with the place of its label and the index of its constant. -/
def assembleInstr (labels : Array (Option UInt16)) (b : Interner) :
    Instr Constant → Interner × Except UnitError (Instr UInt16)
  | .bare op => (b, .ok (.bare op))
  | .onLocal op slot => (b, .ok (.onLocal op slot))
  | .pushInt n => (b, .ok (.pushInt n))
  | .onConst op c =>
    match b.intern c with
    | (b, .ok k) => (b, .ok (.onConst op k))
    | (b, .error e) => (b, .error e)
  | .jump op label =>
    match labels[label.toNat]? with
    | some (some place) => (b, .ok (.jump op place))
    | _ => (b, .error (.unboundLabel label))

/-- Assembles instructions onto the code before them. -/
def assembleOnto (labels : Array (Option UInt16)) (done : Code) (b : Interner) :
    List (Instr Constant) → Interner × Except UnitError Code
  | [] => (b, .ok done)
  | i :: rest =>
    match assembleInstr labels b i with
    | (b, .ok i) => assembleOnto labels (done.push i) b rest
    | (b, .error e) => (b, .error e)

/-- The finished code, with its constants entered into a pool. -/
def assemble (a : Assembler) (b : Interner) : Interner × Except UnitError Code :=
  if a.size < 65536 then assembleOnto a.labels #[] b a.instrs.toList
  else (b, .error (.tableOverflow "code"))

end Assembler

end Routecraft.Bytecode
