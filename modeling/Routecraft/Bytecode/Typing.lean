import Routecraft.Bytecode.Hierarchy
import Routecraft.Bytecode.Unit

/-!
# The effect of instructions on types

Code is checked by running it on types instead of values. A frame type gives the types of the stack slots,
topmost first, and of the locals, where a local may hold nothing. Where two paths meet, their frame types
are joined slot by slot: of two classes the upper one stays, of unrelated ones the root.

* `Hierarchy.accepts`: whether a value of a slot type may stand where a data type is declared.
* `Checker.step`: the frame type after an instruction, and where control goes.
* `FrameType.join`: the frame type at a place that two paths lead to.
-/

namespace Routecraft.Bytecode

/-! ## Single slots -/

namespace Hierarchy

/-- Whether a value of a slot type may stand where a data type is declared. -/
def accepts (h : Hierarchy) (declared : DataType) (source : SlotType) : Bool :=
  match source, declared with
  | .int, .boolean => true
  | .int, .byte => true
  | .int, .char => true
  | .int, .short => true
  | .int, .int => true
  | .long, .long => true
  | .float, .float => true
  | .double, .double => true
  | .null, t => t.isReference
  | .ref name, .object sup => h.isSubtype name sup
  | .ref name, .array element => h.isSubtype name (DataType.array element).className
  | _, _ => false

/-- The type of a slot that holds a value of either type. -/
def join (h : Hierarchy) (s t : SlotType) : Option SlotType :=
  if s = t then some s
  else
    match s, t with
    | .null, .ref y => some (.ref y)
    | .ref x, .null => some (.ref x)
    | .ref x, .ref y =>
      if h.isSubtype x y then some (.ref y)
      else if h.isSubtype y x then some (.ref x)
      else some (.ref rootClass)
    | _, _ => none

end Hierarchy

/-! ## Frames -/

/-- The types of a frame: its stack, topmost slot first, and its locals. -/
structure FrameType where
  stack : List SlotType
  locals : List (Option SlotType)
  deriving DecidableEq, Repr

/-- Why an instruction has no effect on a frame: something is wrong with the unit, or the frame does not
suit the instruction. -/
inductive StepError where
  | unit (e : UnitError)
  | frame (fault : FrameFault)
  deriving DecidableEq, Repr

/-- The error of an instruction at its place in a method. -/
def StepError.at (method : String) (index : Nat) : StepError → UnitError
  | unit e => e
  | frame fault => .verify method index fault

/-- A fault of the unit as the error of a step. -/
def ofUnit {α : Type} : Except UnitError α → Except StepError α
  | .ok x => .ok x
  | .error e => .error (.unit e)

namespace FrameType

def push (f : FrameType) (t : SlotType) : FrameType := { f with stack := t :: f.stack }

def pop (f : FrameType) : Except StepError (SlotType × FrameType) :=
  match f.stack with
  | t :: stack => .ok (t, { f with stack })
  | [] => .error (.frame .underflow)

/-- Takes a slot whose value may stand where a data type is declared. -/
def popAccepted (f : FrameType) (h : Hierarchy) (declared : DataType) :
    Except StepError FrameType := do
  let (t, f) ← f.pop
  if h.accepts declared t then .ok f else .error (.frame (.expected declared t))

/-- Takes the arguments of a call, the last one first. -/
def popArgs (f : FrameType) (h : Hierarchy) (params : List DataType) : Except StepError FrameType :=
  params.reverse.foldlM (fun f declared => f.popAccepted h declared) f

/-- Takes a reference to an initialized object. -/
def popReference (f : FrameType) : Except StepError (SlotType × FrameType) := do
  let (t, f) ← f.pop
  if t.isReference then .ok (t, f) else .error (.frame (.expectedReference t))

/-- Sets a local; the locals before it that are not there yet hold nothing. -/
def setLocal (f : FrameType) (slot : Nat) (t : SlotType) : FrameType :=
  let padded := f.locals ++ List.replicate (slot + 1 - f.locals.length) none
  { f with locals := padded.set slot (some t) }

/-- The frame after the constructor of an object of class `name` has run: every slot that holds one whose
constructor has not run holds an initialized one. -/
def constructed (f : FrameType) (name : String) : FrameType :=
  let ready (t : SlotType) : SlotType := if t = .raw name then .ref name else t
  { stack := f.stack.map ready, locals := f.locals.map (·.map ready) }

/-- The stack where two paths meet; the stacks are of one depth. -/
def joinStacks (h : Hierarchy) (s t : List SlotType) : Option (List SlotType) :=
  if s.length = t.length then (s.zip t).mapM fun (x, y) => h.join x y else none

/-- The locals where two paths meet: a local stays set if both paths set it to types with a join. -/
def joinLocals (h : Hierarchy) (s t : List (Option SlotType)) : List (Option SlotType) :=
  let size := max s.length t.length
  let pad (l : List (Option SlotType)) := l ++ List.replicate (size - l.length) none
  List.zipWith (fun x y => do h.join (← x) (← y)) (pad s) (pad t)

/-- The frame type where two paths meet. -/
def join (h : Hierarchy) (f g : FrameType) : Option FrameType :=
  (joinStacks h f.stack g.stack).map fun stack => ⟨stack, joinLocals h f.locals g.locals⟩

end FrameType

/-! ## Instructions -/

/-- Where control goes after an instruction. -/
inductive Flow where
  | next
  | branch (target : UInt16)
  | jump (target : UInt16)
  | exit
  deriving DecidableEq, Repr

/-- What an instruction is checked against: the constants, the classes, and the method's result. -/
structure Checker where
  pool : Pool
  hierarchy : Hierarchy
  result : Option DataType

namespace Checker

variable (c : Checker)

def loadType : Constant → Except StepError SlotType
  | .int _ => .ok .int
  | .long _ => .ok .long
  | .float _ => .ok .float
  | .double _ => .ok .double
  | .string _ => .ok (.ref Platform.string)
  | .classRef _ => .ok (.ref Platform.classClass)
  | k => .error (.frame (.unloadable k.kindName))

def stepBare (f : FrameType) : BareOp → Except StepError (Flow × FrameType)
  | .pushNull => .ok (.next, f.push .null)
  | .dup => do
    let (t, f) ← f.pop
    .ok (.next, (f.push t).push t)
  | .pop => do
    let (_, f) ← f.pop
    .ok (.next, f)
  | .swap => do
    let (s, f) ← f.pop
    let (t, f) ← f.pop
    .ok (.next, (f.push s).push t)
  | .arrayStore => do
    let (value, f) ← f.popReference
    let f ← f.popAccepted c.hierarchy .int
    match ← f.pop with
    | (.ref name, f) =>
      if name.toList.head? = some '[' then
        let array ← ofUnit (dataTypeOf name)
        if c.hierarchy.accepts array.item value then .ok (.next, f)
        else .error (.frame (.cannotStore value name))
      else .error (.frame (.expectedArray (.ref name)))
    | (t, _) => .error (.frame (.expectedArray t))
  | .returnVoid =>
    match c.result with
    | none => .ok (.exit, f)
    | some result => .error (.frame (.returnsNothing result))
  | .returnValue =>
    match c.result with
    | none => .error (.frame .returnsValue)
    | some result => do .ok (.exit, ← f.popAccepted c.hierarchy result)

def stepLocal (f : FrameType) (slot : UInt8) : LocalOp → Except StepError (Flow × FrameType)
  | .load =>
    match f.locals[slot.toNat]? with
    | some (some t) => .ok (.next, f.push t)
    | _ => .error (.frame (.unsetLocal slot))
  | .store => do
    let (t, f) ← f.pop
    .ok (.next, f.setLocal slot.toNat t)

/-- Puts the result of a call on the stack, if there is one. -/
def pushResult (f : FrameType) (s : Signature) : Flow × FrameType :=
  match s.result with
  | some t => (.next, f.push (.of t))
  | none => (.next, f)

/-- The effect of a call on an object of the method's owner. -/
def stepInvoke (f : FrameType) (k : UInt16) (ofInterface : Bool) :
    Except StepError (Flow × FrameType) := do
  let m ← ofUnit (c.pool.methodAt k ofInterface)
  let s ← ofUnit (signatureOf m.descriptor)
  let f ← f.popArgs c.hierarchy s.params
  let f ← f.popAccepted c.hierarchy (.object m.owner)
  .ok (pushResult f s)

def stepInvokeStatic (f : FrameType) (k : UInt16) : Except StepError (Flow × FrameType) := do
  let m ← ofUnit (c.pool.methodAt k false)
  let s ← ofUnit (signatureOf m.descriptor)
  let f ← f.popArgs c.hierarchy s.params
  .ok (pushResult f s)

/-- The effect of a constructor's call: the object it is called on is initialized afterwards. -/
def stepInvokeSpecial (f : FrameType) (k : UInt16) : Except StepError (Flow × FrameType) := do
  let m ← ofUnit (c.pool.methodAt k false)
  let s ← ofUnit (signatureOf m.descriptor)
  let f ← f.popArgs c.hierarchy s.params
  if m.name ≠ "<init>" then .error (.frame .notConstructor)
  else
    let (t, f) ← f.pop
    if t = .raw m.owner then .ok (pushResult (f.constructed m.owner) s)
    else .error (.frame (.constructorOf m.owner t))

def stepConst (f : FrameType) (k : UInt16) : ConstOp → Except StepError (Flow × FrameType)
  | .loadConst => do
    let t ← loadType (← ofUnit (c.pool.get k))
    .ok (.next, f.push t)
  | .getField => do
    let m ← ofUnit (c.pool.fieldAt k)
    let t ← ofUnit (dataTypeOf m.descriptor)
    let f ← f.popAccepted c.hierarchy (.object m.owner)
    .ok (.next, f.push (.of t))
  | .putField => do
    let m ← ofUnit (c.pool.fieldAt k)
    let t ← ofUnit (dataTypeOf m.descriptor)
    let f ← f.popAccepted c.hierarchy t
    let f ← f.popAccepted c.hierarchy (.object m.owner)
    .ok (.next, f)
  | .getStatic => do
    let m ← ofUnit (c.pool.fieldAt k)
    let t ← ofUnit (dataTypeOf m.descriptor)
    .ok (.next, f.push (.of t))
  | .invokeVirtual => c.stepInvoke f k false
  | .invokeInterface => c.stepInvoke f k true
  | .invokeStatic => c.stepInvokeStatic f k
  | .invokeSpecial => c.stepInvokeSpecial f k
  | .newObject => do
    let name ← ofUnit (c.pool.classAt k)
    .ok (.next, f.push (.raw name))
  | .newArray => do
    let name ← ofUnit (c.pool.classAt k)
    let element ← ofUnit (dataTypeOfClass name)
    let f ← f.popAccepted c.hierarchy .int
    .ok (.next, f.push (.ref (DataType.array element).className))
  | .checkCast => do
    let name ← ofUnit (c.pool.classAt k)
    let (_, f) ← f.popReference
    .ok (.next, f.push (.ref name))

/-- The effect of an instruction: where control goes, and the frame type there. -/
def step (f : FrameType) : Instr UInt16 → Except StepError (Flow × FrameType)
  | .bare op => c.stepBare f op
  | .onLocal op slot => stepLocal f slot op
  | .pushInt _ => .ok (.next, f.push .int)
  | .onConst op k => c.stepConst f k op
  | .jump .ifFalse target => do .ok (.branch target, ← f.popAccepted c.hierarchy .boolean)
  | .jump .goto target => .ok (.jump target, f)

end Checker

end Routecraft.Bytecode
