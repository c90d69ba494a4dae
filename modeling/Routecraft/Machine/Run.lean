import Routecraft.Machine.Loader

/-!
# Running units

A run is a sequence of steps, one for each instruction. Its state is the frame of the method that runs and
the frames of those that wait for it. Code of the host runs within a step.

* `Program.advance`: one step.
* `Program.run`: steps until the run ends or its budget does.
* `Program.invoke`, `Program.instantiate`, `Program.install`, `Program.dispatch`: what the host may ask for.
-/

namespace Routecraft.Machine

open Bytecode

/-- A running method. -/
structure Frame where
  unit : CodeUnit
  method : Method
  /-- The place of the next instruction. -/
  pc : Nat
  locals : Array Value
  /-- The operands, top first. -/
  stack : List Value
  /-- Whether the caller keeps the result. -/
  keeps : Bool

namespace Frame

def push (f : Frame) (v : Value) : Frame := { f with stack := v :: f.stack }

/-- The frame with the result of a call on top, if it is kept. -/
def receive (f : Frame) (keeps : Bool) (result : Value) : Frame :=
  if keeps then f.push result else f

def top (f : Frame) : Action Value :=
  match f.stack with
  | v :: _ => pure v
  | [] => throw (.fault .underflow)

def pop (f : Frame) : Action (Value × Frame) :=
  match f.stack with
  | v :: rest => pure (v, { f with stack := rest })
  | [] => throw (.fault .underflow)

/-- Takes the arguments of a call, the last one on top. -/
def popArgs (f : Frame) (count : Nat) : Action (List Value × Frame) :=
  if count ≤ f.stack.length then
    pure ((f.stack.take count).reverse, { f with stack := f.stack.drop count })
  else throw (.fault .underflow)

def load (f : Frame) (slot : UInt8) : Action Value :=
  match f.locals[slot.toNat]? with
  | some v => pure v
  | none => throw (.fault (.unsetLocal slot))

/-- Sets a local. The locals before it that have no value are null from then on. -/
def store (f : Frame) (slot : UInt8) (v : Value) : Frame :=
  let missing := slot.toNat + 1 - f.locals.size
  { f with locals := (f.locals ++ Array.replicate missing Value.null).setIfInBounds slot.toNat v }

end Frame

/-- What comes of a call: a result, or a method of a unit that has to run for it. -/
inductive Called where
  | result (v : Value)
  | entered (f : Frame)

/-- What comes of a step. -/
inductive Progress where
  | running (f : Frame) (callers : List Frame)
  | finished (result : Value)

def constantValue : Constant → Action Value
  | .int n => pure (.int n)
  | .long n => pure (.long n)
  | .float bits => pure (.float bits)
  | .double bits => pure (.double bits)
  | .string s => pure (.text s)
  | .classRef name => pure (.classRef name)
  | c => throw (.fault (.unloadable c.display))

namespace Program

variable (p : Program)

/-! ## Calls -/

def enter (u : CodeUnit) (name : String) (locals : List Value) : Action Called :=
  match u.method? name with
  | some method => pure (.entered ⟨u, method, 0, locals.toArray, [], true⟩)
  | none => throw (.noSuchMethod u.name name)

def call (receiver : Value) (name : String) (args : List Value) : Action Called := do
  match receiver with
  | .object unit _ =>
    match p.unit? unit with
    | some u => enter u name (receiver :: args)
    | none => throw (.unknownUnit unit)
  | .host className handle =>
    match (← get).hostObject? handle with
    | some object => return .result (← object.call p.stubs name args)
    | none => throw (.noSuchMethod className name)
  | .null => throw (.fault (.callOnNull name))
  | .boxed kind content =>
    if name = Compile.Framework.unboxName kind then return .result content
    else throw (.noSuchMethod kind.boxClass name)
  | v => throw (.noSuchMethod (v.className?.getD "") name)

/-- Calls a static method: one of the application, or else one of the framework. -/
def callStatic (owner name : String) (args : List Value) : Action Value :=
  match p.statics.lookup ⟨owner, name⟩ with
  | some code => code args
  | none => callFramework owner name args

/-! ## Steps -/

def stepCall (f : Frame) (callers : List Frame) (op : ConstOp) (k : UInt16) : Action Progress := do
  let member ← orUnitFault (f.unit.pool.methodAt k (op == .invokeInterface))
  let signature ← orUnitFault (signatureOf member.descriptor)
  let keeps := signature.result.isSome
  let (args, f) ← f.popArgs signature.params.length
  -- A static method has no receiver below its arguments.
  if op == .invokeStatic then
    return .running (f.receive keeps (← p.callStatic member.owner member.name args)) callers
  else
    let (receiver, f) ← f.pop
    match ← p.call receiver member.name args with
    | .result v => return .running (f.receive keeps v) callers
    | .entered g => return .running { g with keeps } (f :: callers)

/-- What an instruction on a constant that calls no method makes of its frame. -/
def stepConst (f : Frame) (op : ConstOp) (k : UInt16) : Action Frame := do
  let pool := f.unit.pool
  match op with
  | .loadConst => return f.push (← constantValue (← orUnitFault (pool.get k)))
  | .getField =>
    let member ← orUnitFault (pool.fieldAt k)
    let (target, f) ← f.pop
    let number ← target.asObject
    return f.push ((← get).field number member.name)
  | .putField =>
    let member ← orUnitFault (pool.fieldAt k)
    let (v, f) ← f.pop
    let (target, f) ← f.pop
    let number ← target.asObject
    modify (·.setField number member.name v)
    return f
  | .getStatic =>
    let member ← orUnitFault (pool.fieldAt k)
    return f.push (staticField member.owner member.name)
  | .newObject =>
    let unit ← orUnitFault (pool.classAt k)
    return f.push (← modifyGet (·.newObject unit))
  | .newArray =>
    let element ← orUnitFault (do dataTypeOfClass (← pool.classAt k))
    let (size, f) ← f.pop
    let size ← size.asInt
    if size < 0 then throw (.fault (.negativeSize size))
    return f.push (← modifyGet (·.newArray (DataType.array element).className size.toInt.toNat))
  | .checkCast =>
    let target ← orUnitFault (pool.classAt k)
    let v ← f.top
    match v.className? with
    | some className =>
      if p.hierarchy.isSubtype className target then return f else mismatch target v
    | none => return f
  | .invokeVirtual | .invokeInterface | .invokeStatic | .invokeSpecial => return f

/-- Stores an item into an array: the array, the index and the value are on the stack, in this order. -/
def stepArrayStore (f : Frame) : Action Frame := do
  let (v, f) ← f.pop
  let (index, f) ← f.pop
  let index ← index.asInt
  let (target, f) ← f.pop
  match target with
  | .array _ number =>
    let size := ((← get).arrays.getD number #[]).size
    if 0 ≤ index ∧ index.toInt.toNat < size then
      modify (·.setItem number index.toInt.toNat v)
      return f
    else throw (.fault (.outOfBounds index size))
  | v => mismatch "array" v

/-- Gives a result to the caller, or to the host if no method waits for it. -/
def giveBack (f : Frame) (callers : List Frame) (result : Value) : Progress :=
  match callers with
  | [] => .finished result
  | g :: callers => .running (g.receive f.keeps result) callers

/-- The step of an instruction, in a frame that is set to go on behind it. -/
def step (f : Frame) (callers : List Frame) (i : Instr UInt16) : Action Progress := do
  match i with
  | .bare .pushNull => return .running (f.push .null) callers
  | .bare .arrayStore => return .running (← stepArrayStore f) callers
  | .bare .dup => return .running (f.push (← f.top)) callers
  | .bare .pop => return .running (← f.pop).2 callers
  | .bare .swap =>
    let (v, f) ← f.pop
    let (w, f) ← f.pop
    return .running ((f.push v).push w) callers
  | .bare .returnVoid => return giveBack f callers .null
  | .bare .returnValue => return giveBack f callers (← f.pop).1
  | .onLocal .load slot => return .running (f.push (← f.load slot)) callers
  | .onLocal .store slot =>
    let (v, f) ← f.pop
    return .running (f.store slot v) callers
  | .pushInt n => return .running (f.push (.int n)) callers
  | .jump .goto target => return .running { f with pc := target.toNat } callers
  | .jump .ifFalse target =>
    let (v, f) ← f.pop
    let n ← v.asInt
    return .running (if n == 0 then { f with pc := target.toNat } else f) callers
  | .onConst op k =>
    match op with
    | .invokeVirtual | .invokeInterface | .invokeStatic | .invokeSpecial =>
      p.stepCall f callers op k
    | op => return .running (← p.stepConst f op k) callers

/-- One step. -/
def advance (f : Frame) (callers : List Frame) : Action Progress :=
  match f.method.code[f.pc]? with
  | some i => p.step { f with pc := f.pc + 1 } callers i
  | none => throw (.fault (.outOfCode f.pc f.method.name))

/-! ## Runs -/

/-- Runs for at most `budget` steps. -/
def run : (budget : Nat) → Frame → List Frame → Action Value
  | 0, _, _ => throw (.stepLimit p.stepLimit)
  | budget + 1, f, callers => do
    match ← p.advance f callers with
    | .running f callers => run budget f callers
    | .finished result => pure result

/-- Calls a method and runs what has to run for it. -/
def invoke (receiver : Value) (name : String) (args : List Value) : Action Value := do
  match ← p.call receiver name args with
  | .result v => pure v
  | .entered f => p.run p.stepLimit f []

/-- A new object of a unit, constructed with a provider. -/
def instantiate (unit : String) (provider : Value) : Action Value := do
  if (p.unit? unit).isNone then throw (.unknownUnit unit)
  let object ← modifyGet (·.newObject unit)
  let _ ← p.invoke object Compile.Framework.constructorName [provider]
  return object

/-- Tells a router of the routes of a registration unit. -/
def install (unit : String) (provider : Value) (router : Nat) : Action Unit := do
  let registration ← p.instantiate unit provider
  let target ← handleTo Platform.router (.router router)
  let _ ← p.invoke registration Compile.Framework.installName [target]

/-- Has a handler answer an exchange. -/
def dispatch (handler : Value) (exchange : Nat) : Action Value := do
  p.invoke handler Compile.Framework.applyName
    [← handleTo Platform.context (.context exchange)]

end Program

end Routecraft.Machine
