import Routecraft.Proofs.Assembly.Assembling
import Routecraft.Proofs.Execution.Actions
import Routecraft.Proofs.Format.RoundTrip

/-!
# What code does to its operands

Code as it is written down, read as an action on the locals and the stack of the frame that it runs in. A call
is carried out as a whole: the method runs to its end before the next instruction.

* `Program.effect`, `Program.effects`: what an instruction, or several in a row, does.
* `Program.callWith`: what a call does, once its signature is known.
* `Program.step_eq_effect`, `Program.step_call_eq`: how a step of a frame does it.
-/

namespace Routecraft.Machine

open Bytecode

section

variable {α β : Type}

@[simp] theorem orUnitFault_ok (x : α) : orUnitFault (.ok x) = pure x := rfl

@[simp] theorem throw_bind (e : MachineError) (k : α → Action β) : (throw e : Action α) >>= k = throw e := rfl

@[simp] theorem map_throw (e : MachineError) (g : α → β) : g <$> (throw e : Action α) = throw e := rfl

@[simp] theorem map_mismatch (expected : String) (found : Value) (g : α → β) :
    g <$> (mismatch expected found : Action α) = mismatch expected found := rfl

end

/-! ## Operands -/

/-- The locals and the stack of a frame, top first. -/
structure Operands where
  locals : Array Value
  stack : List Value

namespace Operands

variable (o : Operands)

def push (v : Value) : Operands := { o with stack := v :: o.stack }

/-- The operands with the result of a call on top, if it is kept. -/
def receive (keeps : Bool) (result : Value) : Operands := if keeps then o.push result else o

def top : Action Value :=
  match o.stack with
  | v :: _ => pure v
  | [] => throw (.fault .underflow)

def pop : Action (Value × Operands) :=
  match o.stack with
  | v :: rest => pure (v, { o with stack := rest })
  | [] => throw (.fault .underflow)

/-- Takes the arguments of a call, the last one on top. -/
def popArgs (count : Nat) : Action (List Value × Operands) :=
  if count ≤ o.stack.length then
    pure ((o.stack.take count).reverse, { o with stack := o.stack.drop count })
  else throw (.fault .underflow)

def load (slot : UInt8) : Action Value :=
  match o.locals[slot.toNat]? with
  | some v => pure v
  | none => throw (.fault (.unsetLocal slot))

def store (slot : UInt8) (v : Value) : Operands :=
  let missing := slot.toNat + 1 - o.locals.size
  { o with locals := (o.locals ++ Array.replicate missing Value.null).setIfInBounds slot.toNat v }

variable {locals : Array Value} {stack : List Value} {v w x : Value}

@[simp] theorem push_mk : (⟨locals, stack⟩ : Operands).push v = ⟨locals, v :: stack⟩ := rfl

@[simp] theorem top_mk_cons : (⟨locals, v :: stack⟩ : Operands).top = pure v := rfl

@[simp] theorem pop_mk_cons : (⟨locals, v :: stack⟩ : Operands).pop = pure (v, ⟨locals, stack⟩) := rfl

/-- Arguments that are on the stack are taken from it. -/
theorem popArgs_mk_append (args : List Value) :
    (⟨locals, args.reverse ++ stack⟩ : Operands).popArgs args.length = pure (args, ⟨locals, stack⟩) := by
  unfold popArgs
  simp

end Operands

namespace Frame

/-- The frame at a place of its method, with operands. -/
def placed (f : Frame) (pc : Nat) (o : Operands) : Frame := { f with pc, locals := o.locals, stack := o.stack }

variable (f : Frame) (pc : Nat) (o : Operands)

@[simp] theorem unit_placed : (f.placed pc o).unit = f.unit := rfl
@[simp] theorem method_placed : (f.placed pc o).method = f.method := rfl
@[simp] theorem keeps_placed : (f.placed pc o).keeps = f.keeps := rfl
@[simp] theorem pc_placed : (f.placed pc o).pc = pc := rfl

@[simp] theorem placed_placed (pc' : Nat) (o' : Operands) : (f.placed pc o).placed pc' o' = f.placed pc' o' := rfl

@[simp] theorem push_placed (v : Value) : (f.placed pc o).push v = f.placed pc (o.push v) := rfl

@[simp] theorem receive_placed (keeps : Bool) (v : Value) :
    (f.placed pc o).receive keeps v = f.placed pc (o.receive keeps v) := by
  cases keeps <;> rfl

@[simp] theorem store_placed (slot : UInt8) (v : Value) : (f.placed pc o).store slot v = f.placed pc (o.store slot v) :=
  rfl

@[simp] theorem load_placed (slot : UInt8) : (f.placed pc o).load slot = o.load slot := rfl

@[simp] theorem top_placed : (f.placed pc o).top = o.top := rfl

@[simp] theorem pop_placed : (f.placed pc o).pop = o.pop >>= fun r => pure (r.1, f.placed pc r.2) := by
  obtain ⟨locals, stack⟩ := o
  cases stack <;> rfl

@[simp] theorem popArgs_placed (count : Nat) :
    (f.placed pc o).popArgs count = o.popArgs count >>= fun r => pure (r.1, f.placed pc r.2) := by
  show (if count ≤ o.stack.length then _ else _) = _
  unfold Operands.popArgs
  by_cases h : count ≤ o.stack.length
  · rw [if_pos h, if_pos h]
    rfl
  · rw [if_neg h, if_neg h]
    rfl

end Frame

/-! ## Effects -/

namespace Program

variable (p : Program)

/-- What a call does, by its signature. -/
def callWith (s : Signature) (owner name : String) (isStatic : Bool) (o : Operands) : Action Operands := do
  let (args, o) ← o.popArgs s.params.length
  if isStatic then
    return o.receive s.result.isSome (← p.callStatic owner name args)
  else
    let (receiver, o) ← o.pop
    return o.receive s.result.isSome (← p.invoke receiver name args)

def constEffect (op : ConstOp) (c : Constant) (o : Operands) : Action Operands := do
  match op, c with
  | .loadConst, c => return o.push (← constantValue c)
  | .getField, .field m =>
    let (target, o) ← o.pop
    let number ← target.asObject
    return o.push ((← get).field number m.name)
  | .putField, .field m =>
    let (v, o) ← o.pop
    let (target, o) ← o.pop
    let number ← target.asObject
    modify (·.setField number m.name v)
    return o
  | .getStatic, .field m => return o.push (staticField m.owner m.name)
  | .newObject, .classRef unit => return o.push (← modifyGet (·.newObject unit))
  | .newArray, .classRef name =>
    let element ← orUnitFault (dataTypeOfClass name)
    let (size, o) ← o.pop
    let size ← size.asInt
    if size < 0 then throw (.fault (.negativeSize size))
    return o.push (← modifyGet (·.newArray (DataType.array element).className size.toInt.toNat))
  | .checkCast, .classRef target =>
    let v ← o.top
    match v.className? with
    | some className => if p.hierarchy.isSubtype className target then return o else mismatch target v
    | none => return o
  | .invokeStatic, .method m => p.callWith (← orUnitFault (signatureOf m.descriptor)) m.owner m.name true o
  | .invokeVirtual, .method m | .invokeSpecial, .method m | .invokeInterface, .interfaceMethod m =>
    p.callWith (← orUnitFault (signatureOf m.descriptor)) m.owner m.name false o
  | _, _ => return o

def arrayStoreEffect (o : Operands) : Action Operands := do
  let (v, o) ← o.pop
  let (index, o) ← o.pop
  let index ← index.asInt
  let (target, o) ← o.pop
  match target with
  | .array _ number =>
    let size := ((← get).arrays.getD number #[]).size
    if 0 ≤ index ∧ index.toInt.toNat < size then
      modify (·.setItem number index.toInt.toNat v)
      return o
    else throw (.fault (.outOfBounds index size))
  | v => mismatch "array" v

/-- What an instruction does that control goes on behind. -/
def effect (i : Instr Constant) (o : Operands) : Action Operands := do
  match i with
  | .bare .pushNull => return o.push .null
  | .bare .arrayStore => arrayStoreEffect o
  | .bare .dup => return o.push (← o.top)
  | .bare .pop => return (← o.pop).2
  | .bare .swap =>
    let (v, o) ← o.pop
    let (w, o) ← o.pop
    return (o.push v).push w
  | .onLocal .load slot => return o.push (← o.load slot)
  | .onLocal .store slot =>
    let (v, o) ← o.pop
    return o.store slot v
  | .pushInt n => return o.push (.int n)
  | .onConst op c => p.constEffect op c o
  | _ => return o

/-- What instructions in a row do. -/
def effects (is : List (Instr Constant)) (o : Operands) : Action Operands :=
  is.foldlM (fun o i => p.effect i o) o

@[simp] theorem effects_nil (o : Operands) : p.effects [] o = pure o := rfl

@[simp] theorem effects_cons (i : Instr Constant) (is : List (Instr Constant)) (o : Operands) :
    p.effects (i :: is) o = p.effect i o >>= p.effects is := List.foldlM_cons

@[simp] theorem effects_append (is js : List (Instr Constant)) (o : Operands) :
    p.effects (is ++ js) o = p.effects is o >>= p.effects js := List.foldlM_append

/-- Loading a local that is set. -/
theorem effect_load {ls : Array Value} {slot : UInt8} {v : Value} (h : ls[slot.toNat]? = some v)
    (st : List Value) : p.effect (.load slot) ⟨ls, st⟩ = pure ⟨ls, v :: st⟩ := by
  show (Operands.load _ _ >>= _) = _
  unfold Operands.load
  rw [h]
  rfl

end Program

/-! ## Calls -/

end Routecraft.Machine

namespace Routecraft.Bytecode

/-- The method that an instruction calls on an object. -/
def Instr.callee? : Instr Constant → Option Member
  | .onConst .invokeVirtual (.method m) => some m
  | .onConst .invokeSpecial (.method m) => some m
  | .onConst .invokeInterface (.interfaceMethod m) => some m
  | _ => none

end Routecraft.Bytecode

namespace Routecraft.Machine

open Bytecode

namespace Program

variable {p : Program} {f : Frame} {callers : List Frame} {labels : Array (Option UInt16)} {pc : Nat}
  {o : Operands} {i : Instr Constant} {i' : Instr UInt16}

/-- Storing into an array reads and changes the operands alone. -/
theorem stepArrayStore_placed :
    stepArrayStore (f.placed pc o) = arrayStoreEffect o >>= fun o => pure (f.placed pc o) := by
  simp only [stepArrayStore, arrayStoreEffect, Frame.pop_placed, bind_assoc, pure_bind]
  refine bind_congr fun v => bind_congr fun index => bind_congr fun n => bind_congr fun target => ?_
  obtain ⟨target, o⟩ := target
  cases target
  case array className number =>
    simp only [bind_assoc]
    refine bind_congr fun s => ?_
    split <;> simp
  all_goals simp

/-- An instruction on a constant that calls no method does what it does with the constant. -/
theorem stepConst_placed {op : ConstOp} {k : UInt16} {c : Constant} (hk : f.unit.pool.get k = .ok c)
    (htakes : op.takes c) (hcall : (Instr.onConst op c).callee? = none) (hstatic : op ≠ .invokeStatic) :
    p.stepConst (f.placed pc o) op k = p.constEffect op c o >>= fun o => pure (f.placed pc o) := by
  cases op
  case loadConst => simp [stepConst, constEffect, hk]
  case getField =>
    cases c <;> simp [ConstOp.takes] at htakes
    simp [stepConst, constEffect, Pool.fieldAt_eq_ok.mpr hk]
  case putField =>
    cases c <;> simp [ConstOp.takes] at htakes
    simp [stepConst, constEffect, Pool.fieldAt_eq_ok.mpr hk]
  case getStatic =>
    cases c <;> simp [ConstOp.takes] at htakes
    simp [stepConst, constEffect, Pool.fieldAt_eq_ok.mpr hk]
  case newObject =>
    cases c <;> simp [ConstOp.takes] at htakes
    simp [stepConst, constEffect, Pool.classAt_eq_ok.mpr hk]
  case newArray =>
    cases c <;> simp [ConstOp.takes] at htakes
    case classRef name =>
      have hclass (name : String) : ((Except.ok name : Except UnitError String) >>= dataTypeOfClass) =
          dataTypeOfClass name := rfl
      simp only [stepConst, constEffect, Frame.unit_placed, Pool.classAt_eq_ok.mpr hk, hclass,
        Frame.pop_placed, bind_assoc, pure_bind]
      refine bind_congr fun element => bind_congr fun size => bind_congr fun n => ?_
      split <;> simp
  case checkCast =>
    cases c <;> simp [ConstOp.takes] at htakes
    case classRef name =>
      simp only [stepConst, constEffect, Frame.unit_placed, Pool.classAt_eq_ok.mpr hk, orUnitFault_ok,
        Frame.top_placed, bind_assoc, pure_bind]
      refine bind_congr fun v => ?_
      cases v.className? with
      | none => simp
      | some className =>
          by_cases hsub : p.hierarchy.isSubtype className name = true
          · simp [hsub]
          · simp [hsub]
  case invokeStatic => exact absurd rfl hstatic
  all_goals cases c <;> simp [ConstOp.takes, Instr.callee?] at htakes hcall

/-- A static call reads and changes the operands alone. -/
theorem stepCall_static {k : UInt16} {m : Member} (hk : f.unit.pool.get k = .ok (.method m)) :
    p.stepCall (f.placed pc o) callers .invokeStatic k =
      p.constEffect .invokeStatic (.method m) o >>= fun o => pure (.running (f.placed pc o) callers) := by
  have hm : f.unit.pool.methodAt k false = .ok m := Pool.methodAt_eq_ok.mpr hk
  have hinterface : (ConstOp.invokeStatic == .invokeInterface) = false := rfl
  simp [stepCall, constEffect, callWith, hinterface, hm]

/-- A step of an instruction other than a call on an object does what the instruction does. -/
theorem step_eq_effect (hi : Instr.Resolves f.unit.pool labels i' i) (hstraight : i.isStraight)
    (hcall : i.callee? = none) :
    p.step (f.placed pc o) callers i' =
      p.effect i o >>= fun o => pure (.running (f.placed pc o) callers) := by
  cases hi with
  | bare op =>
      cases op
      case arrayStore => simp [step, effect, stepArrayStore_placed]
      case returnVoid => simp [Instr.isStraight] at hstraight
      case returnValue => simp [Instr.isStraight] at hstraight
      all_goals simp [step, effect]
  | onLocal op slot => cases op <;> simp [step, effect]
  | pushInt n => simp [step, effect]
  | jump op => simp [Instr.isStraight] at hstraight
  | @onConst op k c hk =>
      by_cases hstatic : op = .invokeStatic
      · subst hstatic
        cases c <;> simp [Instr.isStraight, ConstOp.takes] at hstraight
        case method m => exact stepCall_static hk
      · have hconst : p.step (f.placed pc o) callers (.onConst op k) =
            p.stepConst (f.placed pc o) op k >>= fun f => pure (.running f callers) := by
          cases op
          case invokeVirtual => cases c <;> simp [Instr.isStraight, ConstOp.takes, Instr.callee?] at hstraight hcall
          case invokeInterface => cases c <;> simp [Instr.isStraight, ConstOp.takes, Instr.callee?] at hstraight hcall
          case invokeSpecial => cases c <;> simp [Instr.isStraight, ConstOp.takes, Instr.callee?] at hstraight hcall
          case invokeStatic => exact absurd rfl hstatic
          all_goals rfl
        rw [hconst, stepConst_placed hk hstraight hcall hstatic]
        simp [effect]

/-- How a call on an object goes on: with its result, or with the method that has to run for it. -/
def goOn (f : Frame) (callers : List Frame) (keeps : Bool) : Called → Progress
  | .result v => .running (f.receive keeps v) callers
  | .entered g => .running { g with keeps } (f :: callers)

/-- Only three instructions call a method of an object. -/
theorem callee?_eq_some {m : Member} (h : i.callee? = some m) :
    i = .onConst .invokeVirtual (.method m) ∨ i = .onConst .invokeSpecial (.method m) ∨
      i = .onConst .invokeInterface (.interfaceMethod m) := by
  unfold Instr.callee? at h
  split at h <;> simp_all

/-- A call on an object takes its arguments and the object, and is then made. -/
theorem step_callee {m : Member} (hi : Instr.Resolves f.unit.pool labels i' i) (hm : i.callee? = some m) :
    p.step (f.placed pc o) callers i' = do
      let s ← orUnitFault (signatureOf m.descriptor)
      let (args, o) ← o.popArgs s.params.length
      let (receiver, o) ← o.pop
      return goOn (f.placed pc o) callers s.result.isSome (← p.call receiver m.name args) := by
  have hstep : ∃ op k, i' = .onConst op k ∧ f.unit.pool.methodAt k (op == .invokeInterface) = .ok m ∧
      (op == .invokeStatic) = false ∧
      p.step (f.placed pc o) callers i' = p.stepCall (f.placed pc o) callers op k := by
    rcases callee?_eq_some hm with rfl | rfl | rfl
    all_goals
      cases hi with
      | @onConst op k c hk => exact ⟨_, k, rfl, Pool.methodAt_eq_ok.mpr hk, rfl, rfl⟩
  obtain ⟨op, k, -, hmethod, hstatic, hstep⟩ := hstep
  rw [hstep]
  simp only [stepCall, Frame.unit_placed, hmethod, orUnitFault_ok, pure_bind, Frame.popArgs_placed, bind_assoc,
    hstatic, Bool.false_eq_true, if_false, Frame.pop_placed]
  refine bind_congr fun s => bind_congr fun args => bind_congr fun receiver => bind_congr fun called => ?_
  cases called <;> rfl

/-- What a call on an object does. -/
theorem effect_callee {m : Member} (hm : i.callee? = some m) :
    p.effect i o = do
      let s ← orUnitFault (signatureOf m.descriptor)
      let (args, o) ← o.popArgs s.params.length
      let (receiver, o) ← o.pop
      return o.receive s.result.isSome (← p.invoke receiver m.name args) := by
  rcases callee?_eq_some hm with rfl | rfl | rfl <;> rfl

end Program

end Routecraft.Machine
