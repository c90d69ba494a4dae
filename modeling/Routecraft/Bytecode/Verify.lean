import Routecraft.Bytecode.Typing

/-!
# Verification of methods

The checker infers a frame type for each instruction of a method. It starts at the first instruction with
the receiver and the parameters as locals; each time the frame type of an instruction changes, the
instruction is put on a queue, and its effect is joined into the instructions that control may go to. The
method is accepted when the queue is empty and every instruction has been reached.

With a hierarchy whose edges form a cycle, two classes may replace each other at a join for ever. The rounds
are therefore counted, up to a number that there is no time for; without a cycle far fewer are needed.

* `inferWithin`: the frame types, if they settle within a number of rounds.
* `verifyMethod`: the depth of stack and the count of locals that the code needs.
* `CodeUnit.verify`: whether all methods of a unit keep within what they declare.
* `stackEffect`: the stack that a sequence of instructions without jumps leaves.
-/

namespace Routecraft.Bytecode

/-- The depth of stack and the count of locals of a method. -/
structure Frame where
  maxStack : UInt16
  maxLocals : UInt16
  deriving DecidableEq, Repr

/-! ## Rounds -/

/-- What has been inferred so far: the frame type of each instruction that was reached, the instructions
whose frame type has changed, and the largest stack and locals seen. -/
structure Inference where
  frames : Array (Option FrameType)
  queue : List Nat
  maxStack : Nat
  maxLocals : Nat

/-- The places that control goes to after the instruction at `index`. -/
def Flow.targets (index : Nat) : Flow → List Nat
  | next => [index + 1]
  | branch target => [index + 1, target.toNat]
  | jump target => [target.toNat]
  | exit => []

/-- The frame type at a place that `incoming` leads to, and whether it is new. -/
def mergeInto (h : Hierarchy) (current : Option FrameType) (incoming : FrameType) :
    Option (FrameType × Bool) :=
  match current with
  | none => some (incoming, true)
  | some f => (f.join h incoming).map fun g => (g, !decide (g = f))

namespace Checker

variable (c : Checker)

/-- Leads `incoming` to the place `target`. -/
def flowTo (i : Inference) (incoming : FrameType) (target : Nat) : Except FrameFault Inference :=
  if target < i.frames.size then
    match mergeInto c.hierarchy (i.frames.getD target none) incoming with
    | none => .error (.inconsistentJoin target)
    | some (_, false) => .ok i
    | some (f, true) =>
      -- The fields are taken apart so that the array has no other owner.
      let { frames, queue, maxStack, maxLocals } := i
      .ok ⟨frames.setIfInBounds target (some f), queue ++ [target], maxStack, maxLocals⟩
  else .error .fallsOff

def flowToAll (i : Inference) (incoming : FrameType) : List Nat → Except FrameFault Inference
  | [] => .ok i
  | target :: rest =>
    match c.flowTo i incoming target with
    | .ok i => flowToAll i incoming rest
    | .error fault => .error fault

/-- One round: the effect of the instruction at `index`. -/
def round (code : Code) (i : Inference) (index : Nat) : Except StepError Inference :=
  match code[index]?, i.frames.getD index none with
  | some instr, some f =>
    match c.step f instr with
    | .error e => .error e
    | .ok (flow, g) =>
      let { frames, queue, maxStack, maxLocals } := i
      let i := ⟨frames, queue, max maxStack g.stack.length, max maxLocals g.locals.length⟩
      match c.flowToAll i g (flow.targets index) with
      | .ok i => .ok i
      | .error fault => .error (.frame fault)
  | _, _ => .ok i

/-- At most `rounds` rounds. -/
def settle (method : String) (code : Code) : (rounds : Nat) → Inference → Except UnitError Inference
  | 0, i => if i.queue.isEmpty then .ok i else .error (.verify method 0 .unsettled)
  | rounds + 1, i =>
    match i.queue with
    | [] => .ok i
    | index :: queue =>
      let { frames, queue := _, maxStack, maxLocals } := i
      match c.round code ⟨frames, queue, maxStack, maxLocals⟩ index with
      | .ok i => settle method code rounds i
      | .error e => .error (e.at method index)

end Checker

/-! ## Methods and units -/

/-- More rounds than a hierarchy without cycles needs: each instruction's frame type can gain locals, and
each of its slots can rise through the class names that the method and its constants mention. -/
def enoughRounds (code : Code) (params : Nat) (pool : Pool) : Nat :=
  (code.size + 1) *
    ((code.size + params + 257) * (params + 3 * pool.size + 8) + 300)

/-- The count of rounds that a method gets: enough, and so many more that none ever comes to the end of them. -/
def roundLimit (code : Code) (params : Nat) (pool : Pool) : Nat :=
  enoughRounds code params pool * UInt64.size

/-- The inference at the start of a method. -/
def Inference.start (owner : String) (params : List DataType) (code : Code) : Inference :=
  let locals := some (.ref owner) :: params.map fun t => some (SlotType.of t)
  { frames := (Array.replicate code.size none).setIfInBounds 0 (some ⟨[], locals⟩)
    queue := [0]
    maxStack := 0
    maxLocals := params.length + 1 }

def size16 (table : String) (n : Nat) : Except UnitError UInt16 :=
  if n < 65536 then .ok (UInt16.ofNat n) else .error (.tableOverflow table)

/-- The frame that the code needs. -/
def Inference.frame (i : Inference) : Except UnitError Frame := do
  .ok ⟨← size16 "stack" i.maxStack, ← size16 "locals" i.maxLocals⟩

/-- The frame types of a method's instructions, if they settle in so many rounds and all instructions are
reached. -/
def inferWithin (rounds : Nat) (owner name : String) (s : Signature) (code : Code) (pool : Pool)
    (h : Hierarchy) : Except UnitError Inference := do
  if code.isEmpty then .error (.verify name 0 .emptyBody)
  else
    let c : Checker := ⟨pool, h, s.result⟩
    let i ← c.settle name code rounds (.start owner s.params code)
    match i.frames.findIdx? Option.isNone with
    | some dead => .error (.verify name dead .unreachable)
    | none => .ok i

/-- The frame that a method needs, if its code is accepted. -/
def verifyMethod (owner name : String) (s : Signature) (code : Code) (pool : Pool)
    (h : Hierarchy) : Except UnitError Frame := do
  (← inferWithin (roundLimit code s.params.length pool) owner name s code pool h).frame

namespace CodeUnit

/-- The classes that a unit's methods are checked against. -/
def hierarchyWith (u : CodeUnit) (h : Hierarchy) : Hierarchy :=
  u.interfaces.foldl (fun h sup => h.add u.name sup) h

/-- The rounds that a method of a unit gets. -/
def rounds (u : CodeUnit) (m : Method) : Nat :=
  roundLimit m.code m.signature.params.length u.pool

/-- The frame types of the instructions of a unit's method. -/
def infer (u : CodeUnit) (rounds : Nat) (h : Hierarchy) (m : Method) : Except UnitError Inference :=
  inferWithin rounds u.name m.name m.signature m.code u.pool (u.hierarchyWith h)

/-- Checks that a method keeps within the frame that it declares. -/
def verifyMethodOf (u : CodeUnit) (rounds : Nat) (h : Hierarchy) (m : Method) :
    Except UnitError Unit := do
  let frame ← (← u.infer rounds h m).frame
  if frame.maxStack > m.maxStack || frame.maxLocals > m.maxLocals then
    .error (.verify m.name 0
      (.exceedsFrame frame.maxStack frame.maxLocals m.maxStack m.maxLocals))
  else .ok ()

/-- Checks all methods of a unit, each in so many rounds. -/
def verifyWithin (u : CodeUnit) (rounds : Method → Nat) (h : Hierarchy) : Except UnitError Unit :=
  u.methods.forM fun m => u.verifyMethodOf (rounds m) h m

def verify (u : CodeUnit) (h : Hierarchy) : Except UnitError Unit := u.verifyWithin u.rounds h

end CodeUnit

/-! ## Fragments -/

/-- The name that stands for the method of a fragment. -/
def fragmentName : String := "<fragment>"

/-- The effect of instructions without jumps, the first of which stands at `index`. -/
def Checker.run (c : Checker) (index : Nat) (f : FrameType) :
    List (Instr UInt16) → Except UnitError FrameType
  | [] => .ok f
  | instr :: rest =>
    if instr.target?.isSome || instr.endsBlock then
      .error (.verify fragmentName index (.branchInFragment instr.mnemonic))
    else
      match c.step f instr with
      | .ok (_, g) => c.run (index + 1) g rest
      | .error e => .error (e.at fragmentName index)

/-- The stack, topmost slot first, that instructions leave behind. -/
def stackEffect (code : Code) (pool : Pool) (locals : List SlotType) (h : Hierarchy) :
    Except UnitError (List SlotType) := do
  let f ← Checker.run ⟨pool, h, none⟩ 0 ⟨[], locals.map some⟩ code.toList
  .ok f.stack

end Routecraft.Bytecode
