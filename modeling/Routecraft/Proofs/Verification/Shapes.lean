import Routecraft.Proofs.Execution.Activations
import Routecraft.Proofs.Verification.Effects
import Routecraft.Proofs.Verification.Settling

/-!
# Accepted code keeps the shape of its frames

The checker runs code on types, the machine runs it on values. The two agree on where the operands and the
locals are: at each instruction of an accepted method the stack is as deep as the checker has inferred, and
every local that is set there has a value. So no instruction runs out of operands, reads a local without a
value, or leaves the code; and as the checker looks up the same constants, none fails over a constant
either. What a method that is called does is not the caller's doing: its errors are passed on.

* `Frame.Fits`: the shape of a frame is that of a frame type.
* `Wider`: the order of frame types by shape, in which joins are above.
* `Program.step_agrees`: the step of an instruction agrees with its effect on types.
* `CodeUnit.frames_fit`: all frames of a call of an accepted method have the inferred shape.
-/

namespace Routecraft.Machine

open Bytecode

/-! ## Shapes -/

/-- The stack of a frame is as deep as that of the frame type, and its locals reach as far as those that are
set there, but not further than the frame type's. -/
structure Frame.Fits (f : Frame) (t : FrameType) : Prop where
  stack : f.stack.length = t.stack.length
  size : f.locals.size ≤ t.locals.length
  set : ∀ {slot : Nat} {x : SlotType}, t.locals[slot]? = some (some x) → slot < f.locals.size

/-- A frame that suits the shape of the second frame type suits that of the first. -/
structure Wider (k t : FrameType) : Prop where
  stack : k.stack.length = t.stack.length
  size : t.locals.length ≤ k.locals.length
  set : ∀ {slot : Nat} {x : SlotType}, k.locals[slot]? = some (some x) →
    ∃ y, t.locals[slot]? = some (some y)

/-- To be wider is kept by joins. -/
theorem wider_joinOrder (h : Hierarchy) : JoinOrder h Wider where
  refl _ := ⟨rfl, Nat.le_refl _, fun hx => ⟨_, hx⟩⟩
  trans hfg hgk := by
    refine ⟨hfg.stack.trans hgk.stack, Nat.le_trans hgk.size hfg.size, fun hx => ?_⟩
    obtain ⟨y, hy⟩ := hfg.set hx
    exact hgk.set hy
  join hk := by
    obtain ⟨hstack, hlocals⟩ := FrameType.join_eq_some hk
    obtain ⟨hlength, hlength', -⟩ := FrameType.joinStacks_eq_some hstack
    have hsize := congrArg List.length hlocals
    rw [FrameType.length_joinLocals] at hsize
    refine ⟨⟨hlength', by omega, ?_⟩, ⟨hlength'.trans hlength, by omega, ?_⟩⟩
    all_goals
      intro slot z hz
      rw [hlocals] at hz
      obtain ⟨x, y, hx, hy, -⟩ := FrameType.joinLocals_eq_some hz
    · exact ⟨x, hx⟩
    · exact ⟨y, hy⟩

namespace Frame.Fits

variable {f : Frame} {t k : FrameType} {x : SlotType} {xs : List SlotType}
  {locals : List (Option SlotType)} {v : Value}

/-- A frame fits a wider type. -/
theorem wider (hf : f.Fits t) (hk : Wider k t) : f.Fits k where
  stack := hf.stack.trans hk.stack.symm
  size := Nat.le_trans hf.size hk.size
  set hx := by
    obtain ⟨y, hy⟩ := hk.set hx
    exact hf.set hy

/-- The frame of a call fits its entry. -/
theorem entry (u : CodeUnit) (m : Method) (receiver : Value) {args : List Value} (keeps : Bool)
    (h : args.length = m.signature.params.length) :
    Frame.Fits ⟨u, m, 0, (receiver :: args).toArray, [], keeps⟩
      (.entry u.name m.signature.params) where
  stack := rfl
  size := by simp [FrameType.entry, h]
  set := by
    intro slot x hx
    have := (List.getElem?_eq_some_iff.mp hx).1
    simpa [FrameType.entry, h] using this

/-- Pushing a value fits pushing its type. -/
theorem push (hf : f.Fits ⟨xs, locals⟩) : (f.push v).Fits ⟨x :: xs, locals⟩ :=
  ⟨congrArg (· + 1) hf.stack, hf.size, hf.set⟩

/-- A frame that fits a deeper type can be popped. -/
theorem pop (hf : f.Fits ⟨x :: xs, locals⟩) : ∃ (v : Value) (g : Frame), f = g.push v ∧ g.Fits ⟨xs, locals⟩ := by
  obtain ⟨u, m, pc, values, stack, keeps⟩ := f
  obtain ⟨hstack, hsize, hset⟩ := hf
  cases stack with
  | nil => simp at hstack
  | cons v stack =>
      exact ⟨v, ⟨u, m, pc, values, stack, keeps⟩, rfl, by simpa using hstack, hsize, hset⟩

/-- A frame that fits the types of arguments can be popped of them. -/
theorem popArgs {ts : List SlotType} (hf : f.Fits ⟨ts.reverse ++ xs, locals⟩) :
    ∃ (vs : List Value) (g : Frame), f = g.pushAll vs ∧ vs.length = ts.length ∧ g.Fits ⟨xs, locals⟩ := by
  obtain ⟨u, m, pc, values, stack, keeps⟩ := f
  obtain ⟨hstack, hsize, hset⟩ := hf
  simp only [List.length_append, List.length_reverse] at hstack
  refine ⟨(stack.take ts.length).reverse, ⟨u, m, pc, values, stack.drop ts.length, keeps⟩, ?_, ?_,
    ?_, hsize, hset⟩
  · simp [pushAll]
  · simp [hstack]
  · simp [hstack]

/-- A frame has the local that was stored. -/
theorem size_store (f : Frame) (slot : UInt8) (v : Value) :
    (f.store slot v).locals.size = max f.locals.size (slot.toNat + 1) := by
  simp only [Frame.store, Array.size_setIfInBounds, Array.size_append, Array.size_replicate]
  omega

theorem store (hf : f.Fits ⟨xs, locals⟩) (slot : UInt8) :
    (f.store slot v).Fits (FrameType.setLocal ⟨xs, locals⟩ slot.toNat x) where
  stack := hf.stack
  size := by
    have hsize : f.locals.size ≤ locals.length := hf.size
    rw [size_store]
    simp only [FrameType.setLocal, List.length_set, List.length_append, List.length_replicate]
    omega
  set := by
    intro slot' y hy
    rw [size_store]
    by_cases heq : slot' = slot.toNat
    · omega
    · simp only [FrameType.setLocal, List.getElem?_set_ne (Ne.symm heq), List.getElem?_append] at hy
      split at hy
      · have := hf.set hy
        omega
      · simp [List.getElem?_replicate] at hy

/-- Constructing an object leaves the shape of the frame as it is. -/
theorem constructed (hf : f.Fits t) (name : String) : f.Fits (t.constructed name) where
  stack := hf.stack.trans (by simp [FrameType.constructed])
  size := Nat.le_trans hf.size (by simp [FrameType.constructed])
  set := by
    intro slot x hx
    simp only [FrameType.constructed, List.getElem?_map, Option.map_eq_some_iff] at hx
    obtain ⟨_, hslot, y, rfl, -⟩ := hx
    exact hf.set hslot

theorem receive (s : Signature) (hf : f.Fits t) : (f.receive s.result.isSome v).Fits (Checker.pushResult t s).2 := by
  rcases Checker.pushResult_cases t s with ⟨hresult, hu⟩ | ⟨type, hresult, hu⟩
  · rw [hu, hresult]
    exact hf
  · rw [hu, hresult]
    exact hf.push

end Frame.Fits

/-! ## Errors -/

/-- Whether an error is one of code that does not have the shape that it was checked for: it leaves the code,
runs out of operands, reads a local without a value, loads a constant that is no value, or names a constant
or a descriptor that is none. -/
def MachineError.ofShape : MachineError → Bool
  | .fault (.outOfCode ..) | .fault .underflow | .fault (.unsetLocal _) | .fault (.unloadable _) => true
  | .unit (.badConstant ..) | .unit (.malformed ..) => true
  | _ => false

namespace Program

variable (p : Program)

/-- An error that a step has from the call that its instruction makes: the method that the constant names
was called with the operands as its arguments, and came to the error. -/
inductive CallRaises (f : Frame) (s : Store) (e : MachineError) (s' : Store) : Instr UInt16 → Prop
  | static {k : UInt16} {member : Member} {signature : Signature} {args rest : List Value} :
      f.unit.pool.methodAt k false = .ok member → signatureOf member.descriptor = .ok signature →
      args.length = signature.params.length → f.stack = args.reverse ++ rest →
      s.perform (p.callStatic member.owner member.name args) = (.error e, s') →
      CallRaises f s e s' (.onConst .invokeStatic k)
  | object {op : ConstOp} {k : UInt16} {member : Member} {signature : Signature} {receiver : Value}
      {args rest : List Value} :
      op ∈ [.invokeVirtual, .invokeInterface, .invokeSpecial] →
      f.unit.pool.methodAt k (op == .invokeInterface) = .ok member →
      signatureOf member.descriptor = .ok signature → args.length = signature.params.length →
      f.stack = args.reverse ++ receiver :: rest →
      s.perform (p.call receiver member.name args) = (.error e, s') →
      CallRaises f s e s' (.onConst op k)

/-- What a call raises does not depend on where the frame goes on. -/
theorem CallRaises.of_pc {p : Program} {f : Frame} {s s' : Store} {e : MachineError} {i : Instr UInt16}
    {pc : Nat} (h : p.CallRaises { f with pc } s e s' i) : p.CallRaises f s e s' i := by
  cases h with
  | static hm hs hargs hstack hcall => exact .static hm hs hargs hstack hcall
  | object hop hm hs hargs hstack hcall => exact .object hop hm hs hargs hstack hcall

/-- What the step of the instruction at `index` comes to agrees with the effect of the instruction on types:
control goes to where the effect leads, with a frame of the shape that it has there; if another method is
entered, this holds once it gives back a value; and an error is not one of shape, unless it comes from a
call. -/
def Agrees (index : Nat) (flow : Flow) (t : FrameType) (f : Frame) (callers : List Frame) (s : Store)
    (i : Instr UInt16) : Except MachineError Progress × Store → Prop
  | (.ok (.running g callers'), _) =>
    (callers' = callers → g.Fits t ∧ g.pc ∈ flow.targets index) ∧
      ∀ w, callers' = w :: callers → w.pc ∈ flow.targets index ∧ ∀ v, (w.receive g.keeps v).Fits t
  | (.ok (.finished _), _) => True
  | (.error e, s') => e.ofShape → p.CallRaises f s e s' i

variable {p : Program} {c : Checker} {index : Nat} {flow : Flow} {t u : FrameType} {f g : Frame}
  {callers : List Frame} {s s' : Store} {i : Instr UInt16}

/-- A step that goes on agrees if its frame fits at a target. -/
theorem agrees_running (hg : g.Fits u) (hpc : g.pc ∈ flow.targets index) :
    p.Agrees index flow u f callers s i (.ok (.running g callers), s') :=
  ⟨fun _ => ⟨hg, hpc⟩, fun w hw => absurd (congrArg List.length hw) (by simp)⟩

/-- An instruction behind which control goes on. -/
theorem agrees_next (hg : g.Fits u) (hpc : g.pc = index + 1) :
    p.Agrees index .next u f callers s i (.ok (.running g callers), s') :=
  agrees_running hg (by simp [Flow.targets, hpc])

/-- An error that is none of shape agrees. -/
theorem agrees_error {e : MachineError} (he : e.ofShape = false) :
    p.Agrees index flow u f callers s i (.error e, s') :=
  fun h => absurd h (by simp [he])

/-- A step that returns agrees. -/
theorem agrees_giveBack {v : Value} :
    p.Agrees index flow u f callers s i (.ok (giveBack g callers v), s') := by
  cases callers with
  | nil => trivial
  | cons w callers =>
      exact ⟨fun h => absurd (congrArg List.length h) (by simp),
        fun w' h => absurd (congrArg List.length h) (by simp; omega)⟩

/-- A value of the wrong kind is no error of shape. -/
theorem agrees_mismatch {v : Value} {expected : String} :
    p.Agrees index flow u f callers s i (.error (s.telling v (.typeMismatch expected)), s') :=
  agrees_error (s.telling_of (P := fun e => e.ofShape = false) (fun _ => rfl) rfl)

/-- Reading a number succeeds or tells of a mismatch. -/
theorem perform_asInt (s : Store) (v : Value) :
    (∃ n, s.perform v.asInt = (.ok n, s)) ∨
      ∃ expected, s.perform v.asInt = (.error (s.telling v (.typeMismatch expected)), s) := by
  cases v <;> first | exact .inl ⟨_, rfl⟩ | exact .inr ⟨_, rfl⟩

/-- Reading an object succeeds or tells of a mismatch. -/
theorem perform_asObject (s : Store) (v : Value) :
    (∃ n, s.perform v.asObject = (.ok n, s)) ∨
      ∃ expected, s.perform v.asObject = (.error (s.telling v (.typeMismatch expected)), s) := by
  cases v <;> first | exact .inl ⟨_, rfl⟩ | exact .inr ⟨_, rfl⟩

/-! ## Instructions -/

/-- Storing into an array agrees with its effect. -/
theorem stepArrayStore_agrees {a b : SlotType} {d : SlotType} {xs : List SlotType}
    {locals : List (Option SlotType)} (hf : f.Fits ⟨a :: b :: d :: xs, locals⟩) (hpc : f.pc = index + 1) :
    p.Agrees index .next ⟨xs, locals⟩ f callers s (.bare .arrayStore)
      (s.perform (p.step f callers (.bare .arrayStore))) := by
  obtain ⟨v, f₁, rfl, hf₁⟩ := hf.pop
  obtain ⟨n, f₂, rfl, hf₂⟩ := hf₁.pop
  obtain ⟨target, f₃, rfl, hf₃⟩ := hf₂.pop
  simp only [step, stepArrayStore, Store.perform_bind, Frame.perform_pop_push]
  rcases perform_asInt s n with ⟨n, hn⟩ | ⟨_, hn⟩
  · simp only [hn]
    cases target
    case array className number =>
      by_cases hin : 0 ≤ n ∧ n.toInt.toNat < (s.arrays.getD number #[]).size
      · simp only [Store.perform_bind, Store.perform_get, if_pos hin, Store.perform_modify,
          Store.perform_pure]
        exact agrees_next hf₃ hpc
      · simp only [Store.perform_bind, Store.perform_get, if_neg hin, Store.perform_throw]
        exact agrees_error rfl
    all_goals exact agrees_mismatch
  · simp only [hn]
    exact agrees_mismatch

/-- A bare instruction agrees with its effect. -/
theorem stepBare_agrees {op : BareOp} (heffect : c.HasEffect t (.bare op) flow u) (hf : f.Fits t)
    (hpc : f.pc = index + 1) :
    p.Agrees index flow u f callers s (.bare op) (s.perform (p.step f callers (.bare op))) := by
  cases heffect with
  | pushNull => exact agrees_next hf.push hpc
  | dup =>
      obtain ⟨v, g, rfl, -⟩ := hf.pop
      exact agrees_next hf.push hpc
  | pop =>
      obtain ⟨v, g, rfl, hg⟩ := hf.pop
      exact agrees_next hg hpc
  | swap =>
      obtain ⟨v, f₁, rfl, hf₁⟩ := hf.pop
      obtain ⟨w, g, rfl, hg⟩ := hf₁.pop
      exact agrees_next hg.push.push hpc
  | arrayStore => exact stepArrayStore_agrees hf hpc
  | returnVoid => exact agrees_giveBack
  | returnValue =>
      obtain ⟨v, g, rfl, -⟩ := hf.pop
      exact agrees_giveBack

theorem stepLocal_agrees {op : LocalOp} {slot : UInt8} (heffect : c.HasEffect t (.onLocal op slot) flow u)
    (hf : f.Fits t) (hpc : f.pc = index + 1) :
    p.Agrees index flow u f callers s (.onLocal op slot)
      (s.perform (p.step f callers (.onLocal op slot))) := by
  cases heffect with
  | load hx =>
      obtain ⟨v, hv⟩ : ∃ v, f.locals[slot.toNat]? = some v :=
        ⟨_, Array.getElem?_eq_getElem (hf.set hx)⟩
      simp only [step, Store.perform_bind, Frame.perform_load_eq_ok.mpr ⟨hv, rfl⟩, Store.perform_pure]
      exact agrees_next hf.push hpc
  | store =>
      obtain ⟨v, g, rfl, hg⟩ := hf.pop
      exact agrees_next (hg.store slot) hpc

theorem stepJump_agrees {op : JumpOp} {target : UInt16} (heffect : c.HasEffect t (.jump op target) flow u)
    (hf : f.Fits t) (hpc : f.pc = index + 1) :
    p.Agrees index flow u f callers s (.jump op target)
      (s.perform (p.step f callers (.jump op target))) := by
  cases heffect with
  | goto => exact agrees_running ⟨hf.stack, hf.size, hf.set⟩ (by simp [Flow.targets])
  | ifFalse =>
      obtain ⟨v, g, rfl, hg⟩ := hf.pop
      simp only [step, Store.perform_bind, Frame.perform_pop_push]
      rcases perform_asInt s v with ⟨n, hn⟩ | ⟨_, hn⟩
      · simp only [hn, Store.perform_pure]
        split
        · exact agrees_running ⟨hg.stack, hg.size, hg.set⟩ (by simp [Flow.targets])
        · exact agrees_running hg (by simpa [Flow.targets] using .inl hpc)
      · simp only [hn]
        exact agrees_mismatch

/-! ## Constants -/

/-- A constant that has a type has a value. -/
theorem constantValue_of_loadType {k : Constant} {x : SlotType} (h : Checker.loadType k = .ok x) :
    ∃ v, s.perform (constantValue k) = (.ok v, s) := by
  cases k <;> first | exact ⟨_, rfl⟩ | simp [Checker.loadType] at h

/-- The instructions on constants that call no method. -/
theorem stepConst_agrees {op : ConstOp} {k : UInt16} (heffect : c.HasEffect t (.onConst op k) flow u)
    (hpool : c.pool = f.unit.pool) (hf : f.Fits t) (hpc : f.pc = index + 1)
    (hop : op ∉ [.invokeVirtual, .invokeInterface, .invokeStatic, .invokeSpecial]) :
    p.Agrees index flow u f callers s (.onConst op k)
      (s.perform (p.stepConst f op k >>= fun f => pure (.running f callers))) := by
  cases heffect with
  | invokeVirtual | invokeInterface | invokeStatic | invokeSpecial => simp at hop
  | loadConst hconstant hx =>
      obtain ⟨v, hv⟩ := constantValue_of_loadType (s := s) hx
      rw [hpool] at hconstant
      simp only [stepConst, Store.perform_bind, hconstant, Store.perform_orUnitFault_ok, hv, Store.perform_pure]
      exact agrees_next hf.push hpc
  | getField hm =>
      obtain ⟨v, g, rfl, hg⟩ := hf.pop
      rw [hpool] at hm
      simp only [stepConst, Store.perform_bind, hm, Store.perform_orUnitFault_ok, Frame.perform_pop_push]
      rcases perform_asObject s v with ⟨n, hn⟩ | ⟨_, hn⟩
      · simp only [hn, Store.perform_pure, Store.perform_get]
        exact agrees_next hg.push hpc
      · simp only [hn]
        exact agrees_mismatch
  | putField hm =>
      obtain ⟨v, f₁, rfl, hf₁⟩ := hf.pop
      obtain ⟨target, g, rfl, hg⟩ := hf₁.pop
      rw [hpool] at hm
      simp only [Frame.unit_push] at hm
      simp only [stepConst, Store.perform_bind, Frame.unit_push, hm, Store.perform_orUnitFault_ok,
        Frame.perform_pop_push]
      rcases perform_asObject s target with ⟨n, hn⟩ | ⟨_, hn⟩
      · simp only [hn, Store.perform_pure, Store.perform_modify]
        exact agrees_next hg hpc
      · simp only [hn]
        exact agrees_mismatch
  | getStatic hm =>
      rw [hpool] at hm
      simp only [stepConst, Store.perform_bind, hm, Store.perform_orUnitFault_ok, Store.perform_pure]
      exact agrees_next hf.push hpc
  | newObject hname =>
      rw [hpool] at hname
      simp only [stepConst, Store.perform_bind, hname, Store.perform_orUnitFault_ok, Store.perform_modifyGet,
        Store.perform_pure]
      exact agrees_next hf.push hpc
  | @newArray _ name element _ _ _ hname helement =>
      obtain ⟨v, g, rfl, hg⟩ := hf.pop
      rw [hpool] at hname
      have hclass : (do dataTypeOfClass (← (g.push v).unit.pool.classAt k)) = .ok element :=
        bind_eq_ok.mpr ⟨name, hname, helement⟩
      simp only [stepConst, Store.perform_bind, hclass, Store.perform_orUnitFault_ok, Frame.perform_pop_push]
      rcases perform_asInt s v with ⟨n, hn⟩ | ⟨_, hn⟩
      · simp only [hn]
        by_cases hneg : n < 0
        · simp only [if_pos hneg]
          exact agrees_error rfl
        · simp only [if_neg hneg, Store.perform_bind, Store.perform_modifyGet, Store.perform_pure]
          exact agrees_next hg.push hpc
      · simp only [hn]
        exact agrees_mismatch
  | @checkCast _ name _ _ _ hname =>
      obtain ⟨v, g, rfl, hg⟩ := hf.pop
      rw [hpool] at hname
      simp only [stepConst, Store.perform_bind, hname, Store.perform_orUnitFault_ok, Frame.perform_top_push]
      cases v.className? with
      | none => exact agrees_next hg.push hpc
      | some className =>
          by_cases hsub : p.hierarchy.isSubtype className name = true
          · simp only [if_pos hsub, Store.perform_pure]
            exact agrees_next hg.push hpc
          · simp only [if_neg hsub, Store.perform_mismatch]
            exact agrees_mismatch

/-! ## Calls -/

/-- A static call agrees with its effect. -/
theorem stepInvokeStatic_agrees {k : UInt16} {m : Member} {signature : Signature} {ts xs : List SlotType}
    {ls : List (Option SlotType)} (hm : f.unit.pool.methodAt k false = .ok m)
    (hsignature : signatureOf m.descriptor = .ok signature) (hts : ts.length = signature.params.length)
    (hf : f.Fits ⟨ts.reverse ++ xs, ls⟩) (hpc : f.pc = index + 1) :
    p.Agrees index .next (Checker.pushResult ⟨xs, ls⟩ signature).2 f callers s (.onConst .invokeStatic k)
      (s.perform (p.stepCall f callers .invokeStatic k)) := by
  obtain ⟨args, g, rfl, hargs, hg⟩ := hf.popArgs
  have hcount : args.length = signature.params.length := hargs.trans hts
  have hmethod : (g.pushAll args).unit.pool.methodAt k false = .ok m := hm
  simp only [stepCall, Store.perform_bind, show (ConstOp.invokeStatic == .invokeInterface) = false from rfl,
    hmethod, Store.perform_orUnitFault_ok, hsignature, ← hcount, Frame.perform_popArgs_pushAll,
    show (ConstOp.invokeStatic == .invokeStatic) = true from rfl, if_true]
  rcases hcall : s.perform (p.callStatic m.owner m.name args) with ⟨e | v, s'⟩
  · exact fun _ => .static hm hsignature hcount rfl hcall
  · exact agrees_next (hg.receive signature) (by rw [Frame.pc_receive]; exact hpc)

/-- A call on an object agrees with its effect. -/
theorem stepInvoke_agrees {op : ConstOp} {k : UInt16} {t' : FrameType} {m : Member} {signature : Signature}
    {ts xs : List SlotType} {x : SlotType} {ls : List (Option SlotType)}
    (hop : op ∈ [.invokeVirtual, .invokeInterface, .invokeSpecial])
    (hm : f.unit.pool.methodAt k (op == .invokeInterface) = .ok m)
    (hsignature : signatureOf m.descriptor = .ok signature)
    (hts : ts.length = signature.params.length) (hf : f.Fits ⟨ts.reverse ++ x :: xs, ls⟩)
    (hg : ∀ g : Frame, g.Fits ⟨xs, ls⟩ → g.Fits t') (hpc : f.pc = index + 1) :
    p.Agrees index .next (Checker.pushResult t' signature).2 f callers s (.onConst op k)
      (s.perform (p.stepCall f callers op k)) := by
  obtain ⟨args, f₁, rfl, hargs, hf₁⟩ := hf.popArgs
  obtain ⟨receiver, g, rfl, hfit⟩ := hf₁.pop
  have hcount : args.length = signature.params.length := hargs.trans hts
  have hpc : g.pc = index + 1 := hpc
  have hmethod : ((g.push receiver).pushAll args).unit.pool.methodAt k (op == .invokeInterface) = .ok m :=
    hm
  have hstatic : (op == .invokeStatic) = false := by
    simp only [List.mem_cons, List.not_mem_nil, or_false] at hop
    rcases hop with rfl | rfl | rfl <;> rfl
  simp only [stepCall, Store.perform_bind, hmethod, Store.perform_orUnitFault_ok, hsignature, ← hcount,
    Frame.perform_popArgs_pushAll, hstatic, Bool.false_eq_true, if_false, Frame.perform_pop_push]
  rcases hcall : s.perform (p.call receiver m.name args) with ⟨e | called, s'⟩
  · exact fun _ => .object hop hm hsignature hcount rfl hcall
  · cases called with
    | result v => exact agrees_next ((hg g hfit).receive signature) (by rw [Frame.pc_receive]; exact hpc)
    | entered callee =>
        refine ⟨fun h => absurd (congrArg List.length h) (by simp), ?_⟩
        intro w hw
        obtain rfl := (List.cons.inj hw).1
        exact ⟨by simpa [Flow.targets] using hpc, fun v => (hg g hfit).receive signature⟩

/-- **The step of an instruction agrees with its effect on types.** -/
theorem step_agrees (hstep : c.step t i = .ok (flow, u)) (hpool : c.pool = f.unit.pool) (hf : f.Fits t)
    (hpc : f.pc = index + 1) :
    p.Agrees index flow u f callers s i (s.perform (p.step f callers i)) := by
  have heffect := Checker.hasEffect_of_step hstep
  rcases i with op | ⟨op, slot⟩ | n | ⟨op, k⟩ | ⟨op, target⟩
  · exact stepBare_agrees heffect hf hpc
  · exact stepLocal_agrees heffect hf hpc
  · cases heffect
    exact agrees_next hf.push hpc
  · cases op
    case invokeStatic =>
      cases heffect with
      | invokeStatic hm hsignature hts =>
          exact stepInvokeStatic_agrees (hpool ▸ hm) hsignature hts.length_eq.symm hf hpc
    case invokeVirtual =>
      cases heffect with
      | invokeVirtual hm hsignature hts =>
          exact stepInvoke_agrees (by simp) (hpool ▸ hm) hsignature hts.length_eq.symm hf (fun _ => id) hpc
    case invokeInterface =>
      cases heffect with
      | invokeInterface hm hsignature hts =>
          exact stepInvoke_agrees (by simp) (hpool ▸ hm) hsignature hts.length_eq.symm hf (fun _ => id) hpc
    case invokeSpecial =>
      cases heffect with
      | invokeSpecial hm hsignature _ hts =>
          exact stepInvoke_agrees (by simp) (hpool ▸ hm) hsignature hts.length_eq.symm hf
            (fun _ hg => hg.constructed _) hpc
    all_goals exact stepConst_agrees heffect hpool hf hpc (by simp)
  · exact stepJump_agrees heffect hf hpc

end Program

/-! ## Calls of accepted methods -/

/-- The frame that a method of a unit is entered with. -/
def Frame.start (u : CodeUnit) (m : Method) (receiver : Value) (args : List Value) (keeps : Bool) : Frame :=
  ⟨u, m, 0, (receiver :: args).toArray, [], keeps⟩

/-- A frame of a call of a method has the shape that was inferred for its next instruction, and is within
the bounds of what was inferred. -/
structure Frame.Shaped (u : CodeUnit) (m : Method) (i : Inference) (f : Frame) : Prop where
  unit : f.unit = u
  method : f.method = m
  fits : ∃ t, i.at? f.pc = some t ∧ f.Fits t
  stack : f.stack.length ≤ i.maxStack
  locals : f.locals.size ≤ i.maxLocals

section

variable {u : CodeUnit} {m : Method} {h : Hierarchy} {i : Inference} {receiver : Value} {args : List Value}
  {keeps : Bool} {p : Program} {f g : Frame} {callers : List Frame} {s s' : Store}

/-- The step of a shaped frame agrees with the effect of its instruction on types. -/
theorem Frame.Shaped.agrees (hf : f.Shaped u m i)
    (hstable : i.Stable ⟨u.pool, h, m.signature.result⟩ m.code Wider (.entry u.name m.signature.params))
    (callers : List Frame) (s : Store) :
    ∃ instr flow t, m.code[f.pc]? = some instr ∧ t.stack.length ≤ i.maxStack ∧
      t.locals.length ≤ i.maxLocals ∧ i.Covers Wider t (flow.targets f.pc) ∧
      p.Agrees f.pc flow t { f with pc := f.pc + 1 } callers s instr (s.perform (p.advance f callers)) := by
  obtain ⟨t, ht, hfit⟩ := hf.fits
  obtain ⟨instr, flow, t', hinstr, hstep, hstack, hlocals, hcovers⟩ := hstable.settled ht
  have hadvance : p.advance f callers = p.step { f with pc := f.pc + 1 } callers instr := by
    rw [Program.advance, hf.method, hinstr]
  refine ⟨instr, flow, t', hinstr, hstack, hlocals, hcovers, ?_⟩
  rw [hadvance]
  exact Program.step_agrees hstep (congrArg CodeUnit.pool hf.unit.symm) ⟨hfit.stack, hfit.size, hfit.set⟩ rfl

/-- Where control goes the frame is shaped again. -/
theorem Frame.Shaped.resume {flow : Flow} {t : FrameType} (hf : f.Shaped u m i) (hsame : f.SameCall g)
    (hcovers : i.Covers Wider t (flow.targets f.pc)) (hstack : t.stack.length ≤ i.maxStack)
    (hlocals : t.locals.length ≤ i.maxLocals) (hpc : g.pc ∈ flow.targets f.pc) (hg : g.Fits t) :
    g.Shaped u m i := by
  obtain ⟨k, hk, hwider⟩ := hcovers g.pc hpc
  exact ⟨hsame.unit.trans hf.unit, hsame.method.trans hf.method, ⟨k, hk, hg.wider hwider⟩,
    hg.stack ▸ hstack, Nat.le_trans hg.size hlocals⟩

/-- **All frames that the call of an accepted method can come to are shaped.** -/
theorem Program.Activation.shaped
    (hstable : i.Stable ⟨u.pool, h, m.signature.result⟩ m.code Wider (.entry u.name m.signature.params))
    (hargs : args.length = m.signature.params.length)
    (hf : p.Activation (.start u m receiver args keeps) f) : f.Shaped u m i := by
  induction hf with
  | entry =>
      obtain ⟨k, hk, hwider⟩ := hstable.entry
      refine ⟨rfl, rfl, ⟨k, hk, (Frame.Fits.entry u m receiver keeps hargs).wider hwider⟩,
        Nat.zero_le _, ?_⟩
      have := hstable.locals
      simpa [Frame.start, FrameType.entry, hargs] using this
  | @step f g callers s s' _ hstep ih =>
      -- The call goes on by a step of its own.
      obtain ⟨instr, flow, t, -, hstack, hlocals, hcovers, hagrees⟩ := ih.agrees hstable callers s
      rw [hstep] at hagrees
      obtain ⟨hfit, hpc⟩ := hagrees.1 rfl
      have hsame : f.SameCall g := by
        rcases Program.advance_eq_running hstep with ⟨-, hsame⟩ | ⟨w, h, -⟩ | ⟨w, v, h, -⟩
        · exact hsame
        all_goals exact absurd (congrArg List.length h) (by simp)
      exact ih.resume hsame hcovers hstack hlocals hpc hfit
  | @back f g w callers s s' v _ hstep ih =>
      -- Another call has come back to this one.
      obtain ⟨instr, flow, t, -, hstack, hlocals, hcovers, hagrees⟩ := ih.agrees hstable callers s
      rw [hstep] at hagrees
      obtain ⟨hpc, hfit⟩ := hagrees.2 w rfl
      have hsame : f.SameCall w := by
        rcases Program.advance_eq_running hstep with ⟨h, -⟩ | ⟨w', h, hsame⟩ | ⟨w', v, h, -⟩
        · exact absurd (congrArg List.length h) (by simp)
        · exact (List.cons.inj h).1 ▸ hsame
        · exact absurd (congrArg List.length h) (by simp; omega)
      exact ih.resume (hsame.trans (w.sameCall_receive g.keeps v)) hcovers hstack hlocals
        (by simpa using hpc) (hfit v)

end

/-- **The verifier is sound for the shape of frames.** Take a method of an accepted unit, whatever the
hierarchy and the rounds it was accepted with, and enter it with the receiver and as many arguments as it
declares, in any program. All frames that the call runs through are among those that it can come to when
calls give back anything; and at each of these the stack is as deep as was inferred, stack and locals keep
within what the method declares, and the instruction has no error of shape other than one that a call
raises. -/
theorem verified_frames_fit {u : CodeUnit} {rounds : Method → Nat} {h : Hierarchy}
    (hverify : u.verifyWithin rounds h = .ok ()) {m : Method} (hm : m ∈ u.methods) (receiver : Value)
    {args : List Value} (hargs : args.length = m.signature.params.length) (keeps : Bool) (p : Program) :
    ∃ i, u.infer (rounds m) h m = .ok i ∧
      (∀ callers s₀ f s, p.Within callers (.start u m receiver args keeps) s₀ f [] s →
        p.Activation (.start u m receiver args keeps) f) ∧
      ∀ f, p.Activation (.start u m receiver args keeps) f →
        f.unit = u ∧ f.method = m ∧
        (∃ t, i.at? f.pc = some t ∧ f.stack.length = t.stack.length) ∧
        f.stack.length ≤ m.maxStack.toNat ∧ f.locals.size ≤ m.maxLocals.toNat ∧
        ∀ callers s e s', s.perform (p.advance f callers) = (.error e, s') → e.ofShape →
          ∃ instr, m.code[f.pc]? = some instr ∧ p.CallRaises f s e s' instr := by
  obtain ⟨i, hi, hmaxStack, hmaxLocals⟩ := u.infer_of_verifyWithin hverify hm
  have hstable := u.infer_stable (wider_joinOrder _) hi
  refine ⟨i, hi, fun callers s₀ f s hrun => hrun.activation, ?_⟩
  intro f hf
  have hshaped := hf.shaped hstable hargs
  obtain ⟨t, ht, hfit⟩ := hshaped.fits
  refine ⟨hshaped.unit, hshaped.method, ⟨t, ht, hfit.stack⟩, Nat.le_trans hshaped.stack hmaxStack,
    Nat.le_trans hshaped.locals hmaxLocals, ?_⟩
  intro callers s e s' hstep he
  obtain ⟨instr, flow, t', hinstr, -, -, -, hagrees⟩ := hshaped.agrees hstable callers s
  rw [hstep] at hagrees
  exact ⟨instr, hinstr, (hagrees he).of_pc⟩

/-- A method that gives one of two texts. -/
def pick : Method where
  name := "pick"
  signature := .returning [.boolean] (.object Platform.string)
  maxStack := 1
  maxLocals := 2
  code := #[.onLocal .load 1, .jump .ifFalse 4, .onConst .loadConst 0, .jump .goto 5,
    .onConst .loadConst 1, .bare .returnValue]

def picker : CodeUnit := ⟨"app.Pick", .handler, [], ⟨#[.string "a", .string "b"]⟩, [], [pick]⟩

theorem verified_frames_fit_picker :
    picker.verify ∅ = .ok () ∧ pick ∈ picker.methods ∧
      [Value.int 1].length = pick.signature.params.length ∧
      ∃ i, picker.infer (picker.rounds pick) ∅ pick = .ok i ∧
        ∀ f, Program.Activation ⟨[picker], ∅, [], 100, #[]⟩ (.start picker pick .null [.int 1] true) f →
          f.stack.length ≤ 1 ∧ f.locals.size ≤ 2 := by
  have hverify : picker.verify ∅ = .ok () := by decide +kernel
  have hpick : pick ∈ picker.methods := List.mem_singleton.mpr rfl
  have hargs : [Value.int 1].length = pick.signature.params.length := rfl
  obtain ⟨i, hi, -, hframes⟩ :=
    verified_frames_fit hverify hpick .null hargs true ⟨[picker], ∅, [], 100, #[]⟩
  refine ⟨hverify, hpick, hargs, i, hi, ?_⟩
  intro f hf
  obtain ⟨-, -, -, hstack, hlocals, -⟩ := hframes f hf
  exact ⟨hstack, hlocals⟩

end Routecraft.Machine
