import Routecraft.Proofs.Execution.Actions
import Routecraft.Proofs.Outcome

/-!
# What an instruction does

For each instruction, all that its step can come to when it succeeds: the operands that it takes, what it looks
up, how the frame goes on and what becomes of the store. Properties of runs are read off this one list, without
going back to how a step is computed. As a step does the same whatever frames wait, there are none here.

* `Frame.SameCall`: two frames of one call.
* `Program.Does`: an instruction takes a frame and a store to what comes of its step and to a store.
* `Program.step_does`: a step that succeeds is one of these.
* `Program.step_above`: a step does the same whatever frames wait.
* `Program.advance_cases`: how a run goes on: in the same call, in another one, or in that of the caller.
-/

namespace Routecraft.Machine

open Bytecode

/-! ## Frames of one call -/

/-- Two frames of one call: the method is the same, and what becomes of its result. -/
structure Frame.SameCall (f g : Frame) : Prop where
  unit : g.unit = f.unit
  method : g.method = f.method
  keeps : g.keeps = f.keeps

namespace Frame

variable {f g : Frame}

theorem SameCall.refl (f : Frame) : f.SameCall f := ⟨rfl, rfl, rfl⟩

/-- Frames of one call are so of a third. -/
theorem SameCall.trans {k : Frame} (hfg : f.SameCall g) (hgk : g.SameCall k) : f.SameCall k :=
  ⟨hgk.unit.trans hfg.unit, hgk.method.trans hfg.method, hgk.keeps.trans hfg.keeps⟩

theorem SameCall.symm (hfg : f.SameCall g) : g.SameCall f :=
  ⟨hfg.unit.symm, hfg.method.symm, hfg.keeps.symm⟩

/-- Pushing stays in the call. -/
theorem sameCall_push (f : Frame) (v : Value) : f.SameCall (f.push v) := ⟨rfl, rfl, rfl⟩

theorem sameCall_pushAll (f : Frame) (vs : List Value) : f.SameCall (f.pushAll vs) := ⟨rfl, rfl, rfl⟩

theorem sameCall_receive (f : Frame) (keeps : Bool) (v : Value) : f.SameCall (f.receive keeps v) := by
  cases keeps
  · exact .refl f
  · exact f.sameCall_push v

end Frame

namespace Program

/-! ## The list -/

/-- What an instruction does, in a frame that is set to go on behind it. -/
inductive Does (p : Program) : Frame → Store → Instr UInt16 → Progress → Store → Prop
  | pushNull {f : Frame} {s : Store} : Does p f s (.bare .pushNull) (.running (f.push .null) []) s
  | dup {f : Frame} {s : Store} {v : Value} :
      Does p (f.push v) s (.bare .dup) (.running ((f.push v).push v) []) s
  | pop {f : Frame} {s : Store} {v : Value} : Does p (f.push v) s (.bare .pop) (.running f []) s
  | swap {f : Frame} {s : Store} {v w : Value} :
      Does p ((f.push w).push v) s (.bare .swap) (.running ((f.push v).push w) []) s
  | arrayStore {f : Frame} {s : Store} {className : String} {number : Nat} {n : Int32} {v : Value} :
      Does p (((f.push (.array className number)).push (.int n)).push v) s (.bare .arrayStore) (.running f [])
        (s.setItem number n.toInt.toNat v)
  | returnVoid {f : Frame} {s : Store} : Does p f s (.bare .returnVoid) (.finished .null) s
  | returnValue {f : Frame} {s : Store} {v : Value} : Does p (f.push v) s (.bare .returnValue) (.finished v) s
  | load {f : Frame} {s : Store} {slot : UInt8} {v : Value} :
      f.locals[slot.toNat]? = some v → Does p f s (.onLocal .load slot) (.running (f.push v) []) s
  | store {f : Frame} {s : Store} {slot : UInt8} {v : Value} :
      Does p (f.push v) s (.onLocal .store slot) (.running (f.store slot v) []) s
  | pushInt {f : Frame} {s : Store} {n : Int32} : Does p f s (.pushInt n) (.running (f.push (.int n)) []) s
  | goto {f : Frame} {s : Store} {target : UInt16} :
      Does p f s (.jump .goto target) (.running { f with pc := target.toNat } []) s
  | ifFalse {f : Frame} {s : Store} {target : UInt16} {n : Int32} :
      Does p (f.push (.int n)) s (.jump .ifFalse target)
        (.running (if n == 0 then { f with pc := target.toNat } else f) []) s
  | loadConst {f : Frame} {s : Store} {k : UInt16} {x : Constant} {v : Value} :
      f.unit.pool.get k = .ok x → s.perform (constantValue x) = (.ok v, s) →
      Does p f s (.onConst .loadConst k) (.running (f.push v) []) s
  | getField {f : Frame} {s : Store} {k : UInt16} {m : Member} {unit : String} {number : Nat} :
      f.unit.pool.fieldAt k = .ok m →
      Does p (f.push (.object unit number)) s (.onConst .getField k)
        (.running (f.push (s.field number m.name)) []) s
  | putField {f : Frame} {s : Store} {k : UInt16} {m : Member} {unit : String} {number : Nat} {v : Value} :
      f.unit.pool.fieldAt k = .ok m →
      Does p ((f.push (.object unit number)).push v) s (.onConst .putField k) (.running f [])
        (s.setField number m.name v)
  | getStatic {f : Frame} {s : Store} {k : UInt16} {m : Member} :
      f.unit.pool.fieldAt k = .ok m →
      Does p f s (.onConst .getStatic k) (.running (f.push (staticField m.owner m.name)) []) s
  | newObject {f : Frame} {s : Store} {k : UInt16} {name : String} :
      f.unit.pool.classAt k = .ok name →
      Does p f s (.onConst .newObject k) (.running (f.push (.object name s.objects.size)) []) (s.newObject name).2
  | newArray {f : Frame} {s : Store} {k : UInt16} {name : String} {element : DataType} {n : Int32} :
      f.unit.pool.classAt k = .ok name → dataTypeOfClass name = .ok element →
      Does p (f.push (.int n)) s (.onConst .newArray k)
        (.running (f.push (.array (DataType.array element).className s.arrays.size)) [])
        (s.newArray (DataType.array element).className n.toInt.toNat).2
  | checkCast {f : Frame} {s : Store} {k : UInt16} {name : String} {v : Value} :
      f.unit.pool.classAt k = .ok name →
      (∀ className, v.className? = some className → p.hierarchy.isSubtype className name) →
      Does p (f.push v) s (.onConst .checkCast k) (.running (f.push v) []) s
  | answeredStatic {f : Frame} {s s' : Store} {k : UInt16} {m : Member} {signature : Signature}
      {args : List Value} {v : Value} :
      f.unit.pool.methodAt k false = .ok m → signatureOf m.descriptor = .ok signature →
      args.length = signature.params.length → s.perform (p.callStatic m.owner m.name args) = (.ok v, s') →
      Does p (f.pushAll args) s (.onConst .invokeStatic k)
        (.running (f.receive signature.result.isSome v) []) s'
  | answered {f : Frame} {s s' : Store} {op : ConstOp} {k : UInt16} {m : Member} {signature : Signature}
      {receiver : Value} {args : List Value} {v : Value} :
      op ∈ [.invokeVirtual, .invokeInterface, .invokeSpecial] →
      f.unit.pool.methodAt k (op == .invokeInterface) = .ok m → signatureOf m.descriptor = .ok signature →
      args.length = signature.params.length →
      s.perform (p.call receiver m.name args) = (.ok (.result v), s') →
      Does p ((f.push receiver).pushAll args) s (.onConst op k)
        (.running (f.receive signature.result.isSome v) []) s'
  | entered {f g : Frame} {s s' : Store} {op : ConstOp} {k : UInt16} {m : Member} {signature : Signature}
      {receiver : Value} {args : List Value} :
      op ∈ [.invokeVirtual, .invokeInterface, .invokeSpecial] →
      f.unit.pool.methodAt k (op == .invokeInterface) = .ok m → signatureOf m.descriptor = .ok signature →
      args.length = signature.params.length →
      s.perform (p.call receiver m.name args) = (.ok (.entered g), s') →
      Does p ((f.push receiver).pushAll args) s (.onConst op k)
        (.running { g with keeps := signature.result.isSome } [f]) s'

variable {p : Program} {f g : Frame} {callers callers' : List Frame} {s s' : Store} {r : Progress}
  {k : UInt16}

/-! ## Operands -/

/-- A number is read just from a number, and nothing is changed. -/
theorem perform_asInt_eq_ok {v : Value} {n : Int32} :
    s.perform v.asInt = (.ok n, s') ↔ v = .int n ∧ s = s' := by
  cases v <;> simp [Value.asInt]

/-- An object is read just from an object of a unit, and nothing is changed. -/
theorem perform_asObject_eq_ok {v : Value} {number : Nat} :
    s.perform v.asObject = (.ok number, s') ↔ (∃ unit, v = .object unit number) ∧ s = s' := by
  cases v <;> simp [Value.asObject]

/-- A constant changes nothing. -/
theorem perform_constantValue_eq_ok {x : Constant} {v : Value} (h : s.perform (constantValue x) = (.ok v, s')) :
    s = s' := by
  cases x <;> simp [constantValue] at h <;> exact h.2

/-! ## Instructions -/

/-- Storing into an array does what it should, if it succeeds. -/
theorem stepArrayStore_does (h : s.perform (stepArrayStore f) = (.ok g, s')) :
    p.Does f s (.bare .arrayStore) (.running g []) s' := by
  simp only [stepArrayStore, Store.perform_bind_eq_ok, Prod.exists, Frame.perform_pop_eq_ok,
    perform_asInt_eq_ok] at h
  obtain ⟨v, _, _, ⟨rfl, rfl⟩, i, _, _, ⟨rfl, rfl⟩, n, _, ⟨rfl, rfl⟩, target, f', _, ⟨rfl, rfl⟩, h⟩ := h
  split at h
  · simp only [Store.perform_bind, Store.perform_get] at h
    split at h
    · simp only [Store.perform_bind, Store.perform_modify, Store.perform_pure, Prod.mk.injEq,
        Except.ok.injEq] at h
      obtain ⟨rfl, rfl⟩ := h
      exact .arrayStore
    · simp at h
  · simp at h

/-- A call does what it should, if it succeeds. -/
theorem stepCall_does {op : ConstOp} (hop : op ∈ [.invokeVirtual, .invokeInterface, .invokeStatic, .invokeSpecial])
    (h : s.perform (p.stepCall f [] op k) = (.ok r, s')) : p.Does f s (.onConst op k) r s' := by
  simp only [stepCall, Store.perform_bind_eq_ok, Prod.exists, Store.perform_orUnitFault_eq_ok,
    Frame.perform_popArgs_eq_ok] at h
  obtain ⟨m, _, ⟨hm, rfl⟩, signature, _, ⟨hsignature, rfl⟩, args, f₁, _, ⟨hargs, rfl, rfl⟩, h⟩ := h
  split at h
  · next hstatic =>
    obtain rfl : op = .invokeStatic := by simpa using hstatic
    simp only [Store.perform_bind_eq_ok, Store.perform_pure, Prod.mk.injEq, Except.ok.injEq] at h
    obtain ⟨v, _, hcall, rfl, rfl⟩ := h
    exact .answeredStatic hm hsignature hargs hcall
  · next hstatic =>
    have hop : op ∈ [.invokeVirtual, .invokeInterface, .invokeSpecial] := by
      cases op <;> simp_all
    simp only [Store.perform_bind_eq_ok, Prod.exists, Frame.perform_pop_eq_ok] at h
    obtain ⟨receiver, f₂, _, ⟨rfl, rfl⟩, called, _, hcall, h⟩ := h
    split at h
    · cases h
      exact .answered hop hm hsignature hargs hcall
    · cases h
      exact .entered hop hm hsignature hargs hcall

/-- An instruction with a constant does what it should, if it succeeds. -/
theorem stepConst_does {op : ConstOp} (hop : op ∉ [.invokeVirtual, .invokeInterface, .invokeStatic, .invokeSpecial])
    (h : s.perform (p.stepConst f op k) = (.ok g, s')) : p.Does f s (.onConst op k) (.running g []) s' := by
  cases op <;>
    simp only [stepConst, Store.perform_bind_eq_ok, Prod.exists, Store.perform_pure, Store.perform_get,
      Store.perform_modify, Store.perform_modifyGet, Store.perform_orUnitFault_eq_ok, Frame.perform_pop_eq_ok,
      Frame.perform_top_eq_ok, perform_asInt_eq_ok, perform_asObject_eq_ok, Prod.mk.injEq, Except.ok.injEq] at h
  case loadConst =>
    obtain ⟨x, _, ⟨hx, rfl⟩, v, _, hv, rfl, rfl⟩ := h
    obtain rfl := perform_constantValue_eq_ok hv
    exact .loadConst hx hv
  case getField =>
    obtain ⟨m, _, ⟨hm, rfl⟩, target, f', _, ⟨rfl, rfl⟩, number, _, ⟨⟨unit, rfl⟩, rfl⟩, _, _, ⟨rfl, rfl⟩, rfl, rfl⟩ := h
    exact .getField hm
  case putField =>
    obtain ⟨m, _, ⟨hm, rfl⟩, v, _, _, ⟨rfl, rfl⟩, target, f', _, ⟨rfl, rfl⟩, number, _, ⟨⟨unit, rfl⟩, rfl⟩, _, _,
      ⟨-, rfl⟩, rfl, rfl⟩ := h
    exact .putField hm
  case getStatic =>
    obtain ⟨m, _, ⟨hm, rfl⟩, rfl, rfl⟩ := h
    exact .getStatic hm
  case newObject =>
    obtain ⟨name, _, ⟨hname, rfl⟩, _, _, ⟨rfl, rfl⟩, rfl, rfl⟩ := h
    exact .newObject hname
  case newArray =>
    obtain ⟨element, _, ⟨helement, rfl⟩, size, f', _, ⟨rfl, rfl⟩, n, _, ⟨rfl, rfl⟩, h⟩ := h
    obtain ⟨name, hname, helement⟩ := bind_eq_ok.mp helement
    split at h
    · simp at h
    · simp only [Store.perform_bind, Store.perform_modifyGet, Store.perform_pure, Prod.mk.injEq,
        Except.ok.injEq] at h
      obtain ⟨rfl, rfl⟩ := h
      exact .newArray hname helement
  case checkCast =>
    obtain ⟨name, _, ⟨hname, rfl⟩, v, _, ⟨hv, rfl⟩, h⟩ := h
    obtain ⟨f', rfl⟩ : ∃ f' : Frame, f = f'.push v := by
      obtain ⟨u, m, pc, locals, _ | ⟨w, stack⟩, keeps⟩ := f <;> simp at hv
      exact ⟨⟨u, m, pc, locals, stack, keeps⟩, by rw [hv]; rfl⟩
    split at h
    · next className hclass =>
      split at h
      · next hbelow =>
        cases h
        exact .checkCast hname fun _ h => Option.some.inj (hclass.symm.trans h) ▸ hbelow
      · simp at h
    · next hclass =>
      cases h
      exact .checkCast hname fun _ h => absurd (hclass.symm.trans h) (by simp)
  all_goals simp at hop

/-- **A step that succeeds does what the list says.** -/
theorem step_does {i : Instr UInt16} (h : s.perform (p.step f [] i) = (.ok r, s')) : p.Does f s i r s' := by
  rcases i with op | ⟨op, slot⟩ | n | ⟨op, k⟩ | ⟨op, target⟩
  · cases op <;> simp only [step, Store.perform_bind_eq_ok, Prod.exists, Store.perform_pure,
      Frame.perform_pop_eq_ok, Frame.perform_top_eq_ok, Prod.mk.injEq, Except.ok.injEq] at h
    case pushNull =>
      obtain ⟨rfl, rfl⟩ := h
      exact .pushNull
    case arrayStore =>
      obtain ⟨g, _, hstore, rfl, rfl⟩ := h
      exact stepArrayStore_does hstore
    case dup =>
      obtain ⟨v, _, ⟨hv, rfl⟩, rfl, rfl⟩ := h
      obtain ⟨u, m, pc, locals, _ | ⟨w, stack⟩, keeps⟩ := f <;> simp at hv
      subst hv
      exact .dup (f := ⟨u, m, pc, locals, stack, keeps⟩)
    case pop =>
      obtain ⟨v, g, _, ⟨rfl, rfl⟩, rfl, rfl⟩ := h
      exact .pop
    case swap =>
      obtain ⟨v, _, _, ⟨rfl, rfl⟩, w, g, _, ⟨rfl, rfl⟩, rfl, rfl⟩ := h
      exact .swap
    case returnVoid =>
      obtain ⟨rfl, rfl⟩ := h
      exact .returnVoid
    case returnValue =>
      obtain ⟨v, g, _, ⟨rfl, rfl⟩, rfl, rfl⟩ := h
      exact .returnValue
  · cases op <;> simp only [step, Store.perform_bind_eq_ok, Prod.exists, Store.perform_pure,
      Frame.perform_pop_eq_ok, Frame.perform_load_eq_ok, Prod.mk.injEq, Except.ok.injEq] at h
    case load =>
      obtain ⟨v, _, ⟨hv, rfl⟩, rfl, rfl⟩ := h
      exact .load hv
    case store =>
      obtain ⟨v, g, _, ⟨rfl, rfl⟩, rfl, rfl⟩ := h
      exact .store
  · cases h
    exact .pushInt
  · by_cases hcall : op ∈ [.invokeVirtual, .invokeInterface, .invokeStatic, .invokeSpecial]
    · have hstep : p.step f [] (.onConst op k) = p.stepCall f [] op k := by
        cases op <;> first | rfl | simp at hcall
      rw [hstep] at h
      exact stepCall_does hcall h
    · have hstep : p.step f [] (.onConst op k) =
          p.stepConst f op k >>= fun f => pure (Progress.running f []) := by
        cases op <;> first | rfl | simp at hcall
      simp only [hstep, Store.perform_bind_eq_ok, Store.perform_pure, Prod.mk.injEq, Except.ok.injEq] at h
      obtain ⟨g, _, hconst, rfl, rfl⟩ := h
      exact stepConst_does hcall hconst
  · cases op <;> simp only [step, Store.perform_bind_eq_ok, Prod.exists, Store.perform_pure,
      Frame.perform_pop_eq_ok, perform_asInt_eq_ok, Prod.mk.injEq, Except.ok.injEq] at h
    case ifFalse =>
      obtain ⟨v, g, _, ⟨rfl, rfl⟩, n, _, ⟨rfl, rfl⟩, rfl, rfl⟩ := h
      exact .ifFalse
    case goto =>
      obtain ⟨rfl, rfl⟩ := h
      exact .goto

/-- A new object stands behind those that are there, and is pushed. -/
theorem Does.newObject_eq (h : p.Does f s (.onConst .newObject k) r s') :
    ∃ name, f.unit.pool.classAt k = .ok name ∧ r = .running (f.push (.object name s.objects.size)) [] ∧
      s' = (s.newObject name).2 := by
  cases h with
  | newObject hname => exact ⟨_, hname, rfl, rfl⟩
  | answered hop => simp at hop
  | entered hop => simp at hop

/-- An instruction goes on in its call, or has it wait for another one. -/
theorem Does.sameCall {i : Instr UInt16} (h : p.Does f s i r s') :
    (∀ g, r = .running g [] → f.SameCall g) ∧ ∀ g w, r = .running g [w] → f.SameCall w := by
  cases h
  case ifFalse f target n =>
    refine ⟨fun g hg => ?_, by simp⟩
    cases hg
    split <;> exact ⟨rfl, rfl, rfl⟩
  case answeredStatic f k m signature args v _ _ _ _ =>
    refine ⟨fun g hg => ?_, by simp⟩
    cases hg
    exact (f.sameCall_pushAll args).symm.trans (f.sameCall_receive _ v)
  case answered f op k m signature receiver args v _ _ _ _ _ =>
    refine ⟨fun g hg => ?_, by simp⟩
    cases hg
    have hsame : ((f.push receiver).pushAll args).SameCall f := ⟨rfl, rfl, rfl⟩
    exact hsame.trans (f.sameCall_receive _ v)
  all_goals
    constructor
    · intro g hg
      cases hg <;> exact ⟨rfl, rfl, rfl⟩
    · intro g w hg
      cases hg <;> exact ⟨rfl, rfl, rfl⟩

/-! ## Frames that wait -/

/-- What comes of a step when there are callers below. -/
def above (keeps : Bool) (callers : List Frame) : Progress → Progress
  | .running f inner => .running f (inner ++ callers)
  | .finished result =>
    match callers with
    | [] => .finished result
    | w :: callers => .running (w.receive keeps result) callers

/-- Giving back leaves the callers below alone. -/
theorem giveBack_above (f : Frame) (callers : List Frame) (v : Value) :
    giveBack f callers v = above f.keeps callers (giveBack f [] v) := by
  cases callers <;> rfl

/-- A step does the same whatever frames wait. -/
theorem step_above (f : Frame) (callers : List Frame) (i : Instr UInt16) :
    p.step f callers i = above f.keeps callers <$> p.step f [] i := by
  -- Only calls and returns have to do with the frames that wait.
  have hcall (op : ConstOp) (k : UInt16) :
      p.stepCall f callers op k = above f.keeps callers <$> p.stepCall f [] op k := by
    simp only [stepCall, map_bind]
    refine bind_congr fun m => bind_congr fun signature => bind_congr fun args => ?_
    split
    · simp [above]
    · simp only [map_bind]
      refine bind_congr fun receiver => bind_congr fun called => ?_
      cases called <;> simp [above]
  rcases i with op | ⟨op, slot⟩ | n | ⟨op, k⟩ | ⟨op, target⟩
  · cases op
    case returnVoid => simp [step, giveBack_above f callers]
    case returnValue =>
      simp only [step, map_bind, map_pure]
      refine bind_congr fun r => ?_
      rw [giveBack_above f callers]
    all_goals simp [step, above]
  · cases op <;> simp [step, above]
  · simp [step, above]
  · cases op
    case invokeVirtual => exact hcall _ k
    case invokeInterface => exact hcall _ k
    case invokeStatic => exact hcall _ k
    case invokeSpecial => exact hcall _ k
    all_goals simp [step, above]
  · cases op <;> simp [step, above]

/-- A step leaves the callers alone, and comes to the same above any of them. -/
theorem advance_above (f : Frame) (callers : List Frame) :
    p.advance f callers = above f.keeps callers <$> p.advance f [] := by
  unfold advance
  split
  · exact step_above _ callers _
  · rfl

/-! ## Runs -/

/-- **How a run goes on**: in the same call, or in one that its instruction enters, or in that of the caller, which
gets what the instruction returns. -/
theorem advance_cases (h : s.perform (p.advance f callers) = (.ok (.running g callers'), s')) :
    ∃ i, f.method.code[f.pc]? = some i ∧
      (p.Does { f with pc := f.pc + 1 } s i (.running g []) s' ∧ callers' = callers ∨
        (∃ w, p.Does { f with pc := f.pc + 1 } s i (.running g [w]) s' ∧ callers' = w :: callers) ∨
        ∃ v w, p.Does { f with pc := f.pc + 1 } s i (.finished v) s' ∧ callers = w :: callers' ∧
          g = w.receive f.keeps v) := by
  rw [advance] at h
  split at h
  · next i hi =>
    refine ⟨i, hi, ?_⟩
    rw [step_above, ← bind_pure_comp] at h
    simp only [Store.perform_bind_eq_ok, Store.perform_pure, Prod.mk.injEq, Except.ok.injEq] at h
    obtain ⟨r, _, hstep, hr, rfl⟩ := h
    have hdoes := step_does hstep
    cases r with
    | finished v =>
      cases callers with
      | nil => simp [above] at hr
      | cons w callers =>
        obtain ⟨rfl, rfl⟩ := Progress.running.inj hr
        exact .inr (.inr ⟨v, w, hdoes, rfl, rfl⟩)
    | running g' inner =>
      obtain ⟨rfl, rfl⟩ := Progress.running.inj hr
      rcases inner with _ | ⟨w, _ | ⟨w', inner⟩⟩
      · exact .inl ⟨hdoes, rfl⟩
      · exact .inr (.inl ⟨w, hdoes, rfl⟩)
      · -- An instruction enters one method at most.
        generalize { f with pc := f.pc + 1 } = f' at hdoes
        cases hdoes
  · simp at h

end Program

end Routecraft.Machine
