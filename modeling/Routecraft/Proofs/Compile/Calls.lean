import Routecraft.Compile.Framework
import Routecraft.Proofs.Execution.Operands

/-!
# Calls into the framework

The instruction of a call of the catalogue takes the arguments off the stack, and the object that the method
is called on, and leaves the result.

* `Framework.OnObject`, `Framework.OnClass`: the calls of the catalogue with a number of arguments.
* `Program.effect_onObject`, `Program.effect_onClass`: what the instructions of such calls do.
* `Program.Unshadowed`: the application gives no static method in place of one of the framework.
-/

namespace Routecraft.Compile.Framework

open Bytecode

/-- A call of the catalogue on an object, with a number of arguments. -/
structure OnObject (c : Call) (count : Nat) : Prop where
  mem : c ∈ catalogue
  dispatch : c.dispatch ≠ .static
  params : c.signature.params.length = count

/-- A static call of the catalogue, with a number of arguments. -/
structure OnClass (c : Call) (count : Nat) : Prop where
  mem : c ∈ catalogue
  dispatch : c.dispatch = .static
  params : c.signature.params.length = count

/-- All calls of the catalogue have a result, and a signature that can be read back. -/
theorem catalogue_answers : ∀ c ∈ catalogue, c.signature.WellFormed ∧ c.signature.result.isSome = true := by
  decide +kernel

theorem signatureOf_of_mem {c : Call} (h : c ∈ catalogue) :
    Bytecode.signatureOf c.signature.descriptor = .ok c.signature :=
  signatureOf_eq_ok.mpr ⟨(catalogue_answers c h).1, rfl⟩

theorem mem_sources_of_lookup {source : String} (h : source ∈ sources) : lookup source ∈ catalogue := by
  simp only [catalogue, List.mem_append, List.mem_map]
  exact .inl (.inr ⟨source, h, rfl⟩)

theorem box_mem (kind : Primitive) : box kind ∈ catalogue := by
  simp only [catalogue, List.mem_append, List.mem_flatMap]
  exact .inr ⟨kind, kind.mem_all, by simp⟩

theorem unbox_mem (kind : Primitive) : unbox kind ∈ catalogue := by
  simp only [catalogue, List.mem_append, List.mem_flatMap]
  exact .inr ⟨kind, kind.mem_all, by simp⟩

theorem valuePrimitive_mem (kind : Primitive) : valuePrimitive kind ∈ catalogue := by
  simp only [catalogue, List.mem_append, List.mem_flatMap]
  exact .inr ⟨kind, kind.mem_all, by simp⟩

end Routecraft.Compile.Framework

namespace Routecraft.Machine

open Bytecode Compile

namespace Program

variable {p : Program} {c : Call} {ls : Array Value} {st : List Value}

/-! ## Calls on objects -/

/-- The instruction of a call on an object. -/
theorem effect_onObject (args : List Value) (hc : Framework.OnObject c args.length) (receiver : Value) :
    p.effect c.instr ⟨ls, args.reverse ++ receiver :: st⟩ =
      p.invoke receiver c.name args >>= fun v => pure ⟨ls, v :: st⟩ := by
  have hcallee : c.instr.callee? = some ⟨c.owner, c.name, c.signature.descriptor⟩ := by
    unfold Call.instr
    cases hdispatch : c.dispatch
    case static => exact absurd hdispatch hc.dispatch
    all_goals rfl
  rw [effect_callee hcallee, Framework.signatureOf_of_mem hc.mem]
  simp only [orUnitFault_ok, pure_bind, hc.params, Operands.popArgs_mk_append, Operands.pop_mk_cons,
    (Framework.catalogue_answers c hc.mem).2]
  rfl

theorem effect_onObject₀ (hc : Framework.OnObject c 0) (receiver : Value) :
    p.effect c.instr ⟨ls, receiver :: st⟩ =
      p.invoke receiver c.name [] >>= fun v => pure ⟨ls, v :: st⟩ :=
  effect_onObject [] hc receiver

theorem effect_onObject₁ (hc : Framework.OnObject c 1) (receiver v : Value) :
    p.effect c.instr ⟨ls, v :: receiver :: st⟩ =
      p.invoke receiver c.name [v] >>= fun v => pure ⟨ls, v :: st⟩ :=
  effect_onObject [v] hc receiver

theorem effect_onObject₃ (hc : Framework.OnObject c 3) (receiver v w x : Value) :
    p.effect c.instr ⟨ls, x :: w :: v :: receiver :: st⟩ =
      p.invoke receiver c.name [v, w, x] >>= fun v => pure ⟨ls, v :: st⟩ :=
  effect_onObject [v, w, x] hc receiver

/-! ## Static calls -/

/-- A static call by its signature. -/
theorem effect_invokeStatic {signature : Signature}
    (h : Bytecode.signatureOf signature.descriptor = .ok signature) (args : List Value)
    (hargs : signature.params.length = args.length) (owner name : String) :
    p.effect (.invokeStatic owner name signature) ⟨ls, args.reverse ++ st⟩ =
      p.callStatic owner name args >>= fun v => pure ((Operands.mk ls st).receive signature.result.isSome v) := by
  show (orUnitFault (Bytecode.signatureOf signature.descriptor) >>= fun s => p.callWith s _ _ true _) = _
  rw [h, orUnitFault_ok, pure_bind]
  unfold callWith
  rw [hargs]
  simp only [Operands.popArgs_mk_append, pure_bind, if_true]

/-- The instruction of a static call of the catalogue. -/
theorem effect_onClass (args : List Value) (hc : Framework.OnClass c args.length) :
    p.effect c.instr ⟨ls, args.reverse ++ st⟩ =
      p.callStatic c.owner c.name args >>= fun v => pure ⟨ls, v :: st⟩ := by
  unfold Call.instr
  rw [hc.dispatch]
  refine (effect_invokeStatic (Framework.signatureOf_of_mem hc.mem) args hc.params c.owner c.name).trans ?_
  rw [(Framework.catalogue_answers c hc.mem).2]
  rfl

/-- No static method of the application stands in place of one that generated code calls. -/
def Unshadowed (p : Program) : Prop :=
  ∀ c ∈ Framework.catalogue, c.dispatch = .static → p.statics.lookup ⟨c.owner, c.name⟩ = none

/-- The static calls of the catalogue are answered by the framework, unless the application answers in its place. -/
theorem callStatic_of_mem (hp : p.Unshadowed) (hc : c ∈ Framework.catalogue) (hd : c.dispatch = .static)
    (args : List Value) : p.callStatic c.owner c.name args = callFramework c.owner c.name args := by
  unfold callStatic
  rw [hp c hc hd]

theorem effect_onClass₁ (hp : p.Unshadowed) (hc : Framework.OnClass c 1) (v : Value) :
    p.effect c.instr ⟨ls, v :: st⟩ =
      callFramework c.owner c.name [v] >>= fun v => pure ⟨ls, v :: st⟩ := by
  rw [← callStatic_of_mem hp hc.mem hc.dispatch]
  exact effect_onClass [v] hc

theorem effect_onClass₂ (hp : p.Unshadowed) (hc : Framework.OnClass c 2) (v w : Value) :
    p.effect c.instr ⟨ls, w :: v :: st⟩ =
      callFramework c.owner c.name [v, w] >>= fun v => pure ⟨ls, v :: st⟩ := by
  rw [← callStatic_of_mem hp hc.mem hc.dispatch]
  exact effect_onClass [v, w] hc

/-! ## Boxes -/

theorem onClass_box (kind : Primitive) : Framework.OnClass (Framework.box kind) 1 :=
  ⟨Framework.box_mem kind, rfl, rfl⟩

/-- A value is put into its box. -/
theorem callFramework_box (kind : Primitive) (v : Value) :
    callFramework kind.boxClass "valueOf" [v] = pure (.boxed kind v) := by
  cases kind <;> rfl

theorem effect_box (hp : p.Unshadowed) (kind : Primitive) (v : Value) :
    p.effect (Framework.box kind).instr ⟨ls, v :: st⟩ = pure ⟨ls, .boxed kind v :: st⟩ := by
  rw [effect_onClass₁ hp (onClass_box kind)]
  show (callFramework kind.boxClass "valueOf" [v] >>= _) = _
  rw [callFramework_box, pure_bind]

end Program

end Routecraft.Machine
