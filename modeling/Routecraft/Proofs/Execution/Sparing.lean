import Routecraft.Proofs.Execution.References
import Routecraft.Proofs.Execution.Straight

/-!
# What leaves the objects alone

The fields of the objects of units are changed by instructions that write fields, and by nothing else: not by the code
of the framework, whatever comes of it. Of the code of the application this is a condition.

* `Spares`: an action that leaves the objects alone, even if it fails.
* `Spares.hostCall`, `Spares.callFramework`: the code of the framework.
* `Spares.effect`, `Spares.run_effects`: instructions, and runs through straight code.
-/

namespace Routecraft.Machine

open Bytecode Store

variable {α β : Type} {args : List Value} {method : String}

/-- An action that leaves the objects of units as they are, whatever comes of it. -/
def Spares (a : Action α) : Prop := ∀ s : Store, (s.perform a).2.objects = s.objects

namespace Spares

/-! ## Actions in general -/

theorem pure (v : α) : Spares (pure v) := fun _ => rfl

theorem throw (e : MachineError) : Spares (throw e : Action α) := fun _ => rfl

/-- Actions that spare the objects, one after the other, spare them. -/
theorem bind {a : Action α} {f : α → Action β} (h : Spares a) (hf : ∀ v, Spares (f v)) : Spares (a >>= f) := by
  intro s
  have hs := h s
  rw [perform_bind]
  rcases ha : s.perform a with ⟨e | v, t⟩ <;> rw [ha] at hs
  · exact hs
  · exact (hf v t).trans hs

theorem get {f : Store → Action α} (h : ∀ s, Spares (f s)) : Spares (get >>= f) := bind (fun _ => rfl) h

theorem modify {f : Store → Store} (h : ∀ s, (f s).objects = s.objects) : Spares (modify f : Action PUnit) := h

theorem orUnitFault (c : Except UnitError α) : Spares (orUnitFault c) := by
  cases c with
  | error e => exact throw _
  | ok v => exact pure v

theorem mismatch (expected : String) (v : Value) : Spares (mismatch expected v : Action α) := get fun _ => throw _

theorem asInt (v : Value) : Spares v.asInt := by
  cases v <;> first | exact pure _ | exact mismatch _ _

theorem asObject (v : Value) : Spares v.asObject := by
  cases v <;> first | exact pure _ | exact mismatch _ _

/-! ## The code of the framework -/

/-- What brings up no references leaves the objects alone, as all objects are of some kind. -/
theorem of_keeps {a : Action α} {Q : α → Prop} (h : Keeps (fun _ _ => True) a Q) : Spares a :=
  fun s => h.objects_eq s.only_true

/-- The framework spares the objects. -/
theorem callFramework (owner : String) : Spares (callFramework owner method args) :=
  of_keeps (callFramework_keeps owner method fun _ _ _ _ _ => trivial)

end Spares

/-! ## Calls -/

/-- A program whose code of the application leaves the objects of units alone. -/
structure Program.Sparing (p : Program) : Prop where
  stubs : ∀ stub ∈ p.stubs, ∀ m ∈ stub.methods, ∀ args, Spares (m.2 args)
  statics : ∀ e ∈ p.statics, ∀ args, Spares (e.2 args)

namespace Spares

variable {p : Program} {name : String}

/-- Host objects of a sparing program spare the objects. -/
theorem callStub (hp : p.Sparing) (number : Nat) : Spares (callStub p.stubs number method args) := by
  unfold Machine.callStub
  dsimp only
  split
  · next code hcode =>
    refine bind (modify fun _ => rfl) fun _ => ?_
    rw [Array.getD_eq_getD_getElem?] at hcode
    cases hstub : p.stubs[number]? with
    | none =>
        rw [hstub] at hcode
        cases hcode
    | some stub =>
        rw [hstub] at hcode
        exact hp.stubs stub (Array.mem_of_getElem? hstub) _ (mem_of_lookup hcode) args
  · exact throw _

theorem hostCall (hp : p.Sparing) (object : HostObject) : Spares (object.call p.stubs method args) := by
  by_cases hstub : ∃ number, object = .stub number
  · obtain ⟨number, rfl⟩ := hstub
    exact callStub hp number
  · refine of_keeps (HostObject.call_keeps p.stubs object.only_true ?_ method fun _ _ _ _ _ => trivial)
    exact fun number heq => hstub ⟨number, heq⟩

/-- Static calls of a sparing program spare the objects. -/
theorem callStatic (hp : p.Sparing) (owner name : String) : Spares (p.callStatic owner name args) := by
  unfold Program.callStatic
  split
  · next code hcode => exact hp.statics _ (mem_of_lookup hcode) args
  · exact callFramework owner

/-- A call of a method enters one of a unit, or is answered by the host. -/
theorem call (hp : p.Sparing) (receiver : Value) : Spares (p.call receiver name args) := by
  cases receiver with
  | object unit number =>
      unfold Program.call
      dsimp only
      split
      · unfold Program.enter
        split
        · exact pure _
        · exact throw _
      · exact throw _
  | host className handle =>
      unfold Program.call
      refine get fun s => ?_
      split
      · exact bind (hostCall hp _) fun _ => pure _
      · exact throw _
  | boxed kind content =>
      unfold Program.call
      dsimp only
      split
      · exact pure _
      · exact throw _
  | _ => exact throw _

/-- A method of a host object. -/
theorem invokeHost (hp : p.Sparing) (className : String) (handle : Nat) :
    Spares (p.invoke (.host className handle) name args) := by
  rw [Program.invoke_host]
  refine get fun s => ?_
  split
  · exact hostCall hp _
  · exact throw _

/-- A method of a host object, or one whose name is that of none in a unit. -/
theorem invoke (hp : p.Sparing) (hquiet : p.Quiet name) (receiver : Value) : Spares (p.invoke receiver name args) := by
  cases receiver with
  | object unit number =>
      obtain ⟨e, he⟩ := hquiet.invoke_object unit
      rw [he]
      exact throw e
  | host className handle => exact invokeHost hp className handle
  | boxed kind content =>
      unfold Program.invoke Program.call
      dsimp only
      split
      · exact pure _
      · exact throw _
  | _ => exact throw _

/-! ## Instructions -/

variable {o : Operands} {i : Instr Constant}

theorem pop (o : Operands) : Spares o.pop := by
  obtain ⟨ls, _ | ⟨v, st⟩⟩ := o
  · exact throw _
  · exact pure _

theorem top (o : Operands) : Spares o.top := by
  obtain ⟨ls, _ | ⟨v, st⟩⟩ := o
  · exact throw _
  · exact pure _

theorem popArgs (count : Nat) (o : Operands) : Spares (o.popArgs count) := by
  unfold Operands.popArgs
  split
  · exact pure _
  · exact throw _

theorem load (slot : UInt8) (o : Operands) : Spares (o.load slot) := by
  unfold Operands.load
  split
  · exact pure _
  · exact throw _

theorem constantValue (c : Constant) : Spares (constantValue c) := by
  cases c <;> first | exact pure _ | exact throw _

/-- A call spares the objects, if it is static or no unit is called in place of the framework. -/
theorem callWith (hp : p.Sparing) (signature : Signature) (owner : String) {isStatic : Bool}
    (hname : isStatic = false → p.Quiet name) : Spares (p.callWith signature owner name isStatic o) := by
  unfold Program.callWith
  refine bind (popArgs _ o) fun ⟨args, o⟩ => ?_
  cases isStatic with
  | true => exact bind (callStatic hp owner name) fun _ => pure _
  | false => exact bind (pop o) fun _ => bind (invoke hp (hname rfl) _) fun _ => pure _

/-- Storing into an array spares the objects. -/
theorem arrayStoreEffect (o : Operands) : Spares (Program.arrayStoreEffect o) := by
  unfold Program.arrayStoreEffect
  refine bind (pop o) fun ⟨v, o⟩ => bind (pop o) fun ⟨index, o⟩ => bind (asInt index) fun n => ?_
  refine bind (pop o) fun ⟨target, o⟩ => ?_
  dsimp only
  split
  · refine get fun s => ?_
    split
    · exact bind (modify fun _ => rfl) fun _ => pure _
    · exact throw _
  · exact mismatch _ _

/-- **An instruction** that neither writes a field nor makes an object, and calls on objects only what no unit has. -/
theorem effect (hp : p.Sparing) (hobjects : ∀ c, i ≠ .onConst .putField c ∧ i ≠ .onConst .newObject c)
    (hcalls : ∀ m, i.callee? = some m → p.Quiet m.name) (o : Operands) : Spares (p.effect i o) := by
  unfold Program.effect
  split
  case h_1 => exact pure _
  case h_2 => exact arrayStoreEffect o
  case h_3 => exact bind (top o) fun _ => pure _
  case h_4 => exact bind (pop o) fun _ => pure _
  case h_5 => exact bind (pop o) fun ⟨_, o⟩ => bind (pop o) fun _ => pure _
  case h_6 => exact bind (load _ o) fun _ => pure _
  case h_7 => exact bind (pop o) fun _ => pure _
  case h_8 => exact pure _
  case h_9 op c =>
    unfold Program.constEffect
    split
    case h_1 => exact bind (constantValue _) fun _ => pure _
    case h_2 => exact bind (pop o) fun _ => bind (asObject _) fun _ => get fun _ => pure _
    case h_3 m => exact absurd rfl (hobjects (.field m)).1
    case h_4 => exact pure _
    case h_5 unit => exact absurd rfl (hobjects (.classRef unit)).2
    case h_6 =>
      refine bind (orUnitFault _) fun _ => bind (pop o) fun _ => bind (asInt _) fun n => ?_
      split
      · exact throw _
      · exact bind (fun _ => rfl) fun _ => pure _
    case h_7 =>
      refine bind (top o) fun v => ?_
      split
      · split
        · exact pure _
        · exact mismatch _ _
      · exact pure _
    case h_8 m => exact bind (orUnitFault _) fun _ => callWith hp _ _ nofun
    case h_9 m => exact bind (orUnitFault _) fun _ => callWith hp _ _ fun _ => hcalls m rfl
    case h_10 m => exact bind (orUnitFault _) fun _ => callWith hp _ _ fun _ => hcalls m rfl
    case h_11 m => exact bind (orUnitFault _) fun _ => callWith hp _ _ fun _ => hcalls m rfl
    case h_12 => exact pure _
  case h_10 => exact pure _

/-- Code spares the objects if each instruction does. -/
theorem effects {is : List (Instr Constant)} (h : ∀ i ∈ is, ∀ o, Spares (p.effect i o)) (o : Operands) :
    Spares (p.effects is o) := by
  induction is generalizing o with
  | nil => exact pure o
  | cons i is ih =>
      rw [Program.effects_cons]
      exact bind (h i List.mem_cons_self o) (ih fun j hj => h j (List.mem_cons_of_mem i hj))

/-! ## Runs -/

variable {f : Frame} {labels : Array (Option UInt16)} {pc b : Nat} {is js : List (Instr Constant)} {s : Store}

/-- **A run through straight code** leaves the objects alone if the code does, and what comes behind it. -/
theorem run_effects (hahead : f.Ahead labels pc (is ++ js)) (hstraight : ∀ i ∈ is, i.isStraight)
    (htame : ∀ i ∈ is, p.Tame False i) (hlimit : b ≤ p.stepLimit) (his : ∀ i ∈ is, ∀ o, Spares (p.effect i o))
    (hjs : ∀ n w t, s.perform (p.effects is o) = (.ok w, t) → n ≤ p.stepLimit →
      (t.perform (p.run n (f.placed (pc + is.length) w) [])).2.objects = t.objects) :
    (s.perform (p.run b (f.placed pc o) [])).2.objects = s.objects := by
  have heffects : (s.perform (p.effects (is.take b) o)).2.objects = s.objects :=
    effects (fun i hi => his i (List.mem_of_mem_take hi)) o s
  rw [Program.perform_run_take hahead hstraight htame hlimit, perform_bind]
  rcases hw : s.perform (p.effects (is.take b) o) with ⟨e | w, t⟩ <;> rw [hw] at heffects
  · exact heffects
  · refine Eq.trans ?_ heffects
    by_cases hlt : b < is.length
    · rw [Nat.sub_eq_zero_of_le (Nat.le_of_lt hlt)]
      rfl
    · rw [List.take_of_length_le (Nat.not_lt.mp hlt)] at hw ⊢
      exact hjs _ w t hw (by omega)

/-- The same of a single instruction. -/
theorem run_effect (hp : p.Sparing) (hahead : f.Ahead labels pc (i :: is)) (hstraight : i.isStraight)
    (hobjects : ∀ c, i ≠ .onConst .putField c ∧ i ≠ .onConst .newObject c)
    (hcalls : ∀ m, i.callee? = some m → p.Quiet m.name) (hlimit : b ≤ p.stepLimit)
    (hrest : ∀ n w, n ≤ p.stepLimit → Spares (p.run n (f.placed (pc + 1) w) [])) (o : Operands) :
    Spares (p.run b (f.placed pc o) []) := by
  intro s
  have hahead : f.Ahead labels pc ([i] ++ is) := hahead
  refine run_effects hahead (List.forall_mem_singleton.mpr hstraight) ?_ hlimit ?_ fun n w t _ hn => hrest n w hn t
  · exact List.forall_mem_singleton.mpr fun m hm => .inl (hcalls m hm)
  · exact List.forall_mem_singleton.mpr (effect hp hobjects hcalls)

/-- A run that comes to its end. -/
theorem run_returnValue (hahead : f.Ahead labels pc (.bare .returnValue :: is)) (o : Operands) :
    Spares (p.run b (f.placed pc o) []) := by
  cases b with
  | zero => exact throw _
  | succ b =>
      rw [Program.run_return hahead]
      exact bind (pop o) fun _ => pure _

end Spares

end Routecraft.Machine
