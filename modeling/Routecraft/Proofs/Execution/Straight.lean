import Routecraft.Proofs.Execution.Nesting
import Routecraft.Proofs.Execution.Operands

/-!
# Running straight code

A run through code without jumps does what its instructions do in a row, and goes on behind them. Each
instruction is one step, unless it calls a method of a unit: the steps of this method count too.

* `Frame.Ahead`: the code that a frame has ahead of it.
* `Program.run_effects`: a run through straight code.
* `Program.run_returnValue`, `Program.run_returnVoid`, `Program.run_ifFalse`: the instructions that end it.
-/

namespace Routecraft.Machine

open Bytecode

variable {p : Program} {f : Frame} {labels : Array (Option UInt16)} {pc : Nat} {i : Instr Constant}
  {is js : List (Instr Constant)}

/-! ## Code ahead -/

/-- The code of the method from a place on, as it was written down. -/
def Frame.Ahead (f : Frame) (labels : Array (Option UInt16)) (pc : Nat) (is : List (Instr Constant)) : Prop :=
  List.Forall₂ (Instr.Resolves f.unit.pool labels) (f.method.code.toList.drop pc) is

namespace Frame.Ahead

/-- What is ahead of a piece of code comes behind it. -/
theorem append (h : f.Ahead labels pc (is ++ js)) : f.Ahead labels (pc + is.length) js := by
  unfold Ahead at h ⊢
  have hdrop := List.forall₂_drop is.length h
  rw [List.drop_drop, List.drop_left] at hdrop
  exact hdrop

/-- What is ahead of an instruction comes behind it. -/
theorem tail (h : f.Ahead labels pc (i :: is)) : f.Ahead labels (pc + 1) is := by
  have happend : f.Ahead labels pc ([i] ++ is) := h
  exact happend.append

/-- The instruction ahead stands in the code, with its constant resolved. -/
theorem head (h : f.Ahead labels pc (i :: is)) :
    ∃ i', f.method.code[pc]? = some i' ∧ Instr.Resolves f.unit.pool labels i' i := by
  unfold Ahead at h
  rcases hcode : f.method.code.toList.drop pc with _ | ⟨i', rest⟩
  · rw [hcode] at h
    cases h
  · rw [hcode] at h
    refine ⟨i', ?_, (List.forall₂_cons.mp h).1⟩
    have hget := congrArg (·[0]?) hcode
    simpa using hget

/-- Code that is ahead fits into the method. -/
theorem length_le (h : f.Ahead labels pc is) : is.length ≤ f.method.code.size := by
  rw [← h.length_eq, List.length_drop, Array.length_toList]
  exact Nat.sub_le _ _

end Frame.Ahead

namespace Program

variable {slack : Prop} {s s' : Store} {o : Operands} {callers : List Frame}

/-- A step from a place makes the instruction there. -/
theorem advance_placed {i' : Instr UInt16} (h : f.method.code[pc]? = some i') (o : Operands)
    (callers : List Frame) :
    p.advance (f.placed pc o) callers = p.step (f.placed (pc + 1) o) callers i' := by
  have hcode : (f.placed pc o).method.code[(f.placed pc o).pc]? = some i' := h
  unfold advance
  rw [hcode]
  rfl

/-! ## Calls -/

/-- Whether no unit has a method of this name. -/
def Quiet (p : Program) (name : String) : Prop := ∀ u ∈ p.units, u.method? name = none

/-- A call enters the method that the unit of an object has. -/
theorem call_object {unit name : String} {u : CodeUnit} {m : Method} (hunit : p.unit? unit = some u)
    (hmethod : u.method? name = some m) (number : Nat) (args : List Value) :
    p.call (.object unit number) name args =
      pure (.entered ⟨u, m, 0, (.object unit number :: args).toArray, [], true⟩) := by
  unfold call
  simp only [hunit, enter, hmethod]

/-- A call of a method that the unit of an object has runs it from its start. -/
theorem invoke_object {unit name : String} {u : CodeUnit} {m : Method} (hunit : p.unit? unit = some u)
    (hmethod : u.method? name = some m) (number : Nat) (args : List Value) :
    p.invoke (.object unit number) name args =
      p.run p.stepLimit ⟨u, m, 0, (.object unit number :: args).toArray, [], true⟩ [] := by
  unfold invoke
  rw [call_object hunit hmethod, pure_bind]

/-- A name that is that of no method in a unit is refused, for each object of a unit alike. -/
theorem Quiet.invoke_object {name : String} (h : p.Quiet name) (unit : String) :
    ∃ e, ∀ number args, p.invoke (.object unit number) name args = throw e := by
  rcases hunit : p.unit? unit with _ | u
  · refine ⟨.unknownUnit unit, fun number args => ?_⟩
    unfold invoke call
    simp only [hunit]
    rfl
  · refine ⟨.noSuchMethod u.name name, fun number args => ?_⟩
    unfold invoke call
    simp only [hunit, enter, h u (List.mem_of_find?_eq_some hunit)]
    rfl

/-- A call of a method that is entered is one of an object of a unit that has it. -/
theorem call_eq_entered {receiver : Value} {name : String} {args : List Value} {g : Frame}
    (h : s.perform (p.call receiver name args) = (.ok (.entered g), s')) :
    ∃ u m, u ∈ p.units ∧ u.method? name = some m ∧ g = ⟨u, m, 0, (receiver :: args).toArray, [], true⟩ := by
  unfold call at h
  split at h
  · split at h
    · next unit _ u hu =>
      unfold enter at h
      split at h
      · next m hm =>
        cases h
        exact ⟨u, m, List.mem_of_find?_eq_some hu, hm, rfl⟩
      · simp at h
    · simp at h
  · rw [Store.perform_bind] at h
    simp only [Store.perform_get] at h
    split at h
    · simp only [Store.perform_bind] at h
      split at h <;> simp at h
    · simp at h
  · simp at h
  · split at h <;> simp at h
  · simp at h

/-- Whether the steps of the method that an instruction calls need not be counted: it is not a method of a
unit; or there is slack, and its result is kept. -/
def Tame (p : Program) (slack : Prop) (i : Instr Constant) : Prop :=
  ∀ m, i.callee? = some m →
    p.Quiet m.name ∨ slack ∧ ∀ s, signatureOf m.descriptor = .ok s → s.result.isSome = true

/-- An instruction that calls nothing on an object is tame. -/
theorem tame_of_callee (h : i.callee? = none) : p.Tame slack i := by
  intro m hm
  rw [h] at hm
  cases hm

/-! ## Single instructions -/

/-- A smaller budget, or the same one where there is no slack. -/
structure Budget (slack : Prop) (b n : Nat) : Prop where
  le : b ≤ n
  eq : ¬slack → b = n

/-- Runs with enough of a budget come to the same. -/
theorem run_follows {b n : Nat} (h : Budget slack b n) (f : Frame) (callers : List Frame) (s : Store) :
    p.Follows slack s (p.run b f callers) (p.run n f callers) := by
  by_cases hslack : slack
  · exact run_le h.le hslack f callers s
  · rw [h.eq hslack]
    exact .refl ..

/-- The step of a straight instruction that calls nothing on an object. -/
theorem run_simple {b : Nat} (hahead : f.Ahead labels pc (i :: is)) (hstraight : i.isStraight)
    (hcallee : i.callee? = none) (o : Operands) (callers : List Frame) :
    p.run (b + 1) (f.placed pc o) callers =
      p.effect i o >>= fun o => p.run b (f.placed (pc + 1) o) callers := by
  obtain ⟨i', hcode, hresolves⟩ := hahead.head
  rw [run_succ, advance_placed hcode, step_eq_effect hresolves hstraight hcallee, bind_assoc]
  rfl

/-- The step of a straight instruction. -/
theorem run_effect {b n : Nat} (hahead : f.Ahead labels pc (i :: is)) (hstraight : i.isStraight)
    (htame : p.Tame slack i) (hb : Budget slack b (n + 1)) (hlimit : b ≤ p.stepLimit) (o : Operands)
    (callers : List Frame) (s : Store) :
    p.Follows slack s (p.run b (f.placed pc o) callers)
      (p.effect i o >>= fun o => p.run n (f.placed (pc + 1) o) callers) := by
  obtain ⟨i', hcode, hresolves⟩ := hahead.head
  cases b with
  | zero =>
      -- Without a budget there is the limit on the one side, which only the slack allows.
      have hslack : slack := by
        by_contra hslack
        exact absurd (hb.eq hslack) (by omega)
      exact .of_limit hslack _
  | succ b =>
      have hbn : Budget slack b n := ⟨by have := hb.le; omega, fun h => by have := hb.eq h; omega⟩
      rcases hcallee : i.callee? with _ | m
      · rw [run_simple hahead hstraight hcallee]
        exact Follows.bind_right fun o' s' => run_follows hbn _ callers s'
      · rw [run_succ, advance_placed hcode, step_callee hresolves hcallee, effect_callee hcallee]
        simp only [bind_assoc, pure_bind]
        -- The instruction is a call: step by step the two sides do the same, up to the method that is entered.
        apply Follows.bind (.refl ..)
        intro signature s₁ hsignature
        apply Follows.bind_right
        intro args s₂
        apply Follows.bind_right
        intro receiver s₃
        unfold invoke
        rw [bind_assoc]
        apply Follows.bind (.refl ..)
        intro called s₄ hcalled
        cases called with
        | result v =>
            rw [pure_bind]
            show p.Follows slack s₄ (p.run b ((f.placed (pc + 1) receiver.2).receive _ v) callers) _
            rw [Frame.receive_placed]
            exact run_follows hbn _ callers s₄
        | entered g =>
            -- A method of a unit was entered: on the one side its steps count, on the other it is a run of its own.
            obtain ⟨u, method, hu, hmethod, hg⟩ := call_eq_entered hcalled
            rcases htame m hcallee with hquiet | ⟨hslack, hkept⟩
            · simp [hquiet u hu] at hmethod
            · have hkept := hkept signature (Store.perform_orUnitFault_eq_ok.mp hsignature).1
              have hrun := run_above (p := p) (show b ≤ p.stepLimit by omega) hbn.le hslack g
                (f.placed (pc + 1) receiver.2) [] callers (by rw [hg]; rfl) s₄
              rw [hkept]
              rw [hg] at hrun ⊢
              simp only [Frame.receive_placed] at hrun
              exact hrun

/-- **A run through straight code** does what its instructions do in a row. -/
theorem run_effects {b n : Nat} (hahead : f.Ahead labels pc (is ++ js)) (hstraight : ∀ i ∈ is, i.isStraight)
    (htame : ∀ i ∈ is, p.Tame slack i) (hb : Budget slack b (n + is.length)) (hlimit : b ≤ p.stepLimit)
    (o : Operands) (callers : List Frame) (s : Store) :
    p.Follows slack s (p.run b (f.placed pc o) callers)
      (p.effects is o >>= fun o => p.run n (f.placed (pc + is.length) o) callers) := by
  induction is generalizing b pc o s with
  | nil =>
      rw [effects_nil, pure_bind]
      exact run_follows hb _ callers s
  | cons i is ih =>
      have hle := hb.le
      rw [List.length_cons] at hle
      have hfirst := run_effect (n := b - 1) hahead (hstraight i List.mem_cons_self) (htame i List.mem_cons_self)
        ⟨by omega, fun h => by have := hb.eq h; rw [List.length_cons] at this; omega⟩ hlimit o callers s
      refine hfirst.trans ?_
      rw [effects_cons, bind_assoc]
      apply Follows.bind_right
      intro o' s'
      have hrest := ih (b := b - 1) hahead.tail (fun j hj => hstraight j (List.mem_cons_of_mem i hj))
        (fun j hj => htame j (List.mem_cons_of_mem i hj))
        ⟨by omega, fun h => by have := hb.eq h; rw [List.length_cons] at this; omega⟩ (by omega) o' s'
      rw [List.length_cons, Nat.add_comm is.length 1, ← Nat.add_assoc]
      exact hrest

/-- A run through straight code all of whose steps are counted. -/
theorem perform_run_effects {n : Nat} (hahead : f.Ahead labels pc (is ++ js))
    (hstraight : ∀ i ∈ is, i.isStraight) (htame : ∀ i ∈ is, p.Tame False i)
    (hlimit : n + is.length ≤ p.stepLimit) (o : Operands) (callers : List Frame) (s : Store) :
    s.perform (p.run (n + is.length) (f.placed pc o) callers) =
      s.perform (p.effects is o >>= fun o => p.run n (f.placed (pc + is.length) o) callers) := by
  have hbudget : Budget False (n + is.length) (n + is.length) := ⟨Nat.le_refl _, fun _ => rfl⟩
  rcases run_effects hahead hstraight htame hbudget hlimit o callers s with h | ⟨h, -⟩
  · exact h
  · exact h.elim

/-- A run through straight code, as far as there are steps left. -/
theorem perform_run_take (hahead : f.Ahead labels pc (is ++ js)) (hstraight : ∀ i ∈ is, i.isStraight)
    (htame : ∀ i ∈ is, p.Tame False i) {b : Nat} (hlimit : b ≤ p.stepLimit) (o : Operands) (callers : List Frame)
    (s : Store) :
    s.perform (p.run b (f.placed pc o) callers) = s.perform (p.effects (is.take b) o >>= fun o =>
      p.run (b - is.length) (f.placed (pc + (is.take b).length) o) callers) := by
  have hlength : (is.take b).length = min b is.length := List.length_take
  have hahead' : f.Ahead labels pc (is.take b ++ (is.drop b ++ js)) := by
    rw [← List.append_assoc, List.take_append_drop]
    exact hahead
  have hrun := perform_run_effects (n := b - is.length) hahead' (fun i hi => hstraight i (List.mem_of_mem_take hi))
    (fun i hi => htame i (List.mem_of_mem_take hi)) (by omega) o callers s
  rwa [show b - is.length + (is.take b).length = b by omega] at hrun

/-! ## Instructions that end straight code -/

variable {ls : Array Value} {stack : List Value} {v : Value} {b : Nat}

/-- A run that returns gives its value back and goes on in the caller. -/
theorem run_returnValue (hahead : f.Ahead labels pc (.bare .returnValue :: is)) (callers : List Frame) :
    p.run (b + 1) (f.placed pc ⟨ls, v :: stack⟩) callers = p.proceed b (giveBack f callers v) := by
  obtain ⟨i', hcode, hresolves⟩ := hahead.head
  cases hresolves
  rw [run_succ, advance_placed hcode]
  cases callers <;> rfl

/-- The last step of a run. -/
theorem run_return (hahead : f.Ahead labels pc (.bare .returnValue :: is)) (o : Operands) :
    p.run (b + 1) (f.placed pc o) [] = o.pop >>= fun r => pure r.1 := by
  obtain ⟨i', hcode, hresolves⟩ := hahead.head
  cases hresolves
  rw [run_succ, advance_placed hcode]
  simp only [step, Frame.pop_placed, bind_assoc, pure_bind]
  rfl

/-- A run that returns without a value gives null back and goes on in the caller. -/
theorem run_returnVoid (hahead : f.Ahead labels pc (.bare .returnVoid :: is)) (o : Operands)
    (callers : List Frame) :
    p.run (b + 1) (f.placed pc o) callers = p.proceed b (giveBack f callers .null) := by
  obtain ⟨i', hcode, hresolves⟩ := hahead.head
  cases hresolves
  rw [run_succ, advance_placed hcode]
  cases callers <;> rfl

/-- A branch, on whatever is on the stack. -/
theorem run_branch {label : UInt16} (hahead : f.Ahead labels pc (.jump .ifFalse label :: is)) :
    ∃ target, labels[label.toNat]? = some (some target) ∧ ∀ (o : Operands) (callers : List Frame),
      p.run (b + 1) (f.placed pc o) callers = o.pop >>= fun r => r.1.asInt >>= fun n =>
        p.run b (f.placed (if n == 0 then target.toNat else pc + 1) r.2) callers := by
  obtain ⟨i', hcode, hresolves⟩ := hahead.head
  cases hresolves with
  | @jump op label target hlabel =>
      refine ⟨target, hlabel, fun o callers => ?_⟩
      rw [run_succ, advance_placed hcode]
      simp only [step, Frame.pop_placed, pure_bind, bind_assoc]
      refine bind_congr fun r => bind_congr fun n => ?_
      show p.run b _ callers = _
      split <;> rfl

/-- A run at a jump goes on where its label is bound, or behind it. -/
theorem run_ifFalse {label : UInt16} (hahead : f.Ahead labels pc (.jump .ifFalse label :: is)) (ls : Array Value)
    (v : Value) (stack : List Value) (callers : List Frame) :
    ∃ target, labels[label.toNat]? = some (some target) ∧
      p.run (b + 1) (f.placed pc ⟨ls, v :: stack⟩) callers =
        v.asInt >>= fun n =>
          p.run b (f.placed (if n == 0 then target.toNat else pc + 1) ⟨ls, stack⟩) callers := by
  obtain ⟨target, hlabel, hrun⟩ := run_branch (p := p) (b := b) hahead
  exact ⟨target, hlabel, hrun ⟨ls, v :: stack⟩ callers⟩

/-- A call of a method of an object of a unit: the method is entered. -/
theorem run_enter {m : Member} {signature : Signature} (hahead : f.Ahead labels pc (i :: is))
    (hcallee : i.callee? = some m) (hsignature : signatureOf m.descriptor = .ok signature)
    (args : List Value) (hargs : args.length = signature.params.length) {unit : String} {u : CodeUnit}
    {method : Method} (hunit : p.unit? unit = some u) (hmethod : u.method? m.name = some method) (number : Nat)
    (o : Operands) (callers : List Frame) :
    p.run (b + 1) (f.placed pc ⟨o.locals, args.reverse ++ .object unit number :: o.stack⟩) callers =
      p.run b ⟨u, method, 0, (.object unit number :: args).toArray, [], signature.result.isSome⟩
        (f.placed (pc + 1) o :: callers) := by
  obtain ⟨i', hcode, hresolves⟩ := hahead.head
  rw [run_succ, advance_placed hcode, step_callee hresolves hcallee, hsignature]
  simp only [orUnitFault_ok, pure_bind, ← hargs, Operands.popArgs_mk_append, Operands.pop_mk_cons,
    call_object hunit hmethod]
  rfl

/-- What a host object answers is the result of the call. -/
theorem invoke_host (p : Program) (className : String) (handle : Nat) (name : String) (args : List Value) :
    p.invoke (.host className handle) name args = (get : Action Store) >>= fun s =>
      match s.hostObject? handle with
      | some object => object.call p.stubs name args
      | none => throw (.noSuchMethod className name) := by
  unfold invoke call
  rw [bind_assoc]
  refine bind_congr fun s => ?_
  rcases s.hostObject? handle with _ | object
  · rfl
  · simp only [bind_assoc, pure_bind, bind_pure]

/-- A call of a method of a host object. -/
theorem run_callHost {m : Member} {signature : Signature} (hahead : f.Ahead labels pc (i :: is))
    (hcallee : i.callee? = some m) (hsignature : signatureOf m.descriptor = .ok signature)
    (args : List Value) (hargs : args.length = signature.params.length) (className : String) (handle : Nat)
    (o : Operands) (callers : List Frame) :
    p.run (b + 1) (f.placed pc ⟨o.locals, args.reverse ++ .host className handle :: o.stack⟩) callers =
      p.invoke (.host className handle) m.name args >>= fun v =>
        p.run b (f.placed (pc + 1) (o.receive signature.result.isSome v)) callers := by
  obtain ⟨i', hcode, hresolves⟩ := hahead.head
  rw [run_succ, advance_placed hcode, step_callee hresolves hcallee, hsignature]
  simp only [orUnitFault_ok, pure_bind, ← hargs, Operands.popArgs_mk_append, Operands.pop_mk_cons, bind_assoc]
  unfold invoke call
  simp only [bind_assoc]
  refine bind_congr fun s => ?_
  split
  · simp only [bind_assoc, pure_bind]
    refine bind_congr fun v => ?_
    show p.run b (Frame.receive _ _ v) callers = _
    rw [Frame.receive_placed]
  · simp

/-! ## Frames on the way -/

/-- A call comes to the frame behind a straight instruction that it was at. -/
theorem Activation.effect {f₀ : Frame} {o' : Operands} (h : p.Activation f₀ (f.placed pc o))
    (hahead : f.Ahead labels pc (i :: is)) (hstraight : i.isStraight)
    (heffect : s.perform (p.effect i o) = (.ok o', s')) : p.Activation f₀ (f.placed (pc + 1) o') := by
  obtain ⟨i', hcode, hresolves⟩ := hahead.head
  rcases hcallee : i.callee? with _ | m
  · have hstep : s.perform (p.advance (f.placed pc o) []) = (.ok (.running (f.placed (pc + 1) o') []), s') := by
      rw [advance_placed hcode, step_eq_effect hresolves hstraight hcallee, Store.perform_bind, heffect]
      rfl
    exact .step h hstep
  · rw [effect_callee hcallee] at heffect
    obtain ⟨signature, s₁, hsignature, heffect⟩ := Store.perform_bind_eq_ok.mp heffect
    obtain ⟨⟨args, o₁⟩, s₂, hargs, heffect⟩ := Store.perform_bind_eq_ok.mp heffect
    obtain ⟨⟨receiver, o₂⟩, s₃, hreceiver, heffect⟩ := Store.perform_bind_eq_ok.mp heffect
    obtain ⟨v, s₄, hinvoke, heffect⟩ := Store.perform_bind_eq_ok.mp heffect
    obtain ⟨called, s₅, hcall, hresult⟩ := Store.perform_bind_eq_ok.mp hinvoke
    cases heffect
    -- The step of a call is what its effect consists of, up to the frame that is entered.
    have hadvance : s.perform (p.advance (f.placed pc o) []) =
        (.ok (goOn (f.placed (pc + 1) o₂) [] signature.result.isSome called), s₅) := by
      rw [advance_placed hcode, step_callee hresolves hcallee]
      simp only [Store.perform_bind, hsignature, hargs, hreceiver, hcall, Store.perform_pure]
    cases called with
    | result r =>
        cases hresult
        have hback := Activation.step h hadvance
        rw [Frame.receive_placed] at hback
        exact hback
    | entered g =>
        have hback := Activation.back v h hadvance
        rw [Frame.receive_placed] at hback
        exact hback

/-- **A call comes to the frame behind straight code** if its instructions succeed. -/
theorem Activation.effects {f₀ : Frame} {o' : Operands} (h : p.Activation f₀ (f.placed pc o))
    (hahead : f.Ahead labels pc (is ++ js)) (hstraight : ∀ i ∈ is, i.isStraight)
    (heffects : s.perform (p.effects is o) = (.ok o', s')) : p.Activation f₀ (f.placed (pc + is.length) o') := by
  induction is generalizing pc o s with
  | nil =>
      cases heffects
      exact h
  | cons i is ih =>
      rw [effects_cons] at heffects
      obtain ⟨o₁, s₁, hfirst, hrest⟩ := Store.perform_bind_eq_ok.mp heffects
      have hnext := h.effect hahead (hstraight i List.mem_cons_self) hfirst
      have hlast := ih hnext hahead.tail (fun j hj => hstraight j (List.mem_cons_of_mem i hj)) hrest
      rw [List.length_cons, Nat.add_comm is.length 1, ← Nat.add_assoc]
      exact hlast

end Program

end Routecraft.Machine
