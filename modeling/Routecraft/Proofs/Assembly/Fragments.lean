import Routecraft.Proofs.Assembly.Written
import Routecraft.Proofs.Verification.Effects

/-!
# Fragments of code

A fragment has no jumps and no returns. The stack that it leaves is that of its instructions one after another, and
like theirs it depends on what was written down only: the same fragment, assembled into another pool and with more
code behind it, goes through the same frame types.

* `Instr.isInner`: an instruction that may stand in a fragment.
* `Checker.run_ok_iff`: a fragment has the effect of its instructions.
* `stackEffect_assemble`: an assembled fragment has the effects that were written down.
* `effects_of_stackEffect`: what is written down of a fragment that has an effect.
* `Hierarchy.locals_effects`: a fragment that stores nothing keeps the initialized locals.
-/

namespace Routecraft.Bytecode

/-- Whether an instruction may stand in a fragment: control goes on behind it, and nowhere else. -/
def Instr.isInner {K : Type} (i : Instr K) : Bool := !(i.target?.isSome || i.endsBlock)

theorem Instr.isInner_of_isStraight {i : Instr Constant} (h : i.isStraight = true) : i.isInner = true := by
  cases i with
  | bare op => cases op <;> first | rfl | cases h
  | jump op label => cases h
  | _ => rfl

/-- Assembling does not change what kind of instruction it is. -/
theorem Instr.Resolves.isInner {pool : Pool} {labels : Array (Option UInt16)} {i : Instr UInt16}
    {i' : Instr Constant} (h : Instr.Resolves pool labels i i') : i.isInner = i'.isInner := by
  cases h with
  | bare op => cases op <;> rfl
  | _ => rfl

namespace Checker

variable {c : Checker} {f g : FrameType} {i : Instr UInt16} {is : List (Instr UInt16)} {k : Nat}

/-! ## Running through a fragment -/

/-- A fragment has the effect of its instructions, each of which may stand in it. -/
theorem run_ok_iff : c.run k f is = .ok g ↔ (∀ i ∈ is, i.isInner = true) ∧ c.afterAll f is = .ok g := by
  induction is generalizing k f with
  | nil =>
      rw [run, afterAll_nil, Except.ok.injEq, Except.ok.injEq]
      exact ⟨fun h => ⟨fun _ hi => absurd hi List.not_mem_nil, h⟩, fun h => h.2⟩
  | cons i is ih =>
      rw [run, List.forall_mem_cons, afterAll_cons, bind_eq_ok]
      unfold Instr.isInner
      rcases i.target?.isSome || i.endsBlock with _ | _
      · rcases hstep : c.step f i with e | ⟨flow, g'⟩
        · simp [after, hstep, Except.map]
        · simp [after, hstep, Except.map, ih, Instr.isInner]
      · simp

/-- What is wrong with the unit stops a fragment, wherever it turns up. -/
theorem run_of_unit {e : UnitError} (his : ∀ i ∈ is, i.isInner = true) (h : c.afterAll f is = .error (.unit e)) :
    c.run k f is = .error e := by
  induction is generalizing k f with
  | nil => cases h
  | cons i is ih =>
      obtain ⟨hi, his⟩ := List.forall_mem_cons.mp his
      have hinner : (i.target?.isSome || i.endsBlock) = false := by simpa [Instr.isInner] using hi
      rw [afterAll_cons] at h
      rw [run, hinner]
      rcases hstep : c.step f i with e' | ⟨flow, g⟩
      · rw [after, hstep] at h
        cases h
        rfl
      · rw [after, hstep] at h
        exact ih his h

/-! ## Constants -/

/-- An instruction with an effect has a constant of the kind that its operation takes. -/
theorem suits_of_after {h : Hierarchy} {result : Option DataType} {pool : Pool} {labels : Array (Option UInt16)}
    {i' : Instr Constant} (hi : Instr.Resolves pool labels i i') (hg : after ⟨pool, h, result⟩ f i = .ok g) :
    i'.suits = true := by
  obtain ⟨flow, hstep⟩ := after_eq_ok.mp hg
  have heffect := hasEffect_of_step hstep
  cases hi with
  | @onConst op k x hk =>
      cases heffect with
      | loadConst hx' hload =>
          obtain rfl := Except.ok.inj (hk.symm.trans hx')
          cases x <;> first | rfl | cases hload
      | getField hm | putField hm | getStatic hm =>
          cases Except.ok.inj (hk.symm.trans (Pool.fieldAt_eq_ok.mp hm))
          rfl
      | newObject hname | newArray hname | checkCast hname =>
          cases Except.ok.inj (hk.symm.trans (Pool.classAt_eq_ok.mp hname))
          rfl
      | invokeVirtual hm | invokeInterface hm | invokeStatic hm | invokeSpecial hm =>
          cases Except.ok.inj (hk.symm.trans (Pool.methodAt_eq_ok.mp hm))
          rfl
  | _ => rfl

theorem suits_of_afterAll {h : Hierarchy} {result : Option DataType} {pool : Pool} {labels : Array (Option UInt16)}
    {is' : List (Instr Constant)} (his : List.Forall₂ (Instr.Resolves pool labels) is is')
    (hg : afterAll ⟨pool, h, result⟩ f is = .ok g) : ∀ i ∈ is', i.suits = true := by
  induction his generalizing f with
  | nil => exact fun _ hi => absurd hi List.not_mem_nil
  | cons hi _ ih =>
      rw [afterAll_cons] at hg
      obtain ⟨g', hg', hg⟩ := bind_eq_ok.mp hg
      exact List.forall_mem_cons.mpr ⟨suits_of_after hi hg', ih hg⟩

end Checker

/-! ## Locals -/

theorem FrameType.locals_constructed {f : FrameType} {name sup : String} {n : Nat}
    (h : f.locals[n]? = some (some (.ref name))) : (f.constructed sup).locals[n]? = some (some (.ref name)) := by
  simp [constructed, h]

theorem Checker.locals_pushResult (f : FrameType) (s : Signature) : (pushResult f s).2.locals = f.locals := by
  unfold pushResult
  split <;> rfl

/-- An instruction that stores nothing keeps the locals that hold initialized objects. -/
theorem Checker.locals_step {c : Checker} {f g : FrameType} {flow : Flow} {i : Instr UInt16} {n : Nat}
    {name : String} (hi : ∀ slot, i ≠ .onLocal .store slot) (h : c.step f i = .ok (flow, g))
    (hlocal : f.locals[n]? = some (some (.ref name))) : g.locals[n]? = some (some (.ref name)) := by
  cases hasEffect_of_step h with
  | store => exact absurd rfl (hi _)
  | invokeVirtual | invokeInterface | invokeStatic => rwa [locals_pushResult]
  | invokeSpecial =>
      rw [locals_pushResult]
      exact FrameType.locals_constructed hlocal
  | _ => exact hlocal

/-- Code that sets no local leaves the class of a reference in a local as it was. -/
theorem Hierarchy.locals_effects {h : Hierarchy} {result : Option DataType} {f g : FrameType} {n : Nat}
    {name : String} {is : List (Instr Constant)} (his : ∀ slot, .store slot ∉ is)
    (hg : h.effects result f is = .ok g) (hlocal : f.locals[n]? = some (some (.ref name))) :
    g.locals[n]? = some (some (.ref name)) := by
  induction is generalizing f with
  | nil =>
      cases hg
      exact hlocal
  | cons i is ih =>
      rw [effects_cons] at hg
      obtain ⟨k, hk, hg⟩ := bind_eq_ok.mp hg
      obtain ⟨flow, hstep⟩ := Checker.after_eq_ok.mp hk
      refine ih (fun slot hslot => his slot (List.mem_cons_of_mem i hslot)) hg ?_
      refine Checker.locals_step (fun slot hslot => his slot ?_) hstep hlocal
      rw [show i = .store slot by
        cases i with
        | onLocal op slot' =>
            cases hslot
            rfl
        | _ => cases hslot]
      exact List.mem_cons_self

/-! ## Assembled fragments -/

section Assembled

variable {a : Assembler} {b b' : Interner} {code : Code} {h : Hierarchy} {locals : List SlotType}
  {st : List SlotType}

/-- The stack that code leaves behind is that of a run through it from front to back. -/
theorem stackEffect_eq_ok {pool : Pool} : stackEffect code pool locals h = .ok st ↔
    ∃ ls, Checker.run ⟨pool, h, none⟩ 0 ⟨[], locals.map some⟩ code.toList = .ok ⟨st, ls⟩ := by
  unfold stackEffect
  rw [bind_eq_ok]
  constructor
  · rintro ⟨f, hf, hst⟩
    cases hst
    exact ⟨f.locals, hf⟩
  · rintro ⟨ls, hls⟩
    exact ⟨_, hls, rfl⟩

/-- **A fragment with an effect** was written down with instructions that have it. -/
theorem effects_of_stackEffect (hcode : a.assemble b = (b', .ok code))
    (hst : stackEffect code b'.pool locals h = .ok st) :
    (∀ i ∈ a.instrs.toList, i.isInner = true ∧ i.suits = true) ∧
      ∃ ls, h.effects none ⟨[], locals.map some⟩ a.instrs.toList = .ok ⟨st, ls⟩ := by
  obtain ⟨-, -, hresolves⟩ := Assembler.assemble_resolves hcode
  obtain ⟨ls, hrun⟩ := stackEffect_eq_ok.mp hst
  obtain ⟨hinner, hafter⟩ := Checker.run_ok_iff.mp hrun
  have hsuits := Checker.suits_of_afterAll hresolves hafter
  refine ⟨fun i hi => ⟨?_, hsuits i hi⟩, ls, (Checker.afterAll_eq_effects hresolves hsuits).symm.trans hafter⟩
  obtain ⟨q, hq⟩ := List.mem_iff_getElem?.mp hi
  obtain ⟨i', hi', hresolved⟩ := Code.resolved_at hresolves hq
  rw [← hresolved.isInner]
  exact hinner i' (List.mem_of_getElem? (by rwa [Array.getElem?_toList]))

/-- **The effect of an assembled fragment** is that of what was written down, and so is what is wrong with it. -/
theorem stackEffect_assemble (hcode : a.assemble b = (b', .ok code))
    (hinner : ∀ i ∈ a.instrs.toList, i.isInner = true ∧ i.suits = true) :
    (∀ f, h.effects none ⟨[], locals.map some⟩ a.instrs.toList = .ok f →
      stackEffect code b'.pool locals h = .ok f.stack) ∧
    ∀ e, h.effects none ⟨[], locals.map some⟩ a.instrs.toList = .error (.unit e) →
      stackEffect code b'.pool locals h = .error e := by
  obtain ⟨-, -, hresolves⟩ := Assembler.assemble_resolves hcode
  have hafter : Checker.afterAll ⟨b'.pool, h, none⟩ ⟨[], locals.map some⟩ code.toList = _ :=
    Checker.afterAll_eq_effects hresolves fun i hi => (hinner i hi).2
  have hinner' : ∀ i ∈ code.toList, i.isInner = true := by
    intro i hi
    obtain ⟨q, hq⟩ := List.mem_iff_getElem?.mp hi
    obtain ⟨i', hi', hresolved⟩ := Code.resolves_at hresolves (by rwa [Array.getElem?_toList] at hq)
    rw [hresolved.isInner]
    exact (hinner i' (List.mem_of_getElem? hi')).1
  constructor
  · intro f hf
    exact stackEffect_eq_ok.mpr ⟨f.locals, Checker.run_ok_iff.mpr ⟨hinner', hafter.trans hf⟩⟩
  · intro e he
    unfold stackEffect
    rw [Checker.run_of_unit hinner' (hafter.trans he)]
    rfl

end Assembled

end Routecraft.Bytecode
