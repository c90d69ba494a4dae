import Mathlib.Order.Bounds.Basic
import Routecraft.Proofs.Assembly.Fragments

/-!
# Fragments as methods

There are two ways to check code without jumps. As a fragment it is run through once, from front to back. As the body
of a method, with a return behind it, it goes through the rounds of the checker, which keep a frame type for each
instruction, join and queue. As no two paths meet, the rounds come to each instruction once, with the frame type that
the run has there. So the verdicts are the same, and the depth of stack that the method needs is that of the deepest
stack in the run. The result that the method is declared to have makes a difference to the return only.

* `Checker.afterAll_result`: fragments do not depend on the declared result.
* `Code.inOrder_push`: a fragment with a return behind it is run through in order.
* `Checker.after_returnVoid`, `Checker.after_returnValue`: what is left to be asked of the return.
* `verifiers_agree`: **the two ways agree.**
-/

namespace Routecraft.Bytecode

variable {pool : Pool} {h : Hierarchy} {code : Code} {result : Option DataType} {f g : FrameType}

/-! ## Fragments -/

/-- An inner instruction is followed by the next one. -/
theorem Instr.targets_of_isInner {i : Instr UInt16} (hi : i.isInner = true) (q : Nat) : i.targets q = [q + 1] := by
  cases i with
  | bare op => cases op <;> first | rfl | cases hi
  | jump op target => cases hi
  | _ => rfl

namespace Checker

/-- An instruction of a fragment does not depend on the result that is declared. -/
theorem after_result (result result' : Option DataType) {i : Instr UInt16} (hi : i.isInner = true) :
    after ⟨pool, h, result⟩ f i = after ⟨pool, h, result'⟩ f i := by
  cases i with
  | bare op => cases op <;> first | rfl | cases hi
  | onConst op k => cases op <;> rfl
  | jump op target => cases hi
  | _ => rfl

/-- Inner instructions do not depend on the result type. -/
theorem afterAll_result (result result' : Option DataType) {is : List (Instr UInt16)}
    (his : ∀ i ∈ is, i.isInner = true) : afterAll ⟨pool, h, result⟩ f is = afterAll ⟨pool, h, result'⟩ f is := by
  induction is generalizing f with
  | nil => rfl
  | cons i is ih =>
      obtain ⟨hi, his⟩ := List.forall_mem_cons.mp his
      rw [afterAll_cons, afterAll_cons, after_result result result' hi]
      congr 1
      funext g
      exact ih his

/-! ## Returns -/

/-- A method without a result may return. -/
theorem after_returnVoid : after ⟨pool, h, none⟩ f (.bare .returnVoid) = .ok f := rfl

/-- A value is returned if the topmost slot is accepted for the declared result. -/
theorem after_returnValue {type : DataType} : after ⟨pool, h, some type⟩ f (.bare .returnValue) = .ok g ↔
    ∃ t, h.accepts type t ∧ f = ⟨t :: g.stack, g.locals⟩ := by
  show (f.popAccepted h type >>= fun f => Except.ok (Flow.exit, f)).map (·.2) = .ok g ↔ _
  rw [← FrameType.popAccepted_eq_ok]
  cases f.popAccepted h type with
  | error e => simp [Except.map, bind, Except.bind]
  | ok k => simp [Except.map, bind, Except.bind]

end Checker

/-- The return of a method that is declared to have a result, or of one without. -/
def returnOf : Option DataType → BareOp
  | none => .returnVoid
  | some _ => .returnValue

/-- A return leaves no deeper stack than there was. -/
theorem Checker.depth_return (hg : after ⟨pool, h, result⟩ f (.bare (returnOf result)) = .ok g) :
    g.stack.length ≤ f.stack.length := by
  cases result with
  | none =>
      cases hg
      exact Nat.le_refl _
  | some type =>
      obtain ⟨t, -, rfl⟩ := after_returnValue.mp hg
      exact Nat.le_succ _

/-- A fragment with a return behind it is run through in order. -/
theorem Code.inOrder_push {c : Checker} {start : FrameType} (hcode : ∀ i ∈ code, i.isInner = true)
    (result : Option DataType) : Code.InOrder c start (code.push (.bare (returnOf result))) := by
  apply Code.inOrder_of_line
  · simp
  · intro q i hi
    rw [Array.getElem?_push] at hi
    split at hi
    · next heq =>
      cases hi
      rw [heq, Array.size_push, if_neg (Nat.lt_irrefl _)]
      cases result <;> rfl
    · have hq : q < code.size := (Array.getElem?_eq_some_iff.mp hi).1
      rw [Array.size_push, if_pos (by omega)]
      exact Instr.targets_of_isInner (hcode i (Array.mem_of_getElem? hi)) q

/-! ## Both ways -/

/-- The locals that a method starts with, all of which are set. -/
def entryLocals (owner : String) (params : List DataType) : List SlotType := .ref owner :: params.map SlotType.of

theorem entry_eq (owner : String) (params : List DataType) :
    FrameType.entry owner params = ⟨[], (entryLocals owner params).map some⟩ := by
  simp [FrameType.entry, entryLocals]

/-- What a fragment leaves is what the checker of a method finds of it. -/
theorem stackEffect_eq_ok_iff (hcode : ∀ i ∈ code, i.isInner = true) (owner : String) (params : List DataType)
    (result : Option DataType) {stack : List SlotType} :
    stackEffect code pool (entryLocals owner params) h = .ok stack ↔
      ∃ g, Checker.afterAll ⟨pool, h, result⟩ (.entry owner params) code.toList = .ok g ∧ g.stack = stack := by
  have hinner : ∀ i ∈ code.toList, i.isInner = true := fun i hi => hcode i (Array.mem_toList_iff.mp hi)
  rw [stackEffect_eq_ok, entry_eq]
  simp only [Checker.run_ok_iff, Checker.afterAll_result none result hinner]
  constructor
  · rintro ⟨ls, -, hg⟩
    exact ⟨_, hg, rfl⟩
  · rintro ⟨g, hg, rfl⟩
    exact ⟨g.locals, hinner, hg⟩

/-- So it is with what a front of a fragment leaves. -/
theorem stackEffect_take_eq_ok (hcode : ∀ i ∈ code, i.isInner = true) (owner : String) (params : List DataType)
    (result : Option DataType) (n : Nat) {stack : List SlotType} :
    stackEffect (code.take n) pool (entryLocals owner params) h = .ok stack ↔
      ∃ g, Checker.afterAll ⟨pool, h, result⟩ (.entry owner params) (code.toList.take n) = .ok g ∧
        g.stack = stack := by
  have hlist : (code.take n).toList = code.toList.take n := by simp
  have hinner : ∀ i ∈ code.take n, i.isInner = true := by
    intro i hi
    rw [← Array.mem_toList_iff, hlist] at hi
    exact hcode i (Array.mem_toList_iff.mp (List.mem_of_mem_take hi))
  rw [stackEffect_eq_ok_iff hinner owner params result, hlist]

section

variable {owner name : String} {params : List DataType}

/-- The verdict on a method that consists of a fragment and a return: the run through the fragment succeeds, and then
the return does. -/
theorem verifyMethod_push (name : String) (result : Option DataType) (hcode : ∀ i ∈ code, i.isInner = true)
    (hsize : code.size < 65535) (hparams : params.length < 65535) :
    (∃ frame, verifyMethod owner name ⟨params, result⟩ (code.push (.bare (returnOf result))) pool h = .ok frame) ↔
      ∃ f g, Checker.afterAll ⟨pool, h, result⟩ (.entry owner params) code.toList = .ok f ∧
        Checker.after ⟨pool, h, result⟩ f (.bare (returnOf result)) = .ok g := by
  rw [verifyMethod_inOrder name (Code.inOrder_push hcode result) (by rw [Array.size_push]; omega) hparams,
    Array.toList_push, Checker.afterAll_append]
  simp only [bind_eq_ok, Checker.afterAll_cons, Checker.afterAll_nil, Except.ok.injEq]
  constructor
  · rintro ⟨g, f, hf, _, hg, rfl⟩
    exact ⟨f, _, hf, hg⟩
  · rintro ⟨f, g, hf, hg⟩
    exact ⟨g, f, hf, g, hg, rfl⟩

/-- The depth of stack that such a method needs is that of the deepest stack that a front of the fragment leaves. -/
theorem maxStack_push {frame : Frame} (hcode : ∀ i ∈ code, i.isInner = true) (hsize : code.size < 65535)
    (hparams : params.length < 65535)
    (hframe : verifyMethod owner name ⟨params, result⟩ (code.push (.bare (returnOf result))) pool h = .ok frame) :
    IsGreatest {depth | ∃ n stack, n ≤ code.size ∧
      stackEffect (code.take n) pool (entryLocals owner params) h = .ok stack ∧ stack.length = depth}
      frame.maxStack.toNat := by
  obtain ⟨f, g, hf, hg⟩ := (verifyMethod_push name result hcode hsize hparams).mp ⟨frame, hframe⟩
  have hfull : Checker.afterAll ⟨pool, h, result⟩ (.entry owner params)
      (code.push (.bare (returnOf result))).toList = .ok g := by
    rw [Array.toList_push, Checker.afterAll_append, hf, ok_bind, Checker.afterAll_cons, hg]
    rfl
  obtain ⟨⟨q, k, hq, hdepth, hk⟩, hgreatest⟩ := maxStack_inOrder (Code.inOrder_push hcode result) hframe hfull
  have htake {n : Nat} (hn : n ≤ code.size) :
      (code.push (.bare (returnOf result))).toList.take n = code.toList.take n := by
    rw [Array.toList_push, List.take_append_of_le_length (by simpa using hn)]
  -- A front of the fragment is one of the method, and no deeper than the deepest of these.
  have hupper : frame.maxStack.toNat ∈ upperBounds {depth | ∃ n stack, n ≤ code.size ∧
      stackEffect (code.take n) pool (entryLocals owner params) h = .ok stack ∧ stack.length = depth} := by
    rintro depth ⟨n, stack, hn, hstack, rfl⟩
    obtain ⟨k, hk, rfl⟩ := (stackEffect_take_eq_ok hcode owner params result n).mp hstack
    cases n with
    | zero =>
        cases hk
        exact Nat.zero_le _
    | succ n =>
        exact hgreatest (Checker.mem_depths.mpr ⟨n, k, by rw [Array.size_push]; omega, rfl, by rw [htake hn]; exact hk⟩)
  refine ⟨?_, hupper⟩
  rcases Nat.lt_or_ge q code.size with hlt | hge
  · rw [htake hlt] at hk
    exact ⟨q + 1, k.stack, hlt, (stackEffect_take_eq_ok hcode owner params result _).mpr ⟨k, hk, rfl⟩, hdepth⟩
  · -- The deepest stack is the one behind the return, and the one in front of it is no less deep.
    rw [List.take_of_length_le (by rw [Array.length_toList, Array.size_push]; omega), hfull] at hk
    cases hk
    have hrun : stackEffect (code.take code.size) pool (entryLocals owner params) h = .ok f.stack :=
      (stackEffect_take_eq_ok hcode owner params result _).mpr
        ⟨f, by rw [List.take_of_length_le (by simp)]; exact hf, rfl⟩
    refine ⟨code.size, f.stack, Nat.le_refl _, hrun, Nat.le_antisymm ?_ ?_⟩
    · exact hupper ⟨code.size, f.stack, Nat.le_refl _, hrun, rfl⟩
    · rw [← hdepth]
      exact Checker.depth_return hg

end

/-- **The two ways to check a fragment agree.** For code without jumps and returns: a method that consists of it and
ends without a result is accepted exactly if the fragment is, with the receiver and the parameters as its locals; one
that returns a value is accepted exactly if the fragment leaves a stack whose topmost slot is accepted for the result;
and the depth of stack that the method is said to need is the largest one that a front of the fragment leaves. -/
theorem verifiers_agree {code : Code} (hcode : ∀ i ∈ code, i.isInner = true) (hsize : code.size < 65535)
    {params : List DataType} (hparams : params.length < 65535) (owner name : String) (pool : Pool) (h : Hierarchy) :
    ((∃ frame, verifyMethod owner name ⟨params, none⟩ (code.push (.bare .returnVoid)) pool h = .ok frame) ↔
      ∃ stack, stackEffect code pool (entryLocals owner params) h = .ok stack) ∧
    (∀ type, (∃ frame, verifyMethod owner name ⟨params, some type⟩ (code.push (.bare .returnValue)) pool h =
        .ok frame) ↔
      ∃ top stack, stackEffect code pool (entryLocals owner params) h = .ok (top :: stack) ∧
        h.accepts type top = true) ∧
    ∀ result frame,
      verifyMethod owner name ⟨params, result⟩ (code.push (.bare (returnOf result))) pool h = .ok frame →
        IsGreatest {depth | ∃ n stack, n ≤ code.size ∧
          stackEffect (code.take n) pool (entryLocals owner params) h = .ok stack ∧ stack.length = depth}
          frame.maxStack.toNat := by
  refine ⟨?_, ?_, fun result frame => maxStack_push hcode hsize hparams⟩
  · refine Iff.trans (verifyMethod_push name none hcode hsize hparams) ?_
    simp only [stackEffect_eq_ok_iff hcode owner params none]
    constructor
    · rintro ⟨f, -, hf, -⟩
      exact ⟨f.stack, f, hf, rfl⟩
    · rintro ⟨-, f, hf, -⟩
      exact ⟨f, f, hf, Checker.after_returnVoid⟩
  · intro type
    refine Iff.trans (verifyMethod_push name (some type) hcode hsize hparams) ?_
    simp only [stackEffect_eq_ok_iff hcode owner params (some type)]
    constructor
    · rintro ⟨f, g, hf, hg⟩
      obtain ⟨top, haccepts, rfl⟩ := Checker.after_returnValue.mp hg
      exact ⟨top, g.stack, ⟨_, hf, rfl⟩, haccepts⟩
    · rintro ⟨top, stack, ⟨f, hf, hstack⟩, haccepts⟩
      refine ⟨f, ⟨stack, f.locals⟩, hf, Checker.after_returnValue.mpr ⟨top, haccepts, ?_⟩⟩
      rw [← hstack]

/-- A fragment that keeps a number in a local and leaves null. -/
def keepNumber : Code :=
  #[.pushInt 1, .pushInt 2, .bare .pop, .onLocal .store 2, .bare .pushNull]

theorem verifiers_agree_keepNumber :
    (∀ i ∈ keepNumber, i.isInner = true) ∧ keepNumber.size < 65535 ∧ ([.int] : List DataType).length < 65535 ∧
      stackEffect keepNumber .empty (entryLocals "gen.H" [.int]) .empty = .ok [.null] ∧
      (∃ frame, verifyMethod "gen.H" "m" ⟨[.int], none⟩ (keepNumber.push (.bare .returnVoid)) .empty .empty =
        .ok frame) ∧
      (¬∃ frame, verifyMethod "gen.H" "m" ⟨[.int], some .int⟩ (keepNumber.push (.bare .returnValue)) .empty .empty =
        .ok frame) ∧
      ∃ frame, verifyMethod "gen.H" "m" ⟨[.int], some (.object "lang.String")⟩
        (keepNumber.push (.bare .returnValue)) .empty .empty = .ok frame ∧ frame.maxStack = 2 := by
  have hinner : ∀ i ∈ keepNumber, i.isInner = true := by decide
  have hrun : stackEffect keepNumber .empty (entryLocals "gen.H" [.int]) .empty = .ok [.null] := rfl
  have hparams : ([.int] : List DataType).length < 65535 := by decide
  obtain ⟨hvoid, hvalue, hdepth⟩ := verifiers_agree hinner (by decide) hparams "gen.H" "m" .empty .empty
  refine ⟨hinner, by decide, hparams, hrun, hvoid.mpr ⟨_, hrun⟩, ?_, ?_⟩
  · intro haccepted
    obtain ⟨top, stack, hstack, haccepts⟩ := (hvalue .int).mp haccepted
    rw [hrun] at hstack
    cases hstack
    cases haccepts
  · obtain ⟨frame, hframe⟩ := (hvalue (.object "lang.String")).mpr ⟨.null, [], hrun, rfl⟩
    obtain ⟨⟨n, stack, hn, hstack, hlength⟩, hgreatest⟩ := hdepth _ frame hframe
    refine ⟨frame, hframe, ?_⟩
    have hle : 2 ≤ frame.maxStack.toNat := hgreatest ⟨2, [.int, .int], by decide, rfl, rfl⟩
    have hfronts : ∀ n < 6, (stackEffect (keepNumber.take n) .empty (entryLocals "gen.H" [.int])
        .empty).toOption.all (·.length ≤ 2) = true := by decide
    have hge := hfronts n (Nat.lt_succ_of_le hn)
    rw [hstack] at hge
    have hge : stack.length ≤ 2 := of_decide_eq_true hge
    apply UInt16.toNat_inj.mp
    exact Nat.le_antisymm (hlength ▸ hge) hle

end Routecraft.Bytecode
