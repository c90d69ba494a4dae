import Routecraft.Proofs.Assembly.Pools
import Routecraft.Proofs.Verification.Effects
import Routecraft.Proofs.Verification.Settling
import Routecraft.Proofs.Verification.Subtyping

/-!
# Accepted code stays accepted

A method is verified when it is added to a unit that is being drafted, and again when the unit is linked. By
then the pool holds more constants and the hierarchy more edges. An instruction that had an effect has the
same one then. Where paths meet, more edges may well change what is inferred; but code where no two paths
meet keeps all its frame types.

* `Checker.step_mono`: the effects of instructions stay.
* `Code.SingleEntry`: every instruction is reached from at most one other, and only once.
* `Inference.Fresh.flows`: what the rounds of such code keep.
* `Checker.settle_transfer`: the rounds of such code go the same way.
* `inferWithin_transfer`: what is inferred for it stays.
-/

namespace Routecraft.Bytecode

/-! ## Effects stay -/

/-- A checker that knows more: constants that are added to the pool, and edges to the hierarchy. -/
structure Checker.Knows (c c' : Checker) : Prop where
  pool : c.pool.Extends c'.pool
  edges : ∀ e ∈ c.hierarchy.edges, e ∈ c'.hierarchy.edges
  result : c'.result = c.result

namespace Checker

variable {c c' : Checker} {f g : FrameType} {flow : Flow} {i : Instr UInt16}

/-- What a checker knows of effects, one that knows more does. -/
theorem HasEffect.mono (hc : c.Knows c') (h : c.HasEffect f i flow g) : c'.HasEffect f i flow g := by
  have accepts : ∀ {type x}, c.hierarchy.accepts type x → c'.hierarchy.accepts type x :=
    Hierarchy.accepts_mono hc.edges
  have acceptsAll : ∀ {types xs}, List.Forall₂ (fun type x => c.hierarchy.accepts type x) types xs →
      List.Forall₂ (fun type x => c'.hierarchy.accepts type x) types xs := fun h => h.imp fun _ _ => accepts
  cases h with
  | pushNull => exact .pushNull
  | dup => exact .dup
  | pop => exact .pop
  | swap => exact .swap
  | arrayStore hvalue hindex hbracket htype hitem =>
      exact .arrayStore hvalue (accepts hindex) hbracket htype (accepts hitem)
  | returnVoid hresult => exact .returnVoid (hc.result.trans hresult)
  | returnValue hresult hx => exact .returnValue (hc.result.trans hresult) (accepts hx)
  | load hx => exact .load hx
  | store => exact .store
  | pushInt => exact .pushInt
  | loadConst hconstant hx => exact .loadConst (hc.pool.get hconstant) hx
  | getField hm htype htarget => exact .getField (hc.pool.fieldAt hm) htype (accepts htarget)
  | putField hm htype hvalue htarget => exact .putField (hc.pool.fieldAt hm) htype (accepts hvalue) (accepts htarget)
  | getStatic hm htype => exact .getStatic (hc.pool.fieldAt hm) htype
  | invokeVirtual hm hsignature hargs hreceiver =>
      exact .invokeVirtual (hc.pool.methodAt hm) hsignature (acceptsAll hargs) (accepts hreceiver)
  | invokeInterface hm hsignature hargs hreceiver =>
      exact .invokeInterface (hc.pool.methodAt hm) hsignature (acceptsAll hargs) (accepts hreceiver)
  | invokeStatic hm hsignature hargs => exact .invokeStatic (hc.pool.methodAt hm) hsignature (acceptsAll hargs)
  | invokeSpecial hm hsignature hname hargs =>
      exact .invokeSpecial (hc.pool.methodAt hm) hsignature hname (acceptsAll hargs)
  | newObject hname => exact .newObject (hc.pool.classAt hname)
  | newArray hname helement hsize => exact .newArray (hc.pool.classAt hname) helement (accepts hsize)
  | checkCast hname hx => exact .checkCast (hc.pool.classAt hname) hx
  | ifFalse hx => exact .ifFalse (accepts hx)
  | goto => exact .goto

/-- **An instruction that has an effect keeps it** when more is known. -/
theorem step_mono (hc : c.Knows c') (h : c.step f i = .ok (flow, g)) : c'.step f i = .ok (flow, g) :=
  ((hasEffect_of_step h).mono hc).step

end Checker

/-! ## Code where no paths meet -/

/-- The places that control may go to after the instruction at `index`. -/
def Instr.targets (index : Nat) : Instr UInt16 → List Nat
  | .bare .returnVoid => []
  | .bare .returnValue => []
  | .jump .ifFalse target => [index + 1, target.toNat]
  | .jump .goto target => [target.toNat]
  | _ => [index + 1]

/-- A step goes on at the targets of its instruction. -/
theorem Checker.targets_of_step {c : Checker} {f g : FrameType} {flow : Flow} {i : Instr UInt16}
    {index : Nat} (h : c.step f i = .ok (flow, g)) : flow.targets index = i.targets index := by
  cases hasEffect_of_step h <;> rfl

/-- Control comes to each instruction from at most one other and in only one way, and to the first one from
none. -/
structure Code.SingleEntry (code : Code) : Prop where
  first : ∀ {q : Nat} {i : Instr UInt16}, code[q]? = some i → 0 ∉ i.targets q
  once : ∀ {q q' t : Nat} {i i' : Instr UInt16}, code[q]? = some i → code[q']? = some i' →
    t ∈ i.targets q → t ∈ i'.targets q' → q = q'
  nodup : ∀ {q : Nat} {i : Instr UInt16}, code[q]? = some i → (i.targets q).Nodup

/-- The invariant of the rounds of such code: each instruction is on the queue at most once and after it was
reached, control comes from reached instructions only, and from those on the queue nothing has been led on
yet. -/
structure Inference.Fresh (code : Code) (i : Inference) : Prop where
  nodup : i.queue.Nodup
  reached : ∀ {q}, q ∈ i.queue → ∃ f, i.at? q = some f
  source : ∀ {q t : Nat} {instr : Instr UInt16} {f : FrameType},
    code[q]? = some instr → t ∈ instr.targets q → i.at? t = some f →
    ∃ f', i.at? q = some f'
  ahead : ∀ {q t : Nat} {instr : Instr UInt16},
    q ∈ i.queue → code[q]? = some instr → t ∈ instr.targets q → i.at? t = none

namespace Inference.Fresh

variable {code : Code} {i j : Inference} {index : Nat} {instr : Instr UInt16}

/-- What was reached is no target of an instruction on the queue. -/
theorem notMem_targets (hi : i.Fresh code) (hindex : index ∈ i.queue) (hinstr : code[index]? = some instr) {q : Nat}
    {f : FrameType} (hq : i.at? q = some f) : q ∉ instr.targets index := by
  intro ht
  rw [hi.ahead hindex hinstr ht] at hq
  cases hq

/-- The first instruction of the queue leads control to its targets, which are reached and queue up. -/
theorem flows (hcode : code.SingleEntry) {queue : List Nat} {g : FrameType} (hi : i.Fresh code)
    (hqueue : i.queue = index :: queue) (hinstr : code[index]? = some instr)
    (hnext : j.queue = queue ++ instr.targets index)
    (hat : ∀ q, j.at? q = if q ∈ instr.targets index then some g else i.at? q) : j.Fresh code := by
  obtain ⟨hnotin, hnodup⟩ := List.nodup_cons.mp (hqueue ▸ hi.nodup)
  have hindex : index ∈ i.queue := hqueue ▸ List.mem_cons_self
  have hmem : ∀ {q}, q ∈ queue → q ∈ i.queue := fun hq => hqueue ▸ List.mem_cons_of_mem _ hq
  have hreached : ∀ {q f}, i.at? q = some f → q ∉ instr.targets index := hi.notMem_targets hindex hinstr
  obtain ⟨f, hf⟩ := hi.reached hindex
  refine ⟨?_, ?_, ?_, ?_⟩
  · rw [hnext, List.nodup_append]
    refine ⟨hnodup, hcode.nodup hinstr, ?_⟩
    rintro q hq _ ht rfl
    obtain ⟨f', hf'⟩ := hi.reached (hmem hq)
    exact hreached hf' ht
  · intro q hq
    rw [hat]
    split
    · exact ⟨g, rfl⟩
    · next hnot =>
      rw [hnext] at hq
      rcases List.mem_append.mp hq with hq | hq
      · exact hi.reached (hmem hq)
      · exact absurd hq hnot
  · intro q t instr' f' hinstr' ht hf'
    rw [hat]
    split
    · exact ⟨g, rfl⟩
    · rw [hat] at hf'
      split at hf'
      · next htarget =>
        -- The only instruction that leads to a target of this one is itself.
        obtain rfl := hcode.once hinstr' hinstr ht htarget
        exact ⟨f, hf⟩
      · exact hi.source hinstr' ht hf'
  · intro q t instr' hq hinstr' ht
    rw [hnext] at hq
    have hnot : t ∉ instr.targets index := by
      intro htarget
      obtain rfl := hcode.once hinstr' hinstr ht htarget
      rcases List.mem_append.mp hq with hq | hq
      · exact hnotin hq
      · exact hreached hf hq
    rw [hat, if_neg hnot]
    rcases List.mem_append.mp hq with hq | hq
    · exact hi.ahead (hmem hq) hinstr' ht
    · -- The place was not reached before, so nothing behind it was.
      rcases hnone : i.at? t with _ | f'
      · rfl
      · obtain ⟨f'', hf''⟩ := hi.source hinstr' ht hnone
        exact absurd hq (hreached hf'')

end Inference.Fresh

namespace Checker

open Inference

variable {c c' : Checker} {code : Code} {i j : Inference} {g : FrameType}

/-- Control that comes to a place for the first time takes its frame type there, whatever the hierarchy. -/
theorem flowTo_fresh (c' : Checker) {target : Nat} (h : c.flowTo i g target = .ok j) (hnone : i.at? target = none) :
    c'.flowTo i g target = .ok j ∧ j.queue = i.queue ++ [target] ∧
      ∀ q, j.at? q = if q = target then some g else i.at? q := by
  obtain ⟨hlt, -⟩ := flowTo_eq_ok h
  rw [flowTo_of_none hlt hnone] at h
  cases h
  exact ⟨flowTo_of_none hlt hnone, rfl, at?_put hlt g⟩

/-- Flows to places without a frame go through in any checker. -/
theorem flowToAll_fresh (c' : Checker) {targets : List Nat} (h : c.flowToAll i g targets = .ok j)
    (hnodup : targets.Nodup) (hnone : ∀ t ∈ targets, i.at? t = none) :
    c'.flowToAll i g targets = .ok j ∧ j.queue = i.queue ++ targets ∧
      ∀ q, j.at? q = if q ∈ targets then some g else i.at? q := by
  induction targets generalizing i with
  | nil =>
      cases h
      exact ⟨rfl, by simp, by simp⟩
  | cons target targets ih =>
      obtain ⟨hnotin, hnodup⟩ := List.nodup_cons.mp hnodup
      obtain ⟨i', hi', h⟩ := flowToAll_cons_eq_ok.mp h
      obtain ⟨hflow, hqueue, hat⟩ := flowTo_fresh c' hi' (hnone target List.mem_cons_self)
      obtain ⟨hall, hqueue', hat'⟩ := ih h hnodup fun t ht => by
        rw [hat, if_neg (fun heq : t = target => hnotin (heq ▸ ht))]
        exact hnone t (List.mem_cons_of_mem _ ht)
      refine ⟨flowToAll_cons_eq_ok.mpr ⟨i', hflow, hall⟩, ?_, ?_⟩
      · rw [hqueue', hqueue, List.append_assoc]
        rfl
      · intro q
        rw [hat', hat]
        by_cases hq : q = target
        · subst hq
          simp [hnotin]
        · simp [hq]

/-- What a round makes of a fresh inference is fresh again, and the same for a checker that knows more. -/
theorem round_fresh (hc : c.Knows c') (hcode : code.SingleEntry) {index : Nat} {queue : List Nat}
    (hi : i.Fresh code) (hqueue : i.queue = index :: queue)
    (h : c.round code ⟨i.frames, queue, i.maxStack, i.maxLocals⟩ index = .ok j) :
    c'.round code ⟨i.frames, queue, i.maxStack, i.maxLocals⟩ index = .ok j ∧ j.Fresh code := by
  have hmem : ∀ {q}, q ∈ queue → q ∈ i.queue := fun hq => hqueue ▸ List.mem_cons_of_mem _ hq
  rcases round_eq_ok.mp h with ⟨hidle, rfl⟩ | ⟨instr, f, flow, g, hinstr, hf, hstep, hflow⟩
  · have hnodup : queue.Nodup := (List.nodup_cons.mp (hqueue ▸ hi.nodup)).2
    exact ⟨round_eq_ok.mpr (.inl ⟨hidle, rfl⟩), hnodup, fun hq => hi.reached (hmem hq), hi.source,
      fun hq => hi.ahead (hmem hq)⟩
  · have hindex : index ∈ i.queue := hqueue ▸ List.mem_cons_self
    rw [targets_of_step hstep] at hflow
    obtain ⟨hall, hnext, hat⟩ :=
      flowToAll_fresh c' hflow (hcode.nodup hinstr) fun t ht => hi.ahead hindex hinstr ht
    rw [← targets_of_step hstep] at hall
    exact ⟨round_eq_ok.mpr (.inr ⟨instr, f, flow, g, hinstr, hf, step_mono hc hstep, hall⟩),
      hi.flows hcode hqueue hinstr hnext hat⟩

/-- **The rounds go the same way** for a checker that knows more. -/
theorem settle_transfer (hc : c.Knows c') (hcode : code.SingleEntry) {method : String} {rounds : Nat}
    (hi : i.Fresh code) (h : c.settle method code rounds i = .ok j) :
    c'.settle method code rounds i = .ok j := by
  induction rounds generalizing i with
  | zero => exact settle_zero_eq_ok.mpr (settle_zero_eq_ok.mp h)
  | succ rounds ih =>
      rcases settle_succ_eq_ok.mp h with hdone | ⟨index, queue, k, hqueue, hround, h⟩
      · exact settle_succ_eq_ok.mpr (.inl hdone)
      · obtain ⟨hround', hk⟩ := round_fresh hc hcode hi hqueue hround
        exact settle_succ_eq_ok.mpr (.inr ⟨index, queue, k, hqueue, hround', ih hk h⟩)

/-- More rounds than needed change nothing. -/
theorem settle_more {method : String} {rounds rounds' : Nat} (hle : rounds ≤ rounds')
    (h : c.settle method code rounds i = .ok j) : c.settle method code rounds' i = .ok j := by
  induction rounds generalizing i rounds' with
  | zero =>
      have hdone := settle_zero_eq_ok.mp h
      cases rounds' with
      | zero => exact h
      | succ => exact settle_succ_eq_ok.mpr (.inl hdone)
  | succ rounds ih =>
      obtain ⟨more, rfl⟩ := Nat.exists_eq_add_of_le' hle
      refine settle_succ_eq_ok.mpr ((settle_succ_eq_ok.mp h).imp_right ?_)
      rintro ⟨index, queue, k, hqueue, hround, h⟩
      exact ⟨index, queue, k, hqueue, hround, ih (Nat.le_add_left rounds more) h⟩

end Checker

/-- **What is inferred for code where no paths meet stays** when constants, edges and rounds are added. -/
theorem inferWithin_transfer {owner name : String} {s : Signature} {code : Code} {pool pool' : Pool}
    {h h' : Hierarchy} {rounds rounds' : Nat} {i : Inference} (hpool : pool.Extends pool')
    (hedges : ∀ e ∈ h.edges, e ∈ h'.edges) (hrounds : rounds ≤ rounds') (hcode : code.SingleEntry)
    (hinfer : inferWithin rounds owner name s code pool h = .ok i) :
    inferWithin rounds' owner name s code pool' h' = .ok i := by
  rw [inferWithin] at hinfer ⊢
  split at hinfer
  · simp at hinfer
  · next hne =>
    rw [if_neg hne]
    obtain ⟨j, hsettle, hreached⟩ := bind_eq_ok.mp hinfer
    have hknows : Checker.Knows ⟨pool, h, s.result⟩ ⟨pool', h', s.result⟩ := ⟨hpool, hedges, rfl⟩
    have hstart : (Inference.start owner s.params code).Fresh code := by
      have hat : ∀ {t f}, (Inference.start owner s.params code).at? t = some f → t = 0 := by
        intro t f ht
        rcases t with _ | t
        · rfl
        · by_cases hlt : t + 1 < code.size <;> simp [Inference.at?, Inference.start, hlt] at ht
      have hsize : 0 < code.size := Array.size_pos_iff.mpr (by simpa using hne)
      refine ⟨by simp [Inference.start], ?_, ?_, ?_⟩
      · intro q hq
        rw [List.mem_singleton.mp hq]
        exact ⟨_, by simp [Inference.at?, Inference.start, hsize]; rfl⟩
      · intro q t instr f hinstr ht hf
        rw [hat hf] at ht
        exact absurd ht (hcode.first hinstr)
      · intro q t instr hq hinstr ht
        rcases hnone : (Inference.start owner s.params code).at? t with _ | f
        · rfl
        · rw [hat hnone] at ht
          exact absurd ht (hcode.first hinstr)
    refine bind_eq_ok.mpr ⟨j, ?_, hreached⟩
    exact Checker.settle_more hrounds (Checker.settle_transfer hknows hcode hstart hsettle)

end Routecraft.Bytecode
