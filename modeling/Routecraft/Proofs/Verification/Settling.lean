import Routecraft.Bytecode.Verify
import Routecraft.Proofs.Outcome

/-!
# What the checker has inferred is stable

The checker stops when its queue is empty. Then no instruction's effect has anything to add to the frame
types that were inferred: whatever an instruction makes of its own frame type is below the frame types of
all the places that control may go to. What "below" means is left open: any order will do in which the
frame type where two paths meet is above those that led there.

* `JoinOrder`: such an order.
* `Inference.Settled`: one instruction has nothing to add.
* `Inference.Settles`: the invariant of the rounds: an instruction is settled or on the queue.
* `Checker.flowTo_eq_ok`, `Checker.round_eq_ok`, `Checker.settle_succ_eq_ok`: what the checker does, step by step.
* `Checker.settle_settles`: the rounds keep the invariant, and end with an empty queue.
* `CodeUnit.infer_stable`: what is inferred for an accepted method.
-/

namespace Routecraft.Bytecode

/-- An order of frame types, the upper one first, in which a join is above both of its sides. -/
structure JoinOrder (h : Hierarchy) (R : FrameType → FrameType → Prop) : Prop where
  refl : ∀ f, R f f
  trans : ∀ {f g k}, R f g → R g k → R f k
  join : ∀ {f g k}, f.join h g = some k → R k f ∧ R k g

/-- Two orders at once. -/
theorem JoinOrder.and {h : Hierarchy} {R S : FrameType → FrameType → Prop} (hR : JoinOrder h R) (hS : JoinOrder h S) :
    JoinOrder h fun k t => R k t ∧ S k t where
  refl f := ⟨hR.refl f, hS.refl f⟩
  trans hfg hgk := ⟨hR.trans hfg.1 hgk.1, hS.trans hfg.2 hgk.2⟩
  join hk := ⟨⟨(hR.join hk).1, (hS.join hk).1⟩, (hR.join hk).2, (hS.join hk).2⟩

/-- The frame type of an instruction, if it was reached. -/
def Inference.at? (i : Inference) (index : Nat) : Option FrameType := i.frames.getD index none

namespace Inference

variable {c : Checker} {code : Code} {R : FrameType → FrameType → Prop} {i j k : Inference}
  {index : Nat} {f g : FrameType}

/-- Where a frame is, there is an instruction. -/
theorem lt_size_of_at? (h : i.at? index = some f) : index < i.frames.size := by
  refine Nat.lt_of_not_le fun hge => ?_
  simp [at?, hge] at h

/-! ## Single changes -/

/-- A place takes a frame type, and its instruction is put on the queue. -/
def put (i : Inference) (target : Nat) (f : FrameType) : Inference :=
  ⟨i.frames.setIfInBounds target (some f), i.queue ++ [target], i.maxStack, i.maxLocals⟩

@[simp] theorem size_put (i : Inference) (target : Nat) (f : FrameType) :
    (i.put target f).frames.size = i.frames.size := Array.size_setIfInBounds

@[simp] theorem queue_put (i : Inference) (target : Nat) (f : FrameType) :
    (i.put target f).queue = i.queue ++ [target] := rfl

/-- Only the frame at the target is changed. -/
theorem at?_put {target : Nat} (hlt : target < i.frames.size) (f : FrameType) (index : Nat) :
    (i.put target f).at? index = if index = target then some f else i.at? index := by
  by_cases hindex : index = target
  · subst hindex
    simp [at?, put, hlt]
  · simp [at?, put, hindex, Ne.symm hindex]

/-- The bounds of the frames take in a frame type as well. -/
def stretch (i : Inference) (g : FrameType) : Inference :=
  ⟨i.frames, i.queue, max i.maxStack g.stack.length, max i.maxLocals g.locals.length⟩

/-! ## Growth -/

/-- What may become of an inference: frame types rise, those that change are put on the queue, and nothing
is taken off it. -/
structure Grows (R : FrameType → FrameType → Prop) (i j : Inference) : Prop where
  size : j.frames.size = i.frames.size
  kept : ∀ {index f}, i.at? index = some f → ∃ g, j.at? index = some g ∧ R g f
  queued : ∀ {index g}, j.at? index = some g → i.at? index = some g ∨ index ∈ j.queue
  pending : ∀ {index}, index ∈ i.queue → index ∈ j.queue
  stack : i.maxStack ≤ j.maxStack
  locals : i.maxLocals ≤ j.maxLocals

theorem Grows.refl (hR : ∀ f, R f f) (i : Inference) : i.Grows R i where
  size := rfl
  kept h := ⟨_, h, hR _⟩
  queued h := .inl h
  pending h := h
  stack := Nat.le_refl _
  locals := Nat.le_refl _

theorem Grows.trans (hR : ∀ {f g k}, R f g → R g k → R f k) (hij : i.Grows R j)
    (hjk : j.Grows R k) : i.Grows R k where
  size := hjk.size.trans hij.size
  kept h := by
    obtain ⟨g, hg, hgf⟩ := hij.kept h
    obtain ⟨k, hk, hkg⟩ := hjk.kept hg
    exact ⟨k, hk, hR hkg hgf⟩
  queued h := by
    rcases hjk.queued h with h | h
    · rcases hij.queued h with h | h
      · exact .inl h
      · exact .inr (hjk.pending h)
    · exact .inr h
  pending h := hjk.pending (hij.pending h)
  stack := Nat.le_trans hij.stack hjk.stack
  locals := Nat.le_trans hij.locals hjk.locals

/-! ## Settled instructions -/

/-- The frame types have room for what control brings to each of some places. -/
def Covers (R : FrameType → FrameType → Prop) (i : Inference) (g : FrameType)
    (targets : List Nat) : Prop :=
  ∀ t ∈ targets, ∃ k, i.at? t = some k ∧ R k g

/-- Targets that are covered stay so. -/
theorem Covers.grow (hR : ∀ {f g k}, R f g → R g k → R f k) (hij : i.Grows R j)
    {targets : List Nat} (h : i.Covers R g targets) : j.Covers R g targets := by
  intro t ht
  obtain ⟨k, hk, hkg⟩ := h t ht
  obtain ⟨k', hk', hkk⟩ := hij.kept hk
  exact ⟨k', hk', hR hkk hkg⟩

/-- The instruction at `index` has an effect on the frame type `f` that adds nothing to what was
inferred. -/
def Settled (c : Checker) (code : Code) (R : FrameType → FrameType → Prop) (i : Inference)
    (index : Nat) (f : FrameType) : Prop :=
  ∃ instr flow g, code[index]? = some instr ∧ c.step f instr = .ok (flow, g) ∧
    g.stack.length ≤ i.maxStack ∧ g.locals.length ≤ i.maxLocals ∧
    i.Covers R g (flow.targets index)

/-- A settled place stays so while its frame does. -/
theorem Settled.grow (hR : ∀ {f g k}, R f g → R g k → R f k) (hij : i.Grows R j)
    (h : i.Settled c code R index f) : j.Settled c code R index f := by
  obtain ⟨instr, flow, g, hinstr, hstep, hstack, hlocals, hcovers⟩ := h
  exact ⟨instr, flow, g, hinstr, hstep, Nat.le_trans hstack hij.stack,
    Nat.le_trans hlocals hij.locals, hcovers.grow (R := R) hR hij⟩

/-- The invariant of the rounds of a method that starts with the frame type `start`. -/
structure Settles (c : Checker) (code : Code) (R : FrameType → FrameType → Prop)
    (start : FrameType) (i : Inference) : Prop where
  size : i.frames.size = code.size
  entry : ∃ k, i.at? 0 = some k ∧ R k start
  locals : start.locals.length ≤ i.maxLocals
  settled : ∀ {index f}, i.at? index = some f → index ∈ i.queue ∨ i.Settled c code R index f

end Inference

/-! ## Rounds -/

namespace Checker

open Inference

variable {c : Checker} {code : Code} {R : FrameType → FrameType → Prop} {i j : Inference}
  {index : Nat} {f g : FrameType}

/-- A join that does not change a frame type leaves the frame type above what was joined. -/
theorem above_of_mergeInto (hR : JoinOrder c.hierarchy R) {current : Option FrameType} {k : FrameType}
    {new : Bool} (h : mergeInto c.hierarchy current g = some (k, new)) :
    R k g ∧ (∀ f, current = some f → R k f) ∧ (new = false → current = some k) := by
  cases current with
  | none =>
      obtain ⟨rfl, rfl⟩ : g = k ∧ true = new := by simpa [mergeInto] using h
      exact ⟨hR.refl _, by simp, by simp⟩
  | some f =>
      obtain ⟨k', hjoin, hk⟩ := Option.map_eq_some_iff.mp h
      obtain ⟨rfl, rfl⟩ : k' = k ∧ (!decide (k' = f)) = new := by simpa using hk
      obtain ⟨hf, hg⟩ := hR.join hjoin
      refine ⟨hg, ?_, ?_⟩
      · rintro f' hf'
        cases hf'
        exact hf
      · intro hnew
        simp only [Bool.not_eq_eq_eq_not, Bool.not_false, decide_eq_true_eq] at hnew
        rw [hnew]

/-- A frame that flows to a target is merged there, and the target is queued if it changes. -/
theorem flowTo_eq_ok {target : Nat} (h : c.flowTo i g target = .ok j) :
    target < i.frames.size ∧ ∃ f, (mergeInto c.hierarchy (i.at? target) g = some (f, false) ∧ j = i) ∨
      (mergeInto c.hierarchy (i.at? target) g = some (f, true) ∧ j = i.put target f) := by
  have hat : i.frames.getD target none = i.at? target := rfl
  rw [flowTo, hat] at h
  by_cases hlt : target < i.frames.size
  · rw [if_pos hlt] at h
    refine ⟨hlt, ?_⟩
    split at h
    · cases h
    · next f hmerge =>
      cases h
      exact ⟨f, .inl ⟨hmerge, rfl⟩⟩
    · next f hmerge =>
      cases h
      exact ⟨f, .inr ⟨hmerge, rfl⟩⟩
  · rw [if_neg hlt] at h
    cases h

/-- A merge that changes the target queues it. -/
theorem flowTo_of_mergeInto {target : Nat} (hlt : target < i.frames.size)
    (hmerge : mergeInto c.hierarchy (i.at? target) g = some (f, true)) :
    c.flowTo i g target = .ok (i.put target f) := by
  have hat : i.frames.getD target none = i.at? target := rfl
  rw [flowTo, if_pos hlt, hat, hmerge]
  rfl

/-- Control that comes to a place for the first time takes its frame type there. -/
theorem flowTo_of_none {target : Nat} (hlt : target < i.frames.size) (hnone : i.at? target = none) :
    c.flowTo i g target = .ok (i.put target g) := by
  apply flowTo_of_mergeInto hlt
  rw [hnone]
  rfl

/-- A frame flows to its targets one after the other. -/
theorem flowToAll_cons_eq_ok {target : Nat} {targets : List Nat} :
    c.flowToAll i g (target :: targets) = .ok j ↔
      ∃ k, c.flowTo i g target = .ok k ∧ c.flowToAll k g targets = .ok j := by
  rw [flowToAll]
  rcases c.flowTo i g target with fault | k <;> simp

/-- A round does nothing, or leads on the effect of its instruction. -/
theorem round_eq_ok : c.round code i index = .ok j ↔
    (code[index]? = none ∨ i.at? index = none) ∧ j = i ∨
      ∃ instr f flow g, code[index]? = some instr ∧ i.at? index = some f ∧ c.step f instr = .ok (flow, g) ∧
        c.flowToAll (i.stretch g) g (flow.targets index) = .ok j := by
  have hat : i.frames.getD index none = i.at? index := rfl
  rw [round, hat]
  rcases code[index]? with _ | instr
  · simp [eq_comm]
  · rcases i.at? index with _ | f
    · simp [eq_comm]
    · rcases hstep : c.step f instr with e | ⟨flow, g⟩
      · simp [hstep]
      · simp only [hstep, reduceCtorEq, Option.some.injEq, or_self, false_and, false_or, stretch, ↓existsAndEq,
          Except.ok.injEq, Prod.mk.injEq, and_true, true_and]
        split
        · next k hflow => simp [hflow]
        · next fault hflow => simp [hflow]

/-- Without rounds, nothing may be queued. -/
theorem settle_zero_eq_ok {method : String} : c.settle method code 0 i = .ok j ↔ i.queue = [] ∧ j = i := by
  rw [settle]
  rcases hqueue : i.queue with _ | ⟨index, queue⟩ <;> simp [eq_comm]

/-- The rounds end with an empty queue, or one of them takes its instruction off the queue and others follow. -/
theorem settle_succ_eq_ok {method : String} {rounds : Nat} : c.settle method code (rounds + 1) i = .ok j ↔
    i.queue = [] ∧ j = i ∨ ∃ index queue k, i.queue = index :: queue ∧
      c.round code ⟨i.frames, queue, i.maxStack, i.maxLocals⟩ index = .ok k ∧
        c.settle method code rounds k = .ok j := by
  rw [settle]
  rcases hqueue : i.queue with _ | ⟨index, queue⟩
  · simp [eq_comm]
  · rcases hround : c.round code ⟨i.frames, queue, i.maxStack, i.maxLocals⟩ index with e | k <;> simp [hround]

/-- A flow only grows, and the target covers what came in. -/
theorem flowTo_grows (hR : JoinOrder c.hierarchy R) {target : Nat}
    (h : c.flowTo i g target = .ok j) : i.Grows R j ∧ ∃ k, j.at? target = some k ∧ R k g := by
  obtain ⟨hlt, k, ⟨hmerge, rfl⟩ | ⟨hmerge, rfl⟩⟩ := flowTo_eq_ok h
  · obtain ⟨hkg, -, hk⟩ := above_of_mergeInto hR hmerge
    exact ⟨.refl hR.refl j, k, hk rfl, hkg⟩
  · obtain ⟨hkg, hkf, -⟩ := above_of_mergeInto hR hmerge
    refine ⟨⟨size_put .., ?_, ?_, ?_, Nat.le_refl _, Nat.le_refl _⟩, k, ?_, hkg⟩
    · intro index f hf
      rw [at?_put hlt]
      split
      · next heq => exact ⟨k, rfl, hkf f (heq ▸ hf)⟩
      · exact ⟨f, hf, hR.refl f⟩
    · intro index f hf
      rw [at?_put hlt] at hf
      split at hf
      · next heq => exact .inr (List.mem_append_right _ (by simp [heq]))
      · exact .inl hf
    · intro index hmem
      exact List.mem_append_left _ hmem
    · rw [at?_put hlt, if_pos rfl]

/-- Flows to all targets only grow, and cover what came in. -/
theorem flowToAll_grows (hR : JoinOrder c.hierarchy R) {targets : List Nat}
    (h : c.flowToAll i g targets = .ok j) : i.Grows R j ∧ j.Covers R g targets := by
  induction targets generalizing i with
  | nil =>
      cases h
      exact ⟨.refl hR.refl _, fun _ ht => absurd ht List.not_mem_nil⟩
  | cons target targets ih =>
      obtain ⟨i', hi', h⟩ := flowToAll_cons_eq_ok.mp h
      obtain ⟨hgrow, k, hk, hkg⟩ := flowTo_grows hR hi'
      obtain ⟨hgrow', hcovers⟩ := ih h
      refine ⟨hgrow.trans hR.trans hgrow', ?_⟩
      intro t ht
      rcases List.mem_cons.mp ht with rfl | ht
      · obtain ⟨k', hk', hkk⟩ := hgrow'.kept hk
        exact ⟨k', hk', hR.trans hkk hkg⟩
      · exact hcovers t ht

/-- A round settles its instruction, for the frame type that it had before. -/
theorem round_settled (hR : JoinOrder c.hierarchy R) (h : c.round code i index = .ok j) :
    i.Grows R j ∧ ∀ f, i.at? index = some f → index < code.size →
      j.Settled c code R index f := by
  rcases round_eq_ok.mp h with ⟨hidle, rfl⟩ | ⟨instr, f, flow, g, hinstr, hf, hstep, hflow⟩
  · refine ⟨.refl hR.refl j, ?_⟩
    intro f hf hlt
    rcases hidle with hidle | hidle
    · rw [Array.getElem?_eq_getElem hlt] at hidle
      cases hidle
    · rw [hidle] at hf
      cases hf
  · obtain ⟨hgrow, hcovers⟩ := flowToAll_grows hR hflow
    have hstretch : i.Grows R (i.stretch g) :=
      ⟨rfl, fun h => ⟨_, h, hR.refl _⟩, .inl, id, Nat.le_max_left _ _, Nat.le_max_left _ _⟩
    refine ⟨hstretch.trans hR.trans hgrow, ?_⟩
    rintro f' hf' -
    obtain rfl : f = f' := Option.some.inj (hf.symm.trans hf')
    exact ⟨instr, flow, g, hinstr, hstep, Nat.le_trans (Nat.le_max_right _ _) hgrow.stack,
      Nat.le_trans (Nat.le_max_right _ _) hgrow.locals, hcovers⟩

/-- **The rounds keep their invariant**, and end when no instruction is left on the queue. -/
theorem settle_settles (hR : JoinOrder c.hierarchy R) {method : String} {rounds : Nat}
    {start : FrameType} (hi : i.Settles c code R start) (h : c.settle method code rounds i = .ok j) :
    j.Settles c code R start ∧ j.queue = [] := by
  induction rounds generalizing i with
  | zero =>
      obtain ⟨hempty, rfl⟩ := settle_zero_eq_ok.mp h
      exact ⟨hi, hempty⟩
  | succ rounds ih =>
      rcases settle_succ_eq_ok.mp h with ⟨hempty, rfl⟩ | ⟨index, queue, k, hqueue, hround, h⟩
      · exact ⟨hi, hempty⟩
      · obtain ⟨hgrow, hsettled⟩ := round_settled hR hround
        refine ih ⟨hgrow.size.trans hi.size, ?_, Nat.le_trans hi.locals hgrow.locals, ?_⟩ h
        · obtain ⟨k, hk, hkentry⟩ := hi.entry
          obtain ⟨k', hk', hkk⟩ := hgrow.kept hk
          exact ⟨k', hk', hR.trans hkk hkentry⟩
        · intro index' f hf
          rcases hgrow.queued hf with hf | hf
          · -- The frame type is the one from before the round.
            rcases hi.settled hf with hmem | hdone
            · rw [hqueue] at hmem
              rcases List.mem_cons.mp hmem with rfl | hmem
              · exact .inr (hsettled f hf (hi.size ▸ lt_size_of_at? hf))
              · exact .inl (hgrow.pending hmem)
            · exact .inr (Settled.grow hR.trans hgrow hdone)
          · exact .inl hf

end Checker

/-! ## Methods -/

/-- The frame type that a method starts with. -/
def FrameType.entry (owner : String) (params : List DataType) : FrameType :=
  ⟨[], some (.ref owner) :: params.map fun t => some (SlotType.of t)⟩

/-- Every instruction was reached and has nothing to add. -/
structure Inference.Stable (c : Checker) (code : Code) (R : FrameType → FrameType → Prop)
    (start : FrameType) (i : Inference) : Prop where
  entry : ∃ k, i.at? 0 = some k ∧ R k start
  locals : start.locals.length ≤ i.maxLocals
  settled : ∀ {index f}, i.at? index = some f → i.Settled c code R index f
  reached : ∀ {index}, index < code.size → ∃ f, i.at? index = some f

variable {owner name : String} {s : Signature} {code : Code} {pool : Pool} {h : Hierarchy}
  {R : FrameType → FrameType → Prop} {rounds : Nat} {i : Inference}

/-- At the start, only the entry is to be settled. -/
theorem start_settles (hR : JoinOrder h R) (hcode : 0 < code.size) (owner : String) (c : Checker)
    (params : List DataType) :
    (Inference.start owner params code).Settles c code R (.entry owner params) where
  size := by simp [Inference.start]
  entry := ⟨.entry owner params, by simp [Inference.at?, Inference.start, FrameType.entry, hcode],
    hR.refl _⟩
  locals := by simp [Inference.start, FrameType.entry]
  settled := by
    intro index f hf
    rcases index with _ | index
    · exact .inl (by simp [Inference.start])
    · by_cases hlt : index + 1 < code.size <;>
        simp [Inference.at?, Inference.start, hlt] at hf

/-- **What is inferred for an accepted method is stable.** -/
theorem inferWithin_stable (hR : JoinOrder h R)
    (hinfer : inferWithin rounds owner name s code pool h = .ok i) :
    i.Stable ⟨pool, h, s.result⟩ code R (.entry owner s.params) := by
  rw [inferWithin] at hinfer
  split at hinfer
  · simp at hinfer
  · next hcode =>
    obtain ⟨j, hsettle, hreached⟩ := bind_eq_ok.mp hinfer
    have hstart := start_settles hR (Array.size_pos_iff.mpr (by simpa using hcode)) owner
      ⟨pool, h, s.result⟩ s.params
    obtain ⟨hsettles, hqueue⟩ := Checker.settle_settles hR hstart hsettle
    split at hreached
    · simp at hreached
    · next hall =>
      cases hreached
      refine ⟨hsettles.entry, hsettles.locals, ?_, ?_⟩
      · intro index f hf
        rcases hsettles.settled hf with hmem | hdone
        · rw [hqueue] at hmem
          exact absurd hmem List.not_mem_nil
        · exact hdone
      · intro index hlt
        rw [← hsettles.size] at hlt
        have hsome := Array.findIdx?_eq_none_iff.mp hall _ (Array.getElem_mem hlt)
        obtain ⟨f, hf⟩ := Option.isSome_iff_exists.mp (by simpa using hsome)
        exact ⟨f, by simp [Inference.at?, hlt, hf]⟩

/-- A size that fits is written as it is. -/
theorem size16_eq_ok {table : String} {n : Nat} {k : UInt16} (h : size16 table n = .ok k) :
    k.toNat = n := by
  rw [size16] at h
  split at h
  · next hlt =>
    cases h
    rw [UInt16.toNat_ofNat', Nat.mod_eq_of_lt hlt]
  · simp at h

namespace CodeUnit

/-- A method of an accepted unit has frame types, and it keeps within the frame that it declares. -/
theorem infer_of_verifyWithin {u : CodeUnit} {rounds : Method → Nat} {m : Method}
    (hverify : u.verifyWithin rounds h = .ok ()) (hm : m ∈ u.methods) :
    ∃ i, u.infer (rounds m) h m = .ok i ∧ i.maxStack ≤ m.maxStack.toNat ∧
      i.maxLocals ≤ m.maxLocals.toNat := by
  have hmethod := forM_eq_ok.mp hverify m hm
  simp only [verifyMethodOf, Inference.frame, bind_eq_ok] at hmethod
  obtain ⟨i, hi, frame, ⟨stack, hstack, locals, hlocals, hframe⟩, hdeclared⟩ := hmethod
  cases hframe
  refine ⟨i, hi, ?_⟩
  split at hdeclared
  · simp at hdeclared
  · next hwithin =>
    simp only [gt_iff_lt, Bool.or_eq_true, decide_eq_true_eq, not_or, UInt16.not_lt] at hwithin
    rw [← size16_eq_ok hstack, ← size16_eq_ok hlocals]
    exact ⟨UInt16.le_iff_toNat_le.mp hwithin.1, UInt16.le_iff_toNat_le.mp hwithin.2⟩

/-- What is inferred for a unit's method is stable. -/
theorem infer_stable {u : CodeUnit} {m : Method} (hR : JoinOrder (u.hierarchyWith h) R)
    (hinfer : u.infer rounds h m = .ok i) :
    i.Stable ⟨u.pool, u.hierarchyWith h, m.signature.result⟩ m.code R
      (.entry u.name m.signature.params) :=
  inferWithin_stable hR hinfer

end CodeUnit

end Routecraft.Bytecode
