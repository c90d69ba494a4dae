import Routecraft.Proofs.Verification.Termination
import Routecraft.Proofs.Verification.Transfer

/-!
# Code with a frame type for each place

Where control brings the same frame type to a place on all ways, there is nothing to join. If such frame types
are known, the rounds of the checker find just these, whatever the hierarchy: each instruction comes on the
queue once, so that as many rounds as there are instructions are enough. What comes of the rounds is then
decided by the effects of single instructions.

* `Code.Traced`: the frame types of such code.
* `Checker.settle_traced`: the rounds of traced code.
* `inferWithin_traced`, `inferWithin_fails`: when it is accepted, and with which error it is refused.
-/

namespace Routecraft.Bytecode

/-- Two ways that bring the same frame type to a place leave it as it is. -/
theorem FrameType.join_self (h : Hierarchy) (f : FrameType) : f.join h f = some f := by
  have hstack : joinStacks h f.stack f.stack = some f.stack := by
    induction f.stack with
    | nil => rfl
    | cons t ts ih =>
        rw [joinStacks_cons, h.join_self t, ih]
        rfl
  have hlocals : joinLocals h f.locals f.locals = f.locals := by
    unfold joinLocals
    simp only [Nat.max_self, Nat.sub_self, List.replicate_zero, List.append_nil]
    induction f.locals with
    | nil => rfl
    | cons t ts ih =>
        rw [List.zipWith_cons_cons, ih]
        cases t with
        | none => rfl
        | some t => exact congrArg (· :: ts) (h.join_self t)
  unfold join
  rw [hstack, hlocals]
  rfl

/-- Frame types of the places that control comes to: it brings to each place the one that the place has, and
none has a stack deeper than `depth` or more locals than `size`. -/
structure Code.Traced (c : Checker) (code : Code) (start : FrameType) (depth size : Nat)
    (trace : Nat → Option FrameType) : Prop where
  entry : trace 0 = some start
  inside : ∀ {q f}, trace q = some f → q < code.size
  flow : ∀ {q f instr flow g}, trace q = some f → code[q]? = some instr → c.step f instr = .ok (flow, g) →
    ∀ t ∈ instr.targets q, trace t = some g
  bounds : ∀ {q f instr flow g}, trace q = some f → code[q]? = some instr → c.step f instr = .ok (flow, g) →
    g.stack.length ≤ depth ∧ g.locals.length ≤ size

/-- What was inferred so far is part of a trace, and within its bounds. -/
structure Inference.Follows (code : Code) (depth size : Nat) (trace : Nat → Option FrameType) (i : Inference) :
    Prop where
  frames : i.frames.size = code.size
  traced : ∀ {q f}, i.at? q = some f → trace q = some f
  depth : i.maxStack ≤ depth
  size : i.maxLocals ≤ size

/-- The places that were not reached yet, and those on the queue. -/
def Inference.left (i : Inference) : Nat := i.queue.length + (i.frames.size - i.reached.card)

namespace Checker

open Inference

variable {c : Checker} {code : Code} {start : FrameType} {depth size : Nat} {trace : Nat → Option FrameType}
  {i : Inference} {g : FrameType}

/-- Control that brings to a place the frame type that it has is led there. -/
theorem flowTo_traced (hi : i.Follows code depth size trace) {target : Nat} (hlt : target < code.size)
    (htarget : trace target = some g) :
    ∃ j, c.flowTo i g target = .ok j ∧ j.Follows code depth size trace ∧ j.left ≤ i.left := by
  have hlt' : target < i.frames.size := hi.frames ▸ hlt
  rcases hat : i.at? target with _ | f
  · refine ⟨_, flowTo_of_none hlt' hat, ⟨(size_put ..).trans hi.frames, ?_, hi.depth, hi.size⟩, ?_⟩
    · intro q f hf
      rw [at?_put hlt'] at hf
      split at hf
      · next heq =>
        cases hf
        exact heq ▸ htarget
      · exact hi.traced hf
    · -- The place on the queue is one less that was not reached.
      have hcard := card_reached_put_of_none hlt' hat g
      have hle := (i.put target g).card_reached_le
      rw [size_put] at hle
      unfold left
      rw [queue_put, size_put, List.length_append, List.length_singleton]
      omega
  · obtain rfl : f = g := Option.some.inj ((hi.traced hat).symm.trans htarget)
    refine ⟨i, ?_, hi, Nat.le_refl _⟩
    have hget : i.frames.getD target none = some f := hat
    unfold flowTo
    rw [if_pos hlt', hget]
    simp [mergeInto, f.join_self]

/-- Flows that follow the trace go through, and leave no more to be done. -/
theorem flowToAll_traced (hi : i.Follows code depth size trace) {targets : List Nat}
    (htargets : ∀ t ∈ targets, t < code.size ∧ trace t = some g) :
    ∃ j, c.flowToAll i g targets = .ok j ∧ j.Follows code depth size trace ∧ j.left ≤ i.left := by
  induction targets generalizing i with
  | nil => exact ⟨i, rfl, hi, Nat.le_refl _⟩
  | cons target targets ih =>
      obtain ⟨⟨hlt, htarget⟩, hrest⟩ := List.forall_mem_cons.mp htargets
      obtain ⟨i', hflow, hi', hleft⟩ := flowTo_traced (c := c) hi hlt htarget
      obtain ⟨j, hall, hj, hleft'⟩ := ih hi' hrest
      exact ⟨j, flowToAll_cons_eq_ok.mpr ⟨i', hflow, hall⟩, hj, Nat.le_trans hleft' hleft⟩

/-- An instruction of the trace has no effect on its frame type. -/
def FailsAt (c : Checker) (code : Code) (trace : Nat → Option FrameType) (q : Nat) (e : StepError) : Prop :=
  ∃ f instr, trace q = some f ∧ code[q]? = some instr ∧ c.step f instr = .error e

/-- A round of traced code follows the trace, or its instruction fails. -/
theorem round_traced (hc : code.Traced c start depth size trace) (hi : i.Follows code depth size trace) (index : Nat) :
    (∃ j, c.round code i index = .ok j ∧ j.Follows code depth size trace ∧ j.left ≤ i.left) ∨
      ∃ e, c.round code i index = .error e ∧ c.FailsAt code trace index e := by
  rcases hinstr : code[index]? with _ | instr
  · exact .inl ⟨i, round_eq_ok.mpr (.inl ⟨.inl hinstr, rfl⟩), hi, Nat.le_refl _⟩
  rcases hat : i.at? index with _ | f
  · exact .inl ⟨i, round_eq_ok.mpr (.inl ⟨.inr hat, rfl⟩), hi, Nat.le_refl _⟩
  have htrace := hi.traced hat
  rcases hstep : c.step f instr with e | ⟨flow, g⟩
  · refine .inr ⟨e, ?_, f, instr, htrace, hinstr, hstep⟩
    have hget : i.frames.getD index none = some f := hat
    unfold round
    simp only [hinstr, hget, hstep]
  · obtain ⟨hdepth, hsize⟩ := hc.bounds htrace hinstr hstep
    have hi' : Follows code depth size trace (i.stretch g) :=
      ⟨hi.frames, hi.traced, Nat.max_le.mpr ⟨hi.depth, hdepth⟩, Nat.max_le.mpr ⟨hi.size, hsize⟩⟩
    obtain ⟨j, hflow, hj, hleft⟩ := flowToAll_traced (c := c) hi' (show
        ∀ t ∈ flow.targets index, t < code.size ∧ trace t = some g by
      intro t ht
      rw [targets_of_step hstep] at ht
      have htarget := hc.flow htrace hinstr hstep t ht
      exact ⟨hc.inside htarget, htarget⟩)
    exact .inl ⟨j, round_eq_ok.mpr (.inr ⟨instr, f, flow, g, hinstr, hat, hstep, hflow⟩), hj, hleft⟩

/-- **The rounds of traced code** come to their end with what follows the trace, or to an instruction that
fails. -/
theorem settle_traced (method : String) (hc : code.Traced c start depth size trace) {rounds : Nat}
    (hi : i.Follows code depth size trace) (hleft : i.left ≤ rounds) :
    (∃ j, c.settle method code rounds i = .ok j ∧ j.Follows code depth size trace) ∨
      ∃ q e, c.settle method code rounds i = .error (e.at method q) ∧ c.FailsAt code trace q e := by
  induction rounds generalizing i with
  | zero =>
      have hqueue : i.queue = [] := List.eq_nil_of_length_eq_zero (by unfold left at hleft; omega)
      refine .inl ⟨i, ?_, hi⟩
      unfold settle
      rw [hqueue]
      rfl
  | succ rounds ih =>
      unfold settle
      rcases hqueue : i.queue with _ | ⟨index, queue⟩
      · exact .inl ⟨i, rfl, hi⟩
      · have hi' : Follows code depth size trace ⟨i.frames, queue, i.maxStack, i.maxLocals⟩ :=
          ⟨hi.frames, hi.traced, hi.depth, hi.size⟩
        -- An instruction is taken off the queue, so less is left.
        have hless : left ⟨i.frames, queue, i.maxStack, i.maxLocals⟩ < i.left := by
          unfold left
          rw [hqueue, List.length_cons]
          exact Nat.add_lt_add_right (Nat.lt_succ_self _) _
        dsimp only
        rcases round_traced hc hi' index with ⟨j, hround, hj, hleft'⟩ | ⟨e, hround, hfails⟩
        · rw [hround]
          exact ih hj (by omega)
        · rw [hround]
          exact .inr ⟨index, e, rfl, hfails⟩

end Checker

/-! ## Methods -/

/-- Control comes to an instruction from one before it. -/
def Code.ReachedFromBefore (code : Code) (q : Nat) : Prop :=
  ∃ p instr, p < q ∧ code[p]? = some instr ∧ q ∈ instr.targets p

section

variable {owner name : String} {s : Signature} {code : Code} {pool : Pool} {h : Hierarchy} {rounds depth size : Nat}
  {trace : Nat → Option FrameType}

/-- What a method with traced code starts with. -/
theorem start_follows (hc : code.Traced ⟨pool, h, s.result⟩ (.entry owner s.params) depth size trace)
    (hsize : s.params.length + 1 ≤ size) :
    (Inference.start owner s.params code).Follows code depth size trace := by
  refine ⟨by simp [Inference.start], ?_, Nat.zero_le _, hsize⟩
  intro q f hf
  obtain ⟨rfl, rfl, -⟩ := at?_start hf
  exact hc.entry

/-- At the start, no more is left than the length of the code. -/
theorem left_start (hcode : 0 < code.size) (params : List DataType) :
    (Inference.start owner params code).left ≤ code.size := by
  have hframes : (Inference.start owner params code).frames.size = code.size := by simp [Inference.start]
  have hreached : 0 < (Inference.start owner params code).reached.card := by
    rw [Finset.card_pos]
    refine ⟨0, Finset.mem_filter.mpr ⟨Finset.mem_range.mpr (hframes ▸ hcode), ?_⟩⟩
    simp [Inference.at?, Inference.start, hcode]
  have hqueue : (Inference.start owner params code).queue.length = 1 := rfl
  unfold Inference.left
  omega

/-- Where nothing fails up to a place to which control comes from before, what has settled reaches it. -/
theorem reached_of_settled {c : Checker} {start : FrameType} {j : Inference}
    (hj : j.Settles c code (fun _ _ => True) start) (hqueue : j.queue = []) {n : Nat}
    (hbefore : ∀ q, 0 < q → q ≤ n → code.ReachedFromBefore q) {q : Nat} (hq : q ≤ n) : ∃ f, j.at? q = some f := by
  induction q using Nat.strongRecOn with
  | _ q ih =>
      rcases Nat.eq_zero_or_pos q with rfl | hpos
      · obtain ⟨k, hk, -⟩ := hj.entry
        exact ⟨k, hk⟩
      · obtain ⟨p, instr, hp, hinstr, htarget⟩ := hbefore q hpos hq
        obtain ⟨f, hf⟩ := ih p hp (by omega)
        rcases hj.settled hf with hmem | ⟨instr', flow, g, hinstr', hstep, -, -, hcovers⟩
        · rw [hqueue] at hmem
          exact absurd hmem List.not_mem_nil
        · obtain rfl := Option.some.inj (hinstr.symm.trans hinstr')
          rw [Checker.targets_of_step hstep] at hcovers
          obtain ⟨k, hk, -⟩ := hcovers q htarget
          exact ⟨k, hk⟩

/-- Any two frame types, as an order with joins. -/
theorem joinOrder_true (h : Hierarchy) : JoinOrder h fun _ _ => True where
  refl _ := trivial
  trans _ _ := trivial
  join _ := ⟨trivial, trivial⟩

/-- **Traced code is accepted** if no instruction fails and control comes to each from before. -/
theorem inferWithin_traced (name : String)
    (hc : code.Traced ⟨pool, h, s.result⟩ (.entry owner s.params) depth size trace)
    (hsize : s.params.length + 1 ≤ size) (hrounds : code.size ≤ rounds)
    (hsteps : ∀ q e, ¬(⟨pool, h, s.result⟩ : Checker).FailsAt code trace q e)
    (hbefore : ∀ q, 0 < q → q < code.size → code.ReachedFromBefore q) :
    ∃ i, inferWithin rounds owner name s code pool h = .ok i ∧ i.Follows code depth size trace := by
  have hcode : 0 < code.size := hc.inside hc.entry
  have hstart := start_settles (joinOrder_true h) hcode owner ⟨pool, h, s.result⟩ s.params
  rcases Checker.settle_traced name hc (start_follows hc hsize) (Nat.le_trans (left_start hcode _) hrounds) with
    ⟨j, hsettle, hj⟩ | ⟨q, e, -, hfails⟩
  · obtain ⟨hsettles, hqueue⟩ := Checker.settle_settles (joinOrder_true h) hstart hsettle
    refine ⟨j, ?_, hj⟩
    unfold inferWithin
    rw [if_neg (by simpa using Array.size_pos_iff.mp hcode)]
    have hall : j.frames.findIdx? Option.isNone = none := by
      rw [Array.findIdx?_eq_none_iff]
      intro f hf
      obtain ⟨q, hq, rfl⟩ := Array.getElem_of_mem hf
      obtain ⟨k, hk⟩ := reached_of_settled hsettles hqueue (n := code.size - 1)
        (fun q hpos hle => hbefore q hpos (by omega)) (q := q) (by have := hj.frames; omega)
      simp only [Inference.at?, Array.getD_eq_getD_getElem?, Array.getElem?_eq_getElem hq, Option.getD_some] at hk
      rw [hk]
      rfl
    simp only [hsettle, ok_bind, hall]
  · exact absurd hfails (hsteps q e)

/-- **Traced code is refused** at its only instruction that fails, if control comes there. -/
theorem inferWithin_fails (name : String)
    (hc : code.Traced ⟨pool, h, s.result⟩ (.entry owner s.params) depth size trace)
    (hsize : s.params.length + 1 ≤ size) (hrounds : code.size ≤ rounds) {k : Nat} {e : StepError}
    (hfails : (⟨pool, h, s.result⟩ : Checker).FailsAt code trace k e)
    (honly : ∀ q e', (⟨pool, h, s.result⟩ : Checker).FailsAt code trace q e' → q = k ∧ e' = e)
    (hbefore : ∀ q, 0 < q → q ≤ k → code.ReachedFromBefore q) :
    inferWithin rounds owner name s code pool h = .error (e.at name k) := by
  have hcode : 0 < code.size := hc.inside hc.entry
  have hstart := start_settles (joinOrder_true h) hcode owner ⟨pool, h, s.result⟩ s.params
  unfold inferWithin
  rw [if_neg (by simpa using Array.size_pos_iff.mp hcode)]
  show (Checker.settle _ _ _ _ _ >>= _) = _
  rcases Checker.settle_traced name hc (start_follows hc hsize) (Nat.le_trans (left_start hcode _) hrounds) with
    ⟨j, hsettle, hj⟩ | ⟨q, e', hsettle, hfails'⟩
  · -- The rounds cannot have settled: they came to the instruction that fails.
    obtain ⟨hsettles, hqueue⟩ := Checker.settle_settles (joinOrder_true h) hstart hsettle
    obtain ⟨f, hf⟩ := reached_of_settled hsettles hqueue hbefore (Nat.le_refl k)
    obtain ⟨f', instr, htrace, hinstr, herror⟩ := hfails
    obtain rfl : f = f' := Option.some.inj ((hj.traced hf).symm.trans htrace)
    rcases hsettles.settled hf with hmem | ⟨instr', flow, g, hinstr', hstep, -⟩
    · rw [hqueue] at hmem
      exact absurd hmem List.not_mem_nil
    · obtain rfl := Option.some.inj (hinstr.symm.trans hinstr')
      rw [hstep] at herror
      cases herror
  · obtain ⟨rfl, rfl⟩ := honly q e' hfails'
    rw [hsettle]
    rfl

end

end Routecraft.Bytecode
