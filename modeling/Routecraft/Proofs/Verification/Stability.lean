import Routecraft.Proofs.Verification.Transfer

/-!
# Verification with more constants

What is inferred for a method depends on the constants that its code mentions and on which edges the hierarchy
has. It stays as it is when other constants are added to the pool, and when the same edges come in another order
or more than once, also where paths meet.

* `Checker.Widens`: a checker with more constants and the same classes.
* `Checker.settle_widen`: its rounds go the same way.
* `inferWithin_widen`: what is inferred stays.
-/

namespace Routecraft.Bytecode

/-! ## Joins -/

section

variable {h h' : Hierarchy}

/-- Joining frames depends on the edges alone. -/
theorem FrameType.join_congr (hedges : ∀ e, e ∈ h.edges ↔ e ∈ h'.edges) : FrameType.join h = FrameType.join h' := by
  funext f g
  unfold FrameType.join joinStacks joinLocals
  rw [Hierarchy.join_congr hedges]

theorem mergeInto_congr (hedges : ∀ e, e ∈ h.edges ↔ e ∈ h'.edges) : mergeInto h = mergeInto h' := by
  funext current incoming
  unfold mergeInto
  rw [FrameType.join_congr hedges]

end

/-! ## Rounds -/

/-- A checker with more constants and the same classes. -/
structure Checker.Widens (c c' : Checker) : Prop where
  pool : c.pool.Extends c'.pool
  edges : ∀ e, e ∈ c.hierarchy.edges ↔ e ∈ c'.hierarchy.edges
  result : c'.result = c.result

namespace Checker

variable {c c' : Checker} {code : Code} {i j : Inference}

/-- A checker that is widened knows all that it knew. -/
theorem Widens.knows (hc : c.Widens c') : c.Knows c' := ⟨hc.pool, fun e => (hc.edges e).mp, hc.result⟩

/-- Flows are the same in a widened checker. -/
theorem flowTo_widen (hc : c.Widens c') : c'.flowTo = c.flowTo := by
  funext i incoming target
  unfold flowTo
  rw [mergeInto_congr hc.edges]

theorem flowToAll_widen (hc : c.Widens c') (i : Inference) (g : FrameType) (targets : List Nat) :
    c'.flowToAll i g targets = c.flowToAll i g targets := by
  induction targets generalizing i with
  | nil => rfl
  | cons target targets ih =>
      unfold flowToAll
      rw [flowTo_widen hc]
      split
      · exact ih _
      · rfl

/-- A round goes the same way in a widened checker. -/
theorem round_widen (hc : c.Widens c') {index : Nat} (h : c.round code i index = .ok j) :
    c'.round code i index = .ok j := by
  rcases round_eq_ok.mp h with ⟨hidle, rfl⟩ | ⟨instr, f, flow, g, hinstr, hf, hstep, hflow⟩
  · exact round_eq_ok.mpr (.inl ⟨hidle, rfl⟩)
  · rw [← flowToAll_widen hc] at hflow
    exact round_eq_ok.mpr (.inr ⟨instr, f, flow, g, hinstr, hf, step_mono hc.knows hstep, hflow⟩)

/-- **The rounds go the same way** with more constants. -/
theorem settle_widen (hc : c.Widens c') {method : String} {rounds : Nat}
    (h : c.settle method code rounds i = .ok j) : c'.settle method code rounds i = .ok j := by
  induction rounds generalizing i with
  | zero => exact settle_zero_eq_ok.mpr (settle_zero_eq_ok.mp h)
  | succ rounds ih =>
      refine settle_succ_eq_ok.mpr ((settle_succ_eq_ok.mp h).imp_right ?_)
      rintro ⟨index, queue, k, hqueue, hround, h⟩
      exact ⟨index, queue, k, hqueue, round_widen hc hround, ih h⟩

end Checker

/-- **What is inferred stays** when constants and rounds are added, and the classes are the same. -/
theorem inferWithin_widen {owner name : String} {s : Signature} {code : Code} {pool pool' : Pool} {h h' : Hierarchy}
    {rounds rounds' : Nat} {i : Inference} (hpool : pool.Extends pool') (hedges : ∀ e, e ∈ h.edges ↔ e ∈ h'.edges)
    (hrounds : rounds ≤ rounds') (hinfer : inferWithin rounds owner name s code pool h = .ok i) :
    inferWithin rounds' owner name s code pool' h' = .ok i := by
  rw [inferWithin] at hinfer ⊢
  split at hinfer
  · simp at hinfer
  · next hne =>
    rw [if_neg hne]
    obtain ⟨j, hsettle, hreached⟩ := bind_eq_ok.mp hinfer
    have hwidens : Checker.Widens ⟨pool, h, s.result⟩ ⟨pool', h', s.result⟩ := ⟨hpool, hedges, rfl⟩
    exact bind_eq_ok.mpr ⟨j, Checker.settle_more hrounds (Checker.settle_widen hwidens hsettle), hreached⟩

end Routecraft.Bytecode
