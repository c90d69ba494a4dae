import Routecraft.Proofs.Execution.Agreement
import Routecraft.Proofs.Execution.Nesting

/-!
# The limit of a run

A run carries out one instruction after the other, those of the methods that it calls among them. The limit says how
many there may be in all. What the instructions do does not depend on it, so a run that ends before its limit is also
what comes of every larger limit.

* `Program.limitedTo`: a program with another limit.
* `Program.Executes`: so many instructions lead from one state of a run to another one.
* `Program.exists_executes`: within every budget, a run ends or uses up the budget.
* `Program.perform_invoke_of_executes`: what is carried out within the limit is what an invocation comes to.
* `Loader.link_withStepLimit`: it has no part in linking.
-/

namespace Routecraft.Machine

open Bytecode

/-! ## States of a run -/

/-- What is there of a call before the first instruction of the run. -/
def Called.begun : Called → Progress
  | .result v => .finished v
  | .entered f => .running f []

/-- Where a run is: what has come of it so far, and the store. -/
abbrev RunState := Except MachineError Progress × Store

/-- A run has come to its result or its error, be it one that is never told to its end. -/
def IsOver : Except MachineError Progress → Prop
  | .ok (.running _ _) => False
  | .ok (.finished _) | .error _ => True

/-- What a run comes to if it is stopped where it is: if it is not over, it is cut off at the limit. -/
def cutOff (limit : Nat) : Except MachineError Progress → Except MachineError Value
  | .ok (.running _ _) => .error (.stepLimit limit)
  | .ok (.finished v) => .ok v
  | .error e => .error e

/-- What is over is not cut off, whatever the limit. -/
theorem IsOver.cutOff_eq {y : Except MachineError Progress} (h : IsOver y) (limit limit' : Nat) :
    cutOff limit y = cutOff limit' y := by
  rcases y with e | ⟨f, callers⟩ | v
  · rfl
  · exact h.elim
  · rfl

/-- What is cut off to something other than the error of the limit is over. -/
theorem isOver_of_cutOff_ne {limit : Nat} {y : Except MachineError Progress}
    (h : cutOff limit y ≠ .error (.stepLimit limit)) : IsOver y := by
  rcases y with e | ⟨f, callers⟩ | v
  · trivial
  · exact absurd rfl h
  · trivial

namespace Program

variable {p q : Program} {start x : RunState} {n : Nat}

def limitedTo (p : Program) (limit : Nat) : Program := { p with stepLimit := limit }

/-- The limit does not matter to what a program does in a step. -/
theorem concurs_limitedTo (p : Program) (limit limit' : Nat) : (p.limitedTo limit).Concurs (p.limitedTo limit') :=
  ⟨rfl, rfl, rfl, rfl⟩

/-- Begins an invocation: no instruction is carried out yet. -/
def opening (p : Program) (receiver : Value) (name : String) (args : List Value) : Action Progress := do
  return (← p.call receiver name args).begun

/-- So many instructions lead from one state of a run to another one. They are those of all methods that run, the
methods that are called by others and these others alike. -/
inductive Executes (p : Program) (start : RunState) : Nat → RunState → Prop
  | start : Executes p start 0 start
  | step {n : Nat} {f : Frame} {callers : List Frame} {s : Store} :
      Executes p start n (.ok (.running f callers), s) → Executes p start (n + 1) (s.perform (p.advance f callers))

/-- Programs that concur carry out the same instructions. -/
theorem Executes.congr (h : p.Executes start n x) (hpq : p.Concurs q) : q.Executes start n x := by
  induction h with
  | start => exact .start
  | step _ ih =>
      rw [hpq.advance]
      exact .step ih

/-- **Within every budget, a run ends or uses up the budget.** -/
theorem exists_executes (p : Program) (start : RunState) (budget : Nat) :
    ∃ n ≤ budget, ∃ x, p.Executes start n x ∧ (n < budget → IsOver x.1) := by
  induction budget with
  | zero => exact ⟨0, Nat.le_refl 0, start, .start, fun h => absurd h (Nat.not_lt_zero 0)⟩
  | succ budget ih =>
      obtain ⟨n, hn, ⟨y, s⟩, hx, hover⟩ := ih
      rcases Nat.lt_or_eq_of_le hn with hlt | rfl
      · exact ⟨n, Nat.le_succ_of_le hn, _, hx, fun _ => hover hlt⟩
      · -- There is budget for one more instruction.
        rcases y with e | ⟨f, callers⟩ | v
        · exact ⟨n, Nat.le_succ n, _, hx, fun _ => trivial⟩
        · exact ⟨n + 1, Nat.le_refl _, _, .step hx, fun h => absurd h (Nat.lt_irrefl _)⟩
        · exact ⟨n, Nat.le_succ n, _, hx, fun _ => trivial⟩

/-! ## What a run comes to -/

/-- What a state of a run comes to with a budget. -/
def outcome (p : Program) (budget : Nat) : RunState → Except MachineError Value × Store
  | (.ok progress, s) => s.perform (p.proceed budget progress)
  | (.error e, s) => (.error e, s)

/-- Going on from an action is to go on from what it comes to. -/
theorem perform_proceed (s : Store) (a : Action Progress) (budget : Nat) :
    s.perform (a >>= p.proceed budget) = p.outcome budget (s.perform a) := by
  rw [Store.perform_bind]
  rcases s.perform a with ⟨e | progress, s'⟩ <;> rfl

/-- Without a budget a run is cut off. -/
theorem outcome_zero (p : Program) (x : RunState) : p.outcome 0 x = (cutOff p.stepLimit x.1, x.2) := by
  obtain ⟨e | ⟨f, callers⟩ | v, s⟩ := x <;> rfl

/-- Where a run is over, no budget is needed. -/
theorem outcome_of_isOver (h : IsOver x.1) (budget : Nat) : p.outcome budget x = p.outcome 0 x := by
  obtain ⟨e | ⟨f, callers⟩ | v, s⟩ := x
  · rfl
  · exact h.elim
  · rfl

/-- One instruction is taken off the budget. -/
theorem outcome_succ (p : Program) (budget : Nat) (f : Frame) (callers : List Frame) (s : Store) :
    p.outcome (budget + 1) (.ok (.running f callers), s) = p.outcome budget (s.perform (p.advance f callers)) :=
  perform_proceed s (p.advance f callers) budget

/-- **All instructions count against one budget**, in which method they may be. -/
theorem Executes.outcome_add (h : p.Executes start n x) (budget : Nat) :
    p.outcome (n + budget) start = p.outcome budget x := by
  induction h generalizing budget with
  | start => rw [Nat.zero_add]
  | @step n f callers s _ ih => rw [Nat.add_right_comm, Nat.add_assoc, ih (budget + 1), outcome_succ]

/-- What is carried out within a budget, up to the end of the run or of the budget, is what the run comes to. -/
theorem Executes.outcome_eq {budget : Nat} (h : p.Executes start n x) (hn : n ≤ budget)
    (hover : n < budget → IsOver x.1) : p.outcome budget start = (cutOff p.stepLimit x.1, x.2) := by
  obtain ⟨left, rfl⟩ := Nat.exists_eq_add_of_le hn
  rw [h.outcome_add, ← outcome_zero]
  -- What is left of the budget is nothing, or more than is needed.
  cases left with
  | zero => rfl
  | succ left => exact outcome_of_isOver (hover (by omega)) _

/-! ## Invocations -/

/-- Invoking a method is to begin it and to go on up to the limit. -/
theorem invoke_eq (receiver : Value) (name : String) (args : List Value) :
    p.invoke receiver name args = p.opening receiver name args >>= p.proceed p.stepLimit := by
  unfold invoke opening
  rw [bind_assoc]
  congr 1
  funext called
  rw [pure_bind]
  cases called <;> rfl

/-- **What is carried out within the limit is what an invocation comes to.** -/
theorem perform_invoke_of_executes {s : Store} {receiver : Value} {name : String} {args : List Value}
    (h : p.Executes (s.perform (p.opening receiver name args)) n x) (hn : n ≤ p.stepLimit)
    (hover : n < p.stepLimit → IsOver x.1) :
    s.perform (p.invoke receiver name args) = (cutOff p.stepLimit x.1, x.2) := by
  rw [invoke_eq, perform_proceed]
  exact h.outcome_eq hn hover

/-- Programs that concur begin their calls alike. -/
theorem Concurs.opening (h : p.Concurs q) : p.opening = q.opening := by
  funext receiver name args
  unfold Program.opening
  rw [h.call]

end Program

/-- The limit of a loader has no part in linking: it is that of the program, and what else is linked is the same. -/
theorem Loader.link_withStepLimit (l : Loader) (limit : Nat) :
    (l.withStepLimit limit).link = l.link.map (·.limitedTo limit) := by
  have hcheck : (l.withStepLimit limit).check = l.check := by
    funext u
    rfl
  unfold link
  rw [hcheck]
  show (l.units.forM l.check >>= _) = _
  cases l.units.forM l.check <;> rfl

end Routecraft.Machine
