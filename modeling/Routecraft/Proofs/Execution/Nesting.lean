import Routecraft.Proofs.Execution.Activations

/-!
# Runs within runs

The steps of a called method count against the budget of the whole run. Apart from this a call is a run of its
own: what it comes to does not depend on the frames that wait for it.

* `Program.Follows`: two actions come to the same, unless the first may run out of steps and does.
* `Program.run_le`: runs with different budgets.
* `Program.run_above`: a call within a run, and the run of the call.
-/

namespace Routecraft.Machine

open Bytecode

variable {α β : Type} {p : Program} {slack : Prop} {s s' : Store}

/-- Two actions come to the same on a store; or else, where there is slack, the first has run out of steps. -/
def Program.Follows (p : Program) (slack : Prop) (s : Store) (a a' : Action α) : Prop :=
  s.perform a = s.perform a' ∨ slack ∧ (s.perform a).1 = .error (.stepLimit p.stepLimit)

namespace Program.Follows

theorem refl (p : Program) (slack : Prop) (s : Store) (a : Action α) : p.Follows slack s a a := .inl rfl

/-- What follows an action that follows a third one follows the third. -/
theorem trans {a b c : Action α} (hab : p.Follows slack s a b) (hbc : p.Follows slack s b c) :
    p.Follows slack s a c := by
  rcases hab with hab | hab
  · unfold Follows
    rw [hab]
    exact hbc
  · exact .inr hab

/-- Out of steps. -/
theorem of_limit (h : slack) (a : Action α) : p.Follows slack s (throw (.stepLimit p.stepLimit)) a :=
  .inr ⟨h, rfl⟩

/-- Actions one after the other. -/
theorem bind {a a' : Action α} {f f' : α → Action β} (ha : p.Follows slack s a a')
    (hf : ∀ x s', s.perform a' = (.ok x, s') → p.Follows slack s' (f x) (f' x)) :
    p.Follows slack s (a >>= f) (a' >>= f') := by
  rcases ha with ha | ⟨hslack, ha⟩
  · unfold Follows
    rw [Store.perform_bind, Store.perform_bind, ha]
    rcases h : s.perform a' with ⟨e | x, s'⟩
    · exact .inl rfl
    · exact hf x s' h
  · refine .inr ⟨hslack, ?_⟩
    rw [Store.perform_bind]
    rcases h : s.perform a with ⟨e | x, s'⟩
    · rw [h] at ha
      simpa using ha
    · rw [h] at ha
      simp at ha

/-- Actions with the same beginning follow each other if their rest does. -/
theorem bind_right {a : Action α} {f f' : α → Action β} (hf : ∀ x s', p.Follows slack s' (f x) (f' x)) :
    p.Follows slack s (a >>= f) (a >>= f') :=
  bind (refl p slack s a) fun x s' _ => hf x s'

end Program.Follows

/-! ## Budgets -/

namespace Program

/-- How a run goes on after a step. -/
def proceed (p : Program) (budget : Nat) : Progress → Action Value
  | .running f callers => p.run budget f callers
  | .finished result => pure result

/-- A run of one step more makes this step and goes on. -/
theorem run_succ (budget : Nat) (f : Frame) (callers : List Frame) :
    p.run (budget + 1) f callers = p.advance f callers >>= p.proceed budget := rfl

/-- A run with a smaller budget comes to the same, or out of steps. -/
theorem run_le {b b' : Nat} (hle : b ≤ b') (hslack : slack) (f : Frame) (callers : List Frame) (s : Store) :
    p.Follows slack s (p.run b f callers) (p.run b' f callers) := by
  induction b generalizing b' f callers s with
  | zero => exact .of_limit hslack _
  | succ b ih =>
      obtain ⟨n, rfl⟩ := Nat.exists_eq_add_of_le' hle
      rw [← Nat.add_assoc, run_succ, run_succ]
      apply Follows.bind_right
      intro progress s'
      cases progress with
      | finished v => exact .refl ..
      | running f callers => exact ih (Nat.le_add_left b n) f callers s'

/-! ## Calls -/

/-- The first of several frames that were entered, the one that runs and those that wait. -/
def bottom (f : Frame) : List Frame → Frame
  | [] => f
  | w :: inner => bottom w inner

/-- **A call is a run of its own**, up to the budget: it may have run out of steps before. -/
theorem run_above {b n c : Nat} (hn : b ≤ n) (hc : b ≤ c) (hslack : slack) (f w : Frame)
    (inner callers : List Frame) (hkeeps : (bottom f inner).keeps = true) (s : Store) :
    p.Follows slack s (p.run b f (inner ++ w :: callers))
      (p.run n f inner >>= fun v => p.run c (w.receive true v) callers) := by
  induction b generalizing n f inner s with
  | zero => exact .of_limit hslack _
  | succ b ih =>
      obtain ⟨n, rfl⟩ := Nat.exists_eq_add_of_le' hn
      rw [← Nat.add_assoc, run_succ, run_succ, advance_above f inner, advance_above f (inner ++ _),
        bind_map_left, bind_map_left, bind_assoc]
      apply Follows.bind (.refl ..)
      intro progress s' hprogress
      -- A step of the inner run: either it returns to the caller that waits, or it leaves other frames to run.
      cases progress with
      | finished v =>
          cases inner with
          | nil =>
              rw [show f.keeps = true from hkeeps]
              show p.Follows slack s' (p.run b _ callers) (pure v >>= _)
              rw [pure_bind]
              exact run_le (by omega) hslack _ _ s'
          | cons y inner =>
              have hkeeps' : (bottom (y.receive f.keeps v) inner).keeps = true := by
                cases inner with
                | nil => rw [bottom, (y.sameCall_receive f.keeps v).keeps]; exact hkeeps
                | cons w' inner => exact hkeeps
              exact ih (Nat.le_add_left b n) (by omega) _ inner hkeeps' s'
      | running g waiting =>
          -- Whether the lowest frame keeps its result is the same after a step, wherever that frame now is.
          have hkeeps' : (bottom g (waiting ++ inner)).keeps = true := by
            rcases advance_eq_running hprogress with ⟨rfl, hsame⟩ | ⟨w', rfl, hsame⟩ | ⟨w', v, h, -⟩
            · cases inner with
              | nil => rw [List.append_nil, bottom, hsame.keeps]; exact hkeeps
              | cons y inner => exact hkeeps
            · cases inner with
              | nil => rw [List.append_nil, bottom, bottom, hsame.keeps]; exact hkeeps
              | cons y inner => exact hkeeps
            · simp at h
          have hrun := ih (Nat.le_add_left b n) (by omega) g (waiting ++ inner) hkeeps' s'
          rw [List.append_assoc] at hrun
          exact hrun

end Program

end Routecraft.Machine
