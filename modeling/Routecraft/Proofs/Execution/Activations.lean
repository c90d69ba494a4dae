import Routecraft.Proofs.Execution.Stepping

/-!
# The frames of one call

The frame of a call changes with each instruction of its method. Between them other methods may run: those
that it calls. An activation is a frame that a call can come to, whatever these give back and whatever they
do to the store.

* `Program.advance_eq_running`: a step goes on in its call, enters another one, or goes back to a caller.
* `Program.Activation`: the frames that a call can come to.
* `Program.Within.activation`: those that it does come to in a run are among them.
-/

namespace Routecraft.Machine

open Bytecode

namespace Program

variable {p : Program} {f g : Frame} {callers callers' : List Frame} {s s' : Store}

/-- **What a step can do** when the run goes on: it goes on in the same call, or enters another one while
its own waits, or goes back to the caller. -/
theorem advance_eq_running (h : s.perform (p.advance f callers) = (.ok (.running g callers'), s')) :
    (callers' = callers ∧ f.SameCall g) ∨ (∃ w, callers' = w :: callers ∧ f.SameCall w) ∨
      ∃ w v, callers = w :: callers' ∧ g = w.receive f.keeps v := by
  have hf : f.SameCall { f with pc := f.pc + 1 } := ⟨rfl, rfl, rfl⟩
  obtain ⟨i, -, ⟨hdoes, hcallers⟩ | ⟨w, hdoes, hcallers⟩ | ⟨v, w, -, hcallers, hg⟩⟩ := advance_cases h
  · exact .inl ⟨hcallers, hf.trans (hdoes.sameCall.1 g rfl)⟩
  · exact .inr (.inl ⟨w, hcallers, hf.trans (hdoes.sameCall.2 g w rfl)⟩)
  · exact .inr (.inr ⟨w, v, hcallers, hg⟩)

/-! ## Activations -/

/-- The frames that the call of `f₀` can come to. Between its steps the store may become any other, and the
calls that it makes may give back any value. -/
inductive Activation (p : Program) (f₀ : Frame) : Frame → Prop
  | entry : Activation p f₀ f₀
  | step {f g : Frame} {callers : List Frame} {s s' : Store} : Activation p f₀ f →
      s.perform (p.advance f callers) = (.ok (.running g callers), s') → Activation p f₀ g
  /-- A method that was called gives back a value. -/
  | back {f g w : Frame} {callers : List Frame} {s s' : Store} (v : Value) : Activation p f₀ f →
      s.perform (p.advance f callers) = (.ok (.running g (w :: callers)), s') →
      Activation p f₀ (w.receive g.keeps v)

/-- The states of a run from the entry into the call of `f₀` up to its return: the running frame, the frames
that wait above the callers of `f₀`, and the store. -/
inductive Within (p : Program) (callers : List Frame) (f₀ : Frame) (s₀ : Store) :
    Frame → List Frame → Store → Prop
  | entry : Within p callers f₀ s₀ f₀ [] s₀
  | step {f g : Frame} {inner inner' : List Frame} {s s' : Store} :
      Within p callers f₀ s₀ f inner s →
      s.perform (p.advance f (inner ++ callers)) = (.ok (.running g (inner' ++ callers)), s') →
      Within p callers f₀ s₀ g inner' s'

/-- The call of `f₀` is at a frame of its own, or waits at one for the call above it. -/
def Awaits (p : Program) (f₀ : Frame) : Frame → List Frame → Prop
  | f, [] => p.Activation f₀ f
  | f, [w] => ∀ v, p.Activation f₀ (w.receive f.keeps v)
  | _, w :: w' :: inner => Awaits p f₀ w (w' :: inner)

variable {f₀ : Frame} {inner : List Frame}

/-- What a caller waits for depends only on what the frame below keeps. -/
theorem Awaits.congr {w : Frame} (h : p.Awaits f₀ f (w :: inner)) (hkeeps : g.keeps = f.keeps) :
    p.Awaits f₀ g (w :: inner) := by
  cases inner with
  | nil =>
      intro v
      rw [hkeeps]
      exact h v
  | cons w' inner => exact h

/-- The callers of a run wait, each for the frame above it. -/
theorem Within.awaits {s₀ : Store} (h : p.Within callers f₀ s₀ f inner s) : p.Awaits f₀ f inner := by
  induction h with
  | entry => exact .entry
  | @step f g inner inner' s s' hrun hstep ih =>
      rcases advance_eq_running hstep with ⟨hinner, hsame⟩ | ⟨w, hinner, hsame⟩ | ⟨w, v, hinner, rfl⟩
      · -- The step goes on in its call.
        obtain rfl := List.append_cancel_right hinner
        cases inner' with
        | nil => exact .step ih hstep
        | cons w inner => exact ih.congr hsame.keeps
      · -- The step enters another call.
        rw [← List.cons_append] at hinner
        obtain rfl := List.append_cancel_right hinner
        cases inner with
        | nil => exact fun v => .back v ih hstep
        | cons w' inner => exact ih.congr hsame.keeps
      · -- The step goes back to its caller, which is not below the call of `f₀`.
        cases inner with
        | nil =>
            have := congrArg List.length hinner
            simp at this
            omega
        | cons w' inner =>
            obtain ⟨rfl, hrest⟩ := List.cons.inj hinner
            obtain rfl := List.append_cancel_right hrest
            cases inner with
            | nil => exact ih v
            | cons w'' inner => exact Awaits.congr (f := w') ih (w'.sameCall_receive _ v).keeps

/-- Whenever the call of `f₀` is the one that runs, its frame is one that it can come to. -/
theorem Within.activation {s₀ : Store} (h : p.Within callers f₀ s₀ f [] s) : p.Activation f₀ f :=
  h.awaits

end Program

end Routecraft.Machine
