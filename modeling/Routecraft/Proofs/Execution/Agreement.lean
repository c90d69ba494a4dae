import Routecraft.Machine.Run

/-!
# Programs that concur

All that a step asks its program is which unit has a name, whether a class is below another one, and what the code of
the host is. Programs that answer these questions alike do the same, step by step; with the same limit, they do the
same whatever they are asked for.

* `Program.Concurs`: programs that answer alike.
* `Program.Concurs.advance`, `Program.Concurs.run`: their steps and runs are the same.
* `Program.Concurs.invoke` and those behind it: so is all that the host may ask for.
-/

namespace Routecraft.Machine

open Bytecode

/-- Two programs that answer alike what their steps ask. -/
structure Program.Concurs (p q : Program) : Prop where
  unit? : p.unit? = q.unit?
  isSubtype : p.hierarchy.isSubtype = q.hierarchy.isSubtype
  statics : p.statics = q.statics
  stubs : p.stubs = q.stubs

namespace Program.Concurs

variable {p q : Program}

/-! ## Steps -/

/-- Programs that concur make the same calls. -/
theorem call (h : p.Concurs q) : p.call = q.call := by
  funext receiver name args
  unfold Program.call
  rw [h.unit?, h.stubs]

theorem callStatic (h : p.Concurs q) : p.callStatic = q.callStatic := by
  funext owner name args
  unfold Program.callStatic
  rw [h.statics]

theorem stepCall (h : p.Concurs q) : p.stepCall = q.stepCall := by
  funext f callers op k
  unfold Program.stepCall
  rw [h.call, h.callStatic]

theorem stepConst (h : p.Concurs q) : p.stepConst = q.stepConst := by
  funext f op k
  unfold Program.stepConst
  rw [h.isSubtype]

theorem step (h : p.Concurs q) : p.step = q.step := by
  funext f callers i
  unfold Program.step
  rw [h.stepCall, h.stepConst]

/-- **Programs that concur take the same steps.** -/
theorem advance (h : p.Concurs q) : p.advance = q.advance := by
  funext f callers
  unfold Program.advance
  rw [h.step]

/-! ## Runs -/

/-- **Programs that concur run alike** if their limits are the same, which show in the error. -/
theorem run (h : p.Concurs q) (hlimit : p.stepLimit = q.stepLimit) : p.run = q.run := by
  funext budget
  induction budget with
  | zero =>
      funext f callers
      unfold Program.run
      rw [hlimit]
  | succ budget ih =>
      funext f callers
      unfold Program.run
      rw [h.advance, ih]

/-- Programs that concur invoke alike, with the same limit. -/
theorem invoke (h : p.Concurs q) (hlimit : p.stepLimit = q.stepLimit) : p.invoke = q.invoke := by
  funext receiver name args
  unfold Program.invoke
  rw [h.call, h.run hlimit, hlimit]

theorem instantiate (h : p.Concurs q) (hlimit : p.stepLimit = q.stepLimit) : p.instantiate = q.instantiate := by
  funext unit provider
  unfold Program.instantiate
  rw [h.unit?, h.invoke hlimit]

theorem install (h : p.Concurs q) (hlimit : p.stepLimit = q.stepLimit) : p.install = q.install := by
  funext unit provider router
  unfold Program.install
  rw [h.instantiate hlimit, h.invoke hlimit]

theorem dispatch (h : p.Concurs q) (hlimit : p.stepLimit = q.stepLimit) : p.dispatch = q.dispatch := by
  funext handler exchange
  unfold Program.dispatch
  rw [h.invoke hlimit]

end Program.Concurs

end Routecraft.Machine
