import Routecraft.Proofs.Execution.Actions

/-!
# What actions guard

An action may fail after it has changed the store, and what it has changed stays changed. So a property of stores holds
throughout only if actions keep it whatever comes of them. Errors for want of a unit are told apart from all others.

* `Guards`: an action keeps a property of stores.
* `Guards.bind`, `Guards.mapM`: actions one after the other.
* `Guards.get`, `Guards.modify`, `Guards.modifyGet`: what an action does to the store itself.
-/

namespace Routecraft.Machine

open Bytecode

variable {α β : Type} {I : Store → Prop} {R R' : String → Prop}

/-- An action guards a property of stores: it leaves a store with the property behind if it is carried out on one. Then
a result has a property too, and so has the name of a unit that the action fails for want of. -/
def Guards (I : Store → Prop) (R : String → Prop) (a : Action α) (Q : α → Prop) : Prop :=
  ∀ s : Store, I s → I (s.perform a).2 ∧ (∀ x, (s.perform a).1 = .ok x → Q x) ∧
    ∀ name, (s.perform a).1 = .error (.unknownUnit name) → R name

namespace Guards

variable {a : Action α} {f : α → Action β} {Q Q' : α → Prop} {S : β → Prop}

theorem pure {x : α} (h : Q x) : Guards I R (pure x) Q := by
  intro s hs
  refine ⟨hs, fun y hy => ?_, nofun⟩
  cases hy
  exact h

theorem throw {e : MachineError} (h : ∀ name, e = .unknownUnit name → R name) : Guards I R (throw e : Action α) Q := by
  intro s hs
  refine ⟨hs, nofun, fun name hname => ?_⟩
  cases hname
  exact h name rfl

/-- Guarded actions one after the other are guarded. -/
theorem bind (ha : Guards I R a Q) (hf : ∀ x, Q x → Guards I R (f x) S) : Guards I R (a >>= f) S := by
  intro s hs
  obtain ⟨hs₁, hok, herror⟩ := ha s hs
  rw [Store.perform_bind]
  rcases hperform : s.perform a with ⟨e | x, s₁⟩ <;> rw [hperform] at hs₁ hok herror
  · refine ⟨hs₁, nofun, fun name hname => herror name ?_⟩
    cases hname
    rfl
  · exact hf x (hok x rfl) s₁ hs₁

theorem imp (ha : Guards I R a Q) (hQ : ∀ x, Q x → Q' x) (hR : ∀ name, R name → R' name) : Guards I R' a Q' := by
  intro s hs
  obtain ⟨hs', hok, herror⟩ := ha s hs
  exact ⟨hs', fun x hx => hQ x (hok x hx), fun name hname => hR name (herror name hname)⟩

theorem get : Guards I R (get : Action Store) I := by
  intro s hs
  refine ⟨hs, fun x hx => ?_, nofun⟩
  cases hx
  exact hs

theorem modify {change : Store → Store} (h : ∀ s, I s → I (change s)) :
    Guards I R (modify change : Action PUnit) fun _ => True :=
  fun s hs => ⟨h s hs, fun _ _ => trivial, nofun⟩

/-- A change of the store with a result is guarded if it keeps the invariant and the result fits. -/
theorem modifyGet {change : Store → α × Store} (h : ∀ s, I s → I (change s).2 ∧ Q (change s).1) :
    Guards I R (modifyGet change : Action α) Q := by
  intro s hs
  refine ⟨(h s hs).1, fun x hx => ?_, nofun⟩
  cases hx
  exact (h s hs).2

/-- Passing on an outcome is guarded if the value fits, or the error does. -/
theorem orFail {x : Except MachineError α} (h : ∀ y, x = .ok y → Q y)
    (he : ∀ name, x = .error (.unknownUnit name) → R name) : Guards I R (orFail x) Q := by
  cases x with
  | ok y => exact .pure (h y rfl)
  | error e => exact .throw fun name hname => he name (congrArg Except.error hname)

theorem orUnitFault {x : Except UnitError α} (h : ∀ y, x = .ok y → Q y) : Guards I R (orUnitFault x) Q := by
  cases x with
  | ok y => exact .pure (h y rfl)
  | error e => exact .throw nofun

/-- Actions done for each of a list are guarded if each is. -/
theorem mapM {xs : List α} {f : α → Action β} (h : ∀ x ∈ xs, Guards I R (f x) S) :
    Guards I R (xs.mapM f) fun ys => ∀ y ∈ ys, S y := by
  induction xs with
  | nil => exact .pure (by simp)
  | cons x xs ih =>
      rw [List.mapM_cons]
      refine .bind (h x List.mem_cons_self) fun y hy => .bind (ih fun z hz => h z (List.mem_cons_of_mem x hz)) ?_
      intro ys hys
      exact .pure (List.forall_mem_cons.mpr ⟨hy, hys⟩)

/-- An error that tells of a value is no search for a unit, unless its wording is one. -/
theorem throwTelling (v : Value) (error : String → MachineError) (h : ∀ text name, error text ≠ .unknownUnit name) :
    Guards I R (throwTelling v error : Action α) Q :=
  .bind .get fun s _ => .throw fun name hname =>
    absurd hname (s.telling_of (P := (· ≠ .unknownUnit name)) (h · name) nofun)

theorem mismatch (expected : String) (v : Value) : Guards I R (mismatch expected v : Action α) Q :=
  throwTelling v _ fun _ _ => nofun

end Guards

end Routecraft.Machine
