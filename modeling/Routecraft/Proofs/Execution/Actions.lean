import Routecraft.Machine.Run
import Routecraft.Proofs.Outcome

/-!
# Actions on a store

An action comes to a result or an error, and leaves a store behind. A sequence of actions is carried out
one after the other, up to the first that fails.

* `Store.perform`: what an action comes to on a store.
* `Store.perform_bind`, `Store.perform_bind_eq_ok`: one action after the other.
* `Frame.perform_pop_eq_ok`, `Frame.perform_popArgs_eq_ok`: taking operands off the stack.
-/

namespace Routecraft.Machine

open Bytecode

namespace Store

variable {α β : Type} {s s' : Store}

/-- What an action comes to on a store: its result or error, and the store that it leaves. -/
def perform (s : Store) (a : Action α) : Except MachineError α × Store := a.run.run s

@[simp] theorem perform_pure (x : α) : s.perform (pure x) = (.ok x, s) := rfl

@[simp] theorem perform_throw (e : MachineError) :
    s.perform (throw e : Action α) = (.error e, s) := rfl

@[simp] theorem perform_get : s.perform (get : Action Store) = (.ok s, s) := rfl

@[simp] theorem perform_modify (change : Store → Store) :
    s.perform (modify change : Action PUnit) = (.ok ⟨⟩, change s) := rfl

@[simp] theorem perform_modifyGet (change : Store → α × Store) :
    s.perform (modifyGet change : Action α) = (.ok (change s).1, (change s).2) := rfl

/-- One action after the other. -/
@[simp] theorem perform_bind (a : Action α) (f : α → Action β) :
    s.perform (a >>= f) =
      match s.perform a with
      | (.ok x, s') => s'.perform (f x)
      | (.error e, s') => (.error e, s') := by
  show StateT.bind a (ExceptT.bindCont f) s = _
  rcases h : s.perform a with ⟨e | x, s'⟩ <;>
    simp [StateT.bind, show a s = _ from h, bind, ExceptT.bindCont] <;> rfl

/-- An action of which something is made. -/
theorem perform_map (f : α → β) (a : Action α) : s.perform (f <$> a) = ((s.perform a).1.map f, (s.perform a).2) := by
  rw [map_eq_pure_bind, perform_bind]
  rcases s.perform a with ⟨e | x, s'⟩ <;> rfl

/-- A good outcome of a unit operation is passed on. -/
@[simp] theorem perform_orUnitFault_ok (x : α) :
    s.perform (orUnitFault (.ok x)) = (.ok x, s) := rfl

/-- A fault of a unit is an error of the machine. -/
@[simp] theorem perform_orUnitFault_error (e : UnitError) :
    s.perform (orUnitFault (.error e) : Action α) = (.error (.unit e), s) := rfl

@[simp] theorem perform_orFail_ok (x : α) : s.perform (orFail (.ok x)) = (.ok x, s) := rfl

@[simp] theorem perform_orFail_error (e : MachineError) :
    s.perform (orFail (.error e) : Action α) = (.error e, s) := rfl

@[simp] theorem perform_throwTelling (v : Value) (error : String → MachineError) :
    s.perform (throwTelling v error : Action α) = (.error (s.telling v error), s) := rfl

@[simp] theorem perform_mismatch (expected : String) (v : Value) :
    s.perform (mismatch expected v : Action α) = (.error (s.telling v (.typeMismatch expected)), s) := rfl

/-- What is so for all texts, and for a run without an end, is so for an error that tells of a value. -/
theorem telling_of {P : MachineError → Prop} {v : Value} {error : String → MachineError}
    (h : ∀ text, P (error text)) (hendless : P .endless) : P (s.telling v error) := by
  unfold telling
  cases s.display? v with
  | none => exact hendless
  | some text => exact h text

/-- A sequence succeeds if both of its actions do. -/
theorem perform_bind_eq_ok {a : Action α} {f : α → Action β} {y : β} :
    s.perform (a >>= f) = (.ok y, s') ↔
      ∃ x s₁, s.perform a = (.ok x, s₁) ∧ s₁.perform (f x) = (.ok y, s') :=
  run_bind_eq_ok

/-- An action that passes an outcome on succeeds if the outcome is good, and changes nothing. -/
theorem perform_orUnitFault_eq_ok {x : Except UnitError α} {a : α} :
    s.perform (orUnitFault x) = (.ok a, s') ↔ x = .ok a ∧ s = s' := by
  cases x <;> simp

end Store

/-! ## Operands and locals -/

namespace Frame

variable {s s' : Store} {f g : Frame} {v : Value}

@[simp] theorem unit_push (f : Frame) (v : Value) : (f.push v).unit = f.unit := rfl
@[simp] theorem method_push (f : Frame) (v : Value) : (f.push v).method = f.method := rfl
@[simp] theorem pc_push (f : Frame) (v : Value) : (f.push v).pc = f.pc := rfl
@[simp] theorem locals_push (f : Frame) (v : Value) : (f.push v).locals = f.locals := rfl
@[simp] theorem stack_push (f : Frame) (v : Value) : (f.push v).stack = v :: f.stack := rfl
@[simp] theorem keeps_push (f : Frame) (v : Value) : (f.push v).keeps = f.keeps := rfl

@[simp] theorem pc_receive (f : Frame) (keeps : Bool) (v : Value) : (f.receive keeps v).pc = f.pc := by
  cases keeps <;> rfl

/-- The frame with operands on top, the last of them topmost. -/
def pushAll (f : Frame) (vs : List Value) : Frame := { f with stack := vs.reverse ++ f.stack }

/-- Values on top of the stack were pushed. -/
theorem exists_pushAll {args rest : List Value} (h : f.stack = args.reverse ++ rest) :
    ∃ g : Frame, f = g.pushAll args ∧ g.stack = rest ∧ g.unit = f.unit := by
  refine ⟨{ f with stack := rest }, ?_, rfl, rfl⟩
  rw [pushAll, ← h]

/-- A stack that is not empty is another with a value pushed. -/
theorem exists_push {rest : List Value} (h : f.stack = v :: rest) :
    ∃ g : Frame, f = g.push v ∧ g.stack = rest ∧ g.unit = f.unit :=
  exists_pushAll (show f.stack = [v].reverse ++ rest from h)

/-- What was pushed is popped. -/
@[simp] theorem perform_pop_push : s.perform (f.push v).pop = (.ok (v, f), s) := rfl

@[simp] theorem perform_top_push : s.perform (f.push v).top = (.ok v, s) := rfl

/-- What was pushed as arguments is popped as such. -/
@[simp] theorem perform_popArgs_pushAll (vs : List Value) :
    s.perform ((f.pushAll vs).popArgs vs.length) = (.ok (vs, f), s) := by
  simp [popArgs, pushAll]

/-- Popping succeeds just if something was pushed. -/
theorem perform_pop_eq_ok : s.perform f.pop = (.ok (v, g), s') ↔ f = g.push v ∧ s = s' := by
  obtain ⟨u, m, pc, locals, stack, keeps⟩ := f
  obtain ⟨u', m', pc', locals', stack', keeps'⟩ := g
  cases stack with
  | nil => simp [pop, push]
  | cons w stack => simp [pop, push]; grind

/-- The top is there just if something was pushed. -/
theorem perform_top_eq_ok : s.perform f.top = (.ok v, s') ↔ f.stack.head? = some v ∧ s = s' := by
  rw [top]
  cases f.stack <;> simp

/-- Arguments are popped just if as many values were pushed. -/
theorem perform_popArgs_eq_ok {count : Nat} {args : List Value} :
    s.perform (f.popArgs count) = (.ok (args, g), s') ↔
      args.length = count ∧ f = g.pushAll args ∧ s = s' := by
  constructor
  · intro h
    rw [popArgs] at h
    split at h
    · next hcount =>
      cases h
      simp [pushAll, hcount]
    · simp at h
  · rintro ⟨rfl, rfl, rfl⟩
    exact perform_popArgs_pushAll args

/-- A local is loaded just if it is there. -/
theorem perform_load_eq_ok {slot : UInt8} :
    s.perform (f.load slot) = (.ok v, s') ↔ f.locals[slot.toNat]? = some v ∧ s = s' := by
  rw [load]
  cases f.locals[slot.toNat]? <;> simp

end Frame

end Routecraft.Machine
