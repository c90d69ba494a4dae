import Mathlib.Data.List.Forall2

/-!
# Steps that may fail

A sequence of steps succeeds with a result exactly when each of its steps does.

* `bind_eq_ok`, `run_bind_eq_ok`: one step and what comes after it; the steps may change a state.
* `forM_eq_ok`, `mapM_eq_ok`: a check of all elements of a list, or a result for each.
* `exists_of_mapM_eq_error`: the element for which there is none.
* `exists_right_of_mem`, `exists_left_of_mem`: what an element has to do with one of the other list.
-/

namespace Routecraft

variable {ε α β : Type}

/-- What comes after a step that succeeds. -/
theorem bind_eq_ok {x : Except ε α} {f : α → Except ε β} {b : β} :
    (x >>= f) = .ok b ↔ ∃ a, x = .ok a ∧ f a = .ok b := by
  cases x <;> simp [bind, Except.bind]

/-- After a step that succeeds comes the rest. -/
theorem ok_bind (a : α) (f : α → Except ε β) : (.ok a >>= f) = f a := rfl

/-- What comes after a step that succeeds, where steps change a state. -/
theorem run_bind_eq_ok {σ : Type} {x : ExceptT ε (StateM σ) α} {f : α → ExceptT ε (StateM σ) β} {s s' : σ} {b : β} :
    (x >>= f).run.run s = (.ok b, s') ↔
      ∃ a s₁, x.run.run s = (.ok a, s₁) ∧ (f a).run.run s₁ = (.ok b, s') := by
  show StateT.bind x (ExceptT.bindCont f) s = _ ↔ _
  rcases h : x.run.run s with ⟨e | a, s₁⟩
  · simp only [StateT.bind, show x s = _ from h, bind, ExceptT.bindCont]
    constructor
    · intro hb
      cases hb
    · rintro ⟨_, _, hx, -⟩
      cases hx
  · simp only [StateT.bind, show x s = _ from h, bind, ExceptT.bindCont]
    constructor
    · intro hb
      exact ⟨a, s₁, rfl, hb⟩
    · rintro ⟨_, _, hx, hb⟩
      cases hx
      exact hb

/-- A list passes a check if all its elements do. -/
theorem forM_eq_ok {check : α → Except ε PUnit} {xs : List α} :
    xs.forM check = .ok () ↔ ∀ x ∈ xs, check x = .ok () := by
  induction xs with
  | nil => simp [pure, Except.pure]
  | cons x xs ih =>
      show (check x >>= fun _ => xs.forM check) = .ok () ↔ _
      rw [bind_eq_ok, List.forall_mem_cons, ← ih]
      constructor
      · rintro ⟨_, hx, hxs⟩
        exact ⟨hx, hxs⟩
      · rintro ⟨hx, hxs⟩
        exact ⟨(), hx, hxs⟩

/-- There is a result for each element of a list. -/
theorem mapM_eq_ok {f : α → Except ε β} {xs : List α} {ys : List β} :
    xs.mapM f = .ok ys ↔ List.Forall₂ (fun x y => f x = .ok y) xs ys := by
  induction xs generalizing ys with
  | nil =>
      rw [List.mapM_nil, List.forall₂_nil_left_iff]
      constructor
      · intro h
        cases h
        rfl
      · rintro rfl
        rfl
  | cons x xs ih =>
      rw [List.mapM_cons, bind_eq_ok, List.forall₂_cons_left_iff]
      constructor
      · rintro ⟨y, hy, h⟩
        obtain ⟨rest, hrest, h⟩ := bind_eq_ok.mp h
        cases h
        exact ⟨y, rest, hy, ih.mp hrest, rfl⟩
      · rintro ⟨y, rest, hy, hrest, rfl⟩
        exact ⟨y, hy, bind_eq_ok.mpr ⟨rest, ih.mpr hrest, rfl⟩⟩

/-- What fails with a step behind it that cannot fail has failed by itself. -/
theorem error_of_bind_pure {x : Except ε α} {f : α → β} {e : ε} (h : (x >>= fun a => pure (f a)) = .error e) :
    x = .error e := by
  cases x with
  | ok a => cases h
  | error e' =>
      cases h
      rfl

/-- If there are not results for all elements of a list, there is an element without one. -/
theorem exists_of_mapM_eq_error {f : α → Except ε β} {xs : List α} {e : ε} (h : xs.mapM f = .error e) :
    ∃ x ∈ xs, f x = .error e := by
  induction xs with
  | nil => cases h
  | cons x xs ih =>
      rw [List.mapM_cons] at h
      cases hx : f x with
      | error e' =>
          rw [hx] at h
          cases h
          exact ⟨x, List.mem_cons_self, hx⟩
      | ok y =>
          rw [hx, ok_bind] at h
          obtain ⟨x', hx', hfail⟩ := ih (error_of_bind_pure h)
          exact ⟨x', List.mem_cons_of_mem x hx', hfail⟩

theorem exists_right_of_mem {R : α → β → Prop} {xs : List α} {ys : List β} (h : List.Forall₂ R xs ys) {x : α}
    (hx : x ∈ xs) : ∃ y ∈ ys, R x y := by
  induction h with
  | nil => simp at hx
  | @cons _ y _ _ hxy _ ih =>
      rcases List.mem_cons.mp hx with rfl | hx
      · exact ⟨y, List.mem_cons_self, hxy⟩
      · obtain ⟨y', hy', hxy'⟩ := ih hx
        exact ⟨y', List.mem_cons_of_mem _ hy', hxy'⟩

theorem exists_left_of_mem {R : α → β → Prop} {xs : List α} {ys : List β} (h : List.Forall₂ R xs ys) {y : β}
    (hy : y ∈ ys) : ∃ x ∈ xs, R x y :=
  exists_right_of_mem (R := flip R) h.flip hy

end Routecraft
