import Mathlib.Algebra.Order.BigOperators.Group.List
import Mathlib.Algebra.Order.Group.Nat
import Mathlib.Data.Nat.Cast.Basic
import Mathlib.Data.Finset.Card
import Routecraft.Proofs.Verification.Effects
import Routecraft.Proofs.Verification.Subtyping

/-!
# How far frame types can rise

A join replaces classes by classes above them. If no two different classes are below each other, a class that
is replaced has fewer classes above it from then on, so that a frame type with finitely many class names to
choose from can only rise so often.

* `Hierarchy.Antisymmetric`: no two different classes are below each other.
* `Hierarchy.room`, `FrameType.room`: how far a slot type, or a frame type, can still rise.
* `FrameType.join_room`: a join that changes a frame type leaves it less room.
-/

namespace Routecraft.Bytecode

/-! ## Classes -/

namespace Hierarchy

variable {h : Hierarchy} {names : Finset String} {a b d : String} {s t z : SlotType}

/-- No two different classes are below each other. -/
def Antisymmetric (h : Hierarchy) : Prop :=
  ∀ a b, h.isSubtype a b = true → h.isSubtype b a = true → a = b

/-- An edge out of the root would make a cycle. -/
theorem Antisymmetric.rootOnTop (hanti : h.Antisymmetric) : h.RootOnTop :=
  fun sup hsup => hanti sup rootClass (h.isSubtype_root sup) hsup

/-- The classes among `names` that are properly above a class. -/
def above (h : Hierarchy) (names : Finset String) (a : String) : Finset String :=
  names.filter fun b => h.isSubtype a b = true ∧ a ≠ b

/-- No more names are above another than there are. -/
theorem card_above_le (h : Hierarchy) (names : Finset String) (a : String) :
    (h.above names a).card ≤ names.card := Finset.card_filter_le _ _

/-- A class that is properly above another one has fewer classes above it. -/
theorem Antisymmetric.card_above_lt (hanti : h.Antisymmetric) (hab : h.isSubtype a b = true) (hne : a ≠ b)
    (hb : b ∈ names) : (h.above names b).card < (h.above names a).card := by
  apply Finset.card_lt_card
  rw [Finset.ssubset_iff_of_subset]
  · refine ⟨b, ?_, ?_⟩
    · exact Finset.mem_filter.mpr ⟨hb, hab, hne⟩
    · intro hmem
      exact (Finset.mem_filter.mp hmem).2.2 rfl
  · intro d hd
    obtain ⟨hmem, hbd, -⟩ := Finset.mem_filter.mp hd
    -- Whatever is above the upper class is above the lower one, too, and is not the lower one itself.
    refine Finset.mem_filter.mpr ⟨hmem, hanti.rootOnTop.trans hab hbd, ?_⟩
    rintro rfl
    exact hne (hanti a b hab hbd)

/-! ## Slot types -/

/-- How far a slot type can still rise over the classes among `names`. -/
def room (h : Hierarchy) (names : Finset String) : SlotType → Nat
  | .null => names.card + 1
  | .ref a => (h.above names a).card
  | _ => 0

/-- A type can be joined no more often than there are names, and once more. -/
theorem room_le (h : Hierarchy) (names : Finset String) (t : SlotType) : h.room names t ≤ names.card + 1 := by
  cases t with
  | null => exact Nat.le_refl _
  | ref a => exact Nat.le_succ_of_le (h.card_above_le names a)
  | _ => exact Nat.zero_le _

/-- How far the type of a local can still rise: it may become unset as well. -/
def localRoom (h : Hierarchy) (names : Finset String) : Option SlotType → Nat
  | none => 0
  | some t => h.room names t + 1

/-- A local can be joined no more often than there are names, and twice more. -/
theorem localRoom_le (h : Hierarchy) (names : Finset String) (t : Option SlotType) :
    h.localRoom names t ≤ names.card + 2 := by
  cases t with
  | none => exact Nat.zero_le _
  | some t => exact Nat.succ_le_succ (h.room_le names t)

end Hierarchy

/-- The class that a slot type names, if it names one, is among `names`. -/
def SlotType.Among (names : Finset String) : SlotType → Prop
  | .ref a => a ∈ names
  | .raw a => a ∈ names
  | _ => True

namespace Hierarchy

variable {h : Hierarchy} {names : Finset String} {a b : String} {s t z : SlotType}

/-- What a join can be: one of its sides, or the root. -/
theorem among_join (hroot : rootClass ∈ names) (hs : s.Among names) (ht : t.Among names)
    (hz : h.join s t = some z) : z.Among names := by
  cases join_eq_some_iff.mp hz with
  | same => exact hs
  | nullLeft => exact ht
  | nullRight => exact hs
  | right => exact ht
  | left => exact hs
  | root => exact hroot

/-- **A join that changes a slot type** leaves it less room. -/
theorem Antisymmetric.join_room (hanti : h.Antisymmetric) (hroot : rootClass ∈ names) (ht : t.Among names)
    (hz : h.join s t = some z) : z = s ∨ h.room names z < h.room names s := by
  cases join_eq_some_iff.mp hz with
  | same => exact .inl rfl
  | nullLeft b => exact .inr (Nat.lt_succ_of_le (h.card_above_le names b))
  | nullRight => exact .inl rfl
  | right hne hab => exact .inr (hanti.card_above_lt hab hne ht)
  | left => exact .inl rfl
  | root hne hab hba =>
      refine .inr (hanti.card_above_lt (h.isSubtype_root _) ?_ hroot)
      -- Were the class the root, the other one would be below it.
      rintro rfl
      exact hba (h.isSubtype_root _)

end Hierarchy

/-! ## Frame types -/

/-- A list each of whose places is the same as before or has less room is the same, or has less room. -/
theorem sum_map_lt_of_forall₂ {α : Type} {r : α → Nat} {xs zs : List α}
    (hall : List.Forall₂ (fun x z => z = x ∨ r z < r x) xs zs) :
    zs = xs ∨ (zs.map r).sum < (xs.map r).sum := by
  induction hall with
  | nil => exact .inl rfl
  | @cons x z xs zs hz _ ih =>
      simp only [List.map_cons, List.sum_cons]
      rcases hz with rfl | hz
      · rcases ih with rfl | ih
        · exact .inl rfl
        · exact .inr (by omega)
      · rcases ih with rfl | ih
        · exact .inr (by omega)
        · exact .inr (by omega)

namespace FrameType

variable {h : Hierarchy} {names : Finset String} {size : Nat} {f g k : FrameType}

/-- The slots of a frame type name classes among `names`, and there are at most `size` locals. -/
structure Among (names : Finset String) (size : Nat) (f : FrameType) : Prop where
  stack : ∀ t ∈ f.stack, t.Among names
  locals : ∀ t, some t ∈ f.locals → t.Among names
  size_le : f.locals.length ≤ size

/-- How far a frame type can still rise: its slots may rise, and it may get locals that are not set. -/
def room (h : Hierarchy) (names : Finset String) (size : Nat) (f : FrameType) : Nat :=
  (f.stack.map (h.room names)).sum + (f.locals.map (h.localRoom names)).sum + (size - f.locals.length)

/-- What holds of each join holds of joined stacks. -/
theorem joinStacks_forall₂ {xs ys zs : List SlotType} {R : SlotType → SlotType → Prop}
    (hzs : joinStacks h xs ys = some zs) (hR : ∀ x y z, y ∈ ys → h.join x y = some z → R x z) :
    List.Forall₂ R xs zs := by
  obtain ⟨hlength, hlength', hjoin⟩ := joinStacks_eq_some hzs
  rw [List.forall₂_iff_get]
  refine ⟨hlength'.symm, ?_⟩
  intro n hx hz
  have hy : n < ys.length := hlength ▸ hx
  exact hR _ _ _ (List.getElem_mem hy) (hjoin n _ _ _ (List.getElem?_eq_getElem hx) (List.getElem?_eq_getElem hy)
    (List.getElem?_eq_getElem hz))

/-- The locals of a join, compared with those before it and as many that are not set as were joined in. -/
theorem joinLocals_forall₂ (xs : List (Option SlotType)) {ys : List (Option SlotType)}
    {R : Option SlotType → Option SlotType → Prop}
    (hnone : ∀ x, R x none) (hR : ∀ x y z, some y ∈ ys → h.join x y = some z → R (some x) (some z)) :
    List.Forall₂ R (xs ++ List.replicate (max xs.length ys.length - xs.length) none) (joinLocals h xs ys) := by
  rw [List.forall₂_iff_get]
  have hlength := length_joinLocals (h := h) xs ys
  refine ⟨by simp [hlength], ?_⟩
  intro n hx hz
  rcases hlocal : (joinLocals h xs ys).get ⟨n, hz⟩ with _ | z
  · exact hnone _
  · have hz' : (joinLocals h xs ys)[n]? = some (some z) := by
      rw [List.getElem?_eq_getElem hz]
      exact congrArg some hlocal
    obtain ⟨x, y, hxs, hys, hjoin⟩ := joinLocals_eq_some hz'
    have hpadded : (xs ++ List.replicate (max xs.length ys.length - xs.length) none).get ⟨n, hx⟩ = some x := by
      obtain ⟨hn, hget⟩ := List.getElem?_eq_some_iff.mp hxs
      rw [List.get_eq_getElem, List.getElem_append_left hn, hget]
    rw [hpadded]
    exact hR x y z (List.mem_of_getElem? hys) hjoin

/-- What comes together in a join names classes among `names` afterwards too. -/
theorem Among.join (hroot : rootClass ∈ names) (hf : f.Among names size) (hg : g.Among names size)
    (hk : f.join h g = some k) : k.Among names size := by
  obtain ⟨hstack, hlocals⟩ := join_eq_some hk
  refine ⟨?_, ?_, ?_⟩
  · intro t ht
    obtain ⟨hlength, hlength', hjoin⟩ := joinStacks_eq_some hstack
    obtain ⟨n, hn, rfl⟩ := List.getElem_of_mem ht
    have hx : n < f.stack.length := hlength' ▸ hn
    have hy : n < g.stack.length := hlength ▸ hx
    exact Hierarchy.among_join hroot (hf.stack _ (List.getElem_mem hx)) (hg.stack _ (List.getElem_mem hy))
      (hjoin n _ _ _ (List.getElem?_eq_getElem hx) (List.getElem?_eq_getElem hy) (List.getElem?_eq_getElem hn))
  · intro t ht
    rw [hlocals] at ht
    obtain ⟨n, hn⟩ := List.mem_iff_getElem?.mp ht
    obtain ⟨x, y, hx, hy, hjoin⟩ := joinLocals_eq_some hn
    exact Hierarchy.among_join hroot (hf.locals x (List.mem_of_getElem? hx)) (hg.locals y (List.mem_of_getElem? hy))
      hjoin
  · rw [hlocals, length_joinLocals]
    exact Nat.max_le.mpr ⟨hf.size_le, hg.size_le⟩

/-- **A join that changes a frame type** leaves it less room. -/
theorem join_room (hanti : h.Antisymmetric) (hroot : rootClass ∈ names) (hf : f.Among names size)
    (hg : g.Among names size) (hk : f.join h g = some k) : k = f ∨ k.room h names size < f.room h names size := by
  obtain ⟨hstack, hlocals⟩ := join_eq_some hk
  have hsize := (hf.join hroot hg hk).size_le
  have hstacks := sum_map_lt_of_forall₂ (r := h.room names) (joinStacks_forall₂ hstack
    (fun x y z hy hz => hanti.join_room hroot (hg.stack y hy) hz))
  have hpadded := sum_map_lt_of_forall₂ (r := h.localRoom names) (joinLocals_forall₂ f.locals
    (R := fun x z => z = x ∨ h.localRoom names z < h.localRoom names x)
    (fun x => by cases x with | none => exact .inl rfl | some x => exact .inr (Nat.succ_pos _))
    (fun x y z hy hz => by
      rcases hanti.join_room hroot (hg.locals y hy) hz with rfl | hlt
      · exact .inl rfl
      · exact .inr (Nat.succ_lt_succ hlt)))
  rw [← hlocals] at hpadded
  -- Locals that are not set have no room.
  have hnone : ((List.replicate (max f.locals.length g.locals.length - f.locals.length) none).map
      (h.localRoom names)).sum = 0 := by
    simp [Hierarchy.localRoom]
  have hlength : k.locals.length = max f.locals.length g.locals.length := by
    rw [hlocals, length_joinLocals]
  unfold room
  rcases hpadded with hpadded | hpadded
  · have hsum : (k.locals.map (h.localRoom names)).sum = (f.locals.map (h.localRoom names)).sum := by
      rw [hpadded, List.map_append, List.sum_append, hnone, Nat.add_zero]
    by_cases hlonger : f.locals.length < k.locals.length
    · -- The locals are those from before, and some that are not set.
      rcases hstacks with hsame | hless
      · rw [hsame]
        exact .inr (by omega)
      · exact .inr (by omega)
    · have hsame' : k.locals = f.locals := by
        rw [hpadded, show max f.locals.length g.locals.length - f.locals.length = 0 by omega]
        simp
      rcases hstacks with hsame | hless
      · left
        cases k
        cases f
        simp_all
      · rw [hsame']
        exact .inr (by omega)
  · rw [List.map_append, List.sum_append, hnone, Nat.add_zero] at hpadded
    rcases hstacks with hsame | hless
    · rw [hsame]
      exact .inr (by omega)
    · exact .inr (by omega)

/-- The room of a frame type with a stack of at most `depth` slots. -/
theorem Among.room_le (hf : f.Among names size) {depth : Nat} (hdepth : f.stack.length ≤ depth) :
    f.room h names size ≤ depth * (names.card + 1) + size * (names.card + 2) := by
  have hstack : (f.stack.map (h.room names)).sum ≤ f.stack.length * (names.card + 1) := by
    have := List.sum_le_card_nsmul (f.stack.map (h.room names)) (names.card + 1) (fun n hn => by
      obtain ⟨t, -, rfl⟩ := List.mem_map.mp hn
      exact h.room_le names t)
    simpa only [List.length_map, nsmul_eq_mul, Nat.cast_id] using this
  have hlocals : (f.locals.map (h.localRoom names)).sum ≤ f.locals.length * (names.card + 2) := by
    have := List.sum_le_card_nsmul (f.locals.map (h.localRoom names)) (names.card + 2) (fun n hn => by
      obtain ⟨t, -, rfl⟩ := List.mem_map.mp hn
      exact h.localRoom_le names t)
    simpa only [List.length_map, nsmul_eq_mul, Nat.cast_id] using this
  have hunset : size - f.locals.length ≤ (size - f.locals.length) * (names.card + 2) :=
    Nat.le_mul_of_pos_right _ (Nat.succ_pos _)
  have hsize : f.locals.length * (names.card + 2) + (size - f.locals.length) * (names.card + 2) =
      size * (names.card + 2) := by
    rw [← Nat.add_mul, Nat.add_sub_cancel' hf.size_le]
  have hdepths : f.stack.length * (names.card + 1) ≤ depth * (names.card + 1) := Nat.mul_le_mul_right _ hdepth
  unfold room
  omega

end FrameType

end Routecraft.Bytecode
