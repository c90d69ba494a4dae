import Routecraft.Proofs.Verification.Slots
import Routecraft.Proofs.Verification.Subtyping

/-!
# The types of values

A value is of a slot type by its kind or its class alone, whatever the store. Types go along with what the checker
does at joins, at casts and where it accepts a value for a data type, if nothing is above the root: the checker takes
every class to be below the root, without an edge, and would lose a class that it follows through the root.

* `Value.HasType`: a value is of a slot type.
* `hasType_sense`, `hasType_join`, `Accepted.hasType`: types go along with what the checker does.
-/

namespace Routecraft.Machine

open Bytecode

namespace Value

/-- A value is of a slot type: it is of the kind, or it is null or of a class below the one that the type names, or it
is an object of exactly this class. -/
def HasType (h : Hierarchy) : SlotType → Value → Prop
  | .int, v => ∃ n, v = .int n
  | .long, v => ∃ n, v = .long n
  | .float, v => ∃ bits, v = .float bits
  | .double, v => ∃ bits, v = .double bits
  | .null, v => v = .null
  | .ref name, v => v = .null ∨ ∃ className, v.className? = some className ∧ h.isSubtype className name = true
  | .raw name, v => ∃ number, v = .object name number

end Value

variable {h h' : Hierarchy} {x y z : SlotType} {v : Value} {type : DataType}

/-- A value of a class is of the classes above. -/
theorem hasType_ref_mono (hroot : h.RootOnTop) {name sup : String} (hv : v.HasType h (.ref name))
    (hsup : h.isSubtype name sup = true) : v.HasType h (.ref sup) := by
  rcases hv with rfl | ⟨className, hclass, hbelow⟩
  · exact .inl rfl
  · exact .inr ⟨className, hclass, hroot.trans hbelow hsup⟩

/-- A declared reference is one of its class. -/
theorem hasType_of_reference (htype : type.isReference) : SlotType.of type = .ref type.className := by
  cases type <;> first | rfl | simp [DataType.isReference] at htype

/-- A value of a type that the checker accepts for a data type is of this type. -/
theorem Accepted.hasType (hroot : h.RootOnTop) (hle : ∀ a b, h'.isSubtype a b = true → h.isSubtype a b = true)
    (hv : Accepted h' (Value.HasType h) type v) : v.HasType h (.of type) := by
  obtain ⟨x, hx, hv⟩ := hv
  -- Primitive types are accepted as they are; null and classes below stand for references.
  unfold Hierarchy.accepts at hx
  split at hx
  case h_9 =>
    rw [hasType_of_reference hx]
    exact .inl hv
  case h_10 => exact hasType_ref_mono hroot hv (hle _ _ hx)
  case h_11 => exact hasType_ref_mono hroot hv (hle _ _ hx)
  case h_12 => simp at hx
  all_goals exact hv

/-- A value of one of two types is of their join. -/
theorem hasType_join (hroot : h.RootOnTop) (hle : ∀ a b, h'.isSubtype a b = true → h.isSubtype a b = true)
    (hz : h'.join x y = some z) (hv : v.HasType h x ∨ v.HasType h y) : v.HasType h z := by
  cases Hierarchy.join_eq_some_iff.mp hz with
  | same => exact hv.elim id id
  | nullLeft => exact hv.elim .inl id
  | nullRight => exact hv.elim id .inl
  | right hne hab => exact hv.elim (fun hv => hasType_ref_mono hroot hv (hle _ _ hab)) id
  | left hne hab hba => exact hv.elim id fun hv => hasType_ref_mono hroot hv (hle _ _ hba)
  | root =>
      exact hv.elim (fun hv => hasType_ref_mono hroot hv (h.isSubtype_root _))
        fun hv => hasType_ref_mono hroot hv (h.isSubtype_root _)

/-- To be of a type goes along with the values that instructions bring up. -/
theorem hasType_sense (p : Program) : p.Sense (Value.HasType p.hierarchy) where
  null := rfl
  int n := ⟨n, rfl⟩
  const := by
    intro x t v s s' ht hv
    cases x <;> simp [Checker.loadType, constantValue] at ht hv <;> obtain ⟨rfl, -⟩ := hv <;> subst ht
    case string => exact .inr ⟨_, rfl, p.hierarchy.isSubtype_self _⟩
    case classRef => exact .inr ⟨_, rfl, p.hierarchy.isSubtype_self _⟩
    all_goals exact ⟨_, rfl⟩
  array element number := .inr ⟨_, rfl, p.hierarchy.isSubtype_self _⟩
  cast := by
    intro t name v ht hv hclass
    cases t <;> simp [SlotType.isReference] at ht
    case null => exact .inl hv
    case ref =>
      rcases hv with rfl | ⟨className, hv, -⟩
      · exact .inl rfl
      · exact .inr ⟨className, hv, hclass className hv⟩

/-- To be of a type is kept by joins. -/
theorem hasType_joinOrder (hroot : h.RootOnTop) (hle : ∀ a b, h'.isSubtype a b = true → h.isSubtype a b = true) :
    JoinOrder h' (Above fun _ : Unit => Value.HasType h) :=
  above_joinOrder fun _ _ _ _ _ => hasType_join hroot hle

end Routecraft.Machine
