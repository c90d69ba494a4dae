import Mathlib.Logic.Relation
import Routecraft.Bytecode.Typing

/-!
# Subtypes as paths

The search over the edges of a hierarchy finds exactly the classes that a path leads to. It follows the edges out
of a class only once, but no path is lost: after the last time that it comes through the class it does without
them. So subtypes depend only on which edges there are, and more edges make more subtypes.

* `Hierarchy.search_iff`: the search finds what there is a path to.
* `Hierarchy.isSubtype_iff`: a class is below itself, the root, and what there is a path to.
* `Hierarchy.isSubtype_mono`, `Hierarchy.accepts_mono`: more edges.
* `Hierarchy.isSubtype_congr`, `Hierarchy.join_congr`: the same edges.
* `Hierarchy.subtypes_are_paths`: all of it for one hierarchy and for the edges of two.
-/

namespace Routecraft.Bytecode.Hierarchy

open Relation (TransGen ReflTransGen)

def Edge (edges : List (String × String)) (a b : String) : Prop := (a, b) ∈ edges

variable {edges : List (String × String)} {name a b sup : String} {seen queue : List String}

/-- The classes right above another are those that an edge leads to. -/
theorem mem_supers : b ∈ supers edges a ↔ Edge edges a b := by
  constructor
  · intro h
    obtain ⟨⟨x, y⟩, hmem, rfl⟩ := List.mem_map.mp h
    obtain ⟨hmem, hx⟩ := List.mem_filter.mp hmem
    rw [beq_iff_eq] at hx
    exact hx ▸ hmem
  · intro h
    exact List.mem_map.mpr ⟨(a, b), List.mem_filter.mpr ⟨h, by simp⟩, rfl⟩

/-- The edges that are left are those of classes not yet seen. -/
theorem mem_unseen : Edge (unseen seen edges) a b ↔ Edge edges a b ∧ a ∉ seen := by
  simp [Edge, unseen]

/-- A path out of classes that have not been seen either does without the edges out of `name`, or goes on without
them from behind its last one. -/
theorem path_unseen (name : String) (h : TransGen (Edge (unseen seen edges)) a sup) :
    TransGen (Edge (unseen (name :: seen) edges)) a sup ∨
      ∃ y, Edge edges name y ∧ ReflTransGen (Edge (unseen (name :: seen) edges)) y sup := by
  have other {a b : String} (hedge : Edge (unseen seen edges) a b) (ha : a ≠ name) :
      Edge (unseen (name :: seen) edges) a b := by
    rw [mem_unseen] at hedge ⊢
    exact ⟨hedge.1, List.not_mem_cons_of_ne_of_not_mem ha hedge.2⟩
  induction h using TransGen.head_induction_on with
  | @single a hedge =>
      by_cases ha : a = name
      · subst ha
        exact .inr ⟨sup, (mem_unseen.mp hedge).1, .refl⟩
      · exact .inl (.single (other hedge ha))
  | @head a y hedge _ ih =>
      rcases ih with hpath | hlast
      · by_cases ha : a = name
        · subst ha
          exact .inr ⟨y, (mem_unseen.mp hedge).1, hpath.to_reflTransGen⟩
        · exact .inl (.head (other hedge ha) hpath)
      · exact .inr hlast

/-- **The search is sound and complete**, although it follows each edge only once: it finds what there is a path to
from a class in the queue, over edges that are left to follow. -/
theorem search_iff :
    search edges sup seen queue = true ↔ ∃ a ∈ queue, TransGen (Edge (unseen seen edges)) a sup := by
  fun_induction search edges sup seen queue with
  | case1 => simp
  | case2 seen name queue hseen ih =>
      -- No edge that is left leads out of a class that has been seen.
      have hname : ¬ TransGen (Edge (unseen seen edges)) name sup := by
        intro hpath
        obtain ⟨y, hedge, -⟩ := TransGen.head'_iff.mp hpath
        exact (mem_unseen.mp hedge).2 hseen
      simp only [ih, List.mem_cons, exists_eq_or_imp, hname, false_or]
  | case3 seen name queue hseen hsup =>
      have hedge : Edge (unseen seen edges) name sup := mem_unseen.mpr ⟨mem_supers.mp hsup, hseen⟩
      simp only [true_iff]
      exact ⟨name, List.mem_cons_self, .single hedge⟩
  | case4 seen name queue hseen hsup ih =>
      have hfewer (a b : String) (hedge : Edge (unseen (name :: seen) edges) a b) : Edge (unseen seen edges) a b := by
        rw [mem_unseen] at hedge ⊢
        exact ⟨hedge.1, List.not_mem_of_not_mem_cons hedge.2⟩
      rw [ih]
      constructor
      · rintro ⟨a, ha, hpath⟩
        have hpath := TransGen.mono hfewer a sup hpath
        rcases List.mem_append.mp ha with ha | ha
        · exact ⟨a, List.mem_cons_of_mem name ha, hpath⟩
        · exact ⟨name, List.mem_cons_self, .head (mem_unseen.mpr ⟨mem_supers.mp ha, hseen⟩) hpath⟩
      · rintro ⟨a, ha, hpath⟩
        rcases path_unseen name hpath with hpath | ⟨y, hedge, hpath⟩
        · rcases List.mem_cons.mp ha with rfl | ha
          · obtain ⟨y, hedge, -⟩ := TransGen.head'_iff.mp hpath
            exact absurd List.mem_cons_self (mem_unseen.mp hedge).2
          · exact ⟨a, List.mem_append_left _ ha, hpath⟩
        · rcases Relation.reflTransGen_iff_eq_or_transGen.mp hpath with rfl | hpath
          · exact absurd (mem_supers.mpr hedge) hsup
          · exact ⟨y, List.mem_append_right _ (mem_supers.mpr hedge), hpath⟩

/-- A class is below itself, the root, and every class that there is a path to. -/
theorem isSubtype_iff {h : Hierarchy} :
    h.isSubtype a b = true ↔ a = b ∨ b = rootClass ∨ TransGen (Edge h.edges) a b := by
  have hall : unseen [] h.edges = h.edges := by simp [unseen]
  simp [isSubtype, search_iff, hall, or_assoc]

theorem isSubtype_self (h : Hierarchy) (a : String) : h.isSubtype a a = true := isSubtype_iff.mpr (.inl rfl)

/-- Every class is below the root. -/
theorem isSubtype_root (h : Hierarchy) (a : String) : h.isSubtype a rootClass = true :=
  isSubtype_iff.mpr (.inr (.inl rfl))

variable {h h' : Hierarchy} {d : String}

/-- No other class is above the root. -/
def RootOnTop (h : Hierarchy) : Prop := ∀ sup, h.isSubtype rootClass sup = true → sup = rootClass

/-- Subtyping is transitive, if there is no way to leave the root. -/
theorem RootOnTop.trans (hroot : h.RootOnTop) (hab : h.isSubtype a b = true) (hbd : h.isSubtype b d = true) :
    h.isSubtype a d = true := by
  rcases isSubtype_iff.mp hab with rfl | rfl | hpath
  · exact hbd
  · obtain rfl := hroot d hbd
    exact h.isSubtype_root a
  · rcases isSubtype_iff.mp hbd with rfl | rfl | hpath'
    · exact hab
    · exact h.isSubtype_root a
    · exact isSubtype_iff.mpr (.inr (.inr (hpath.trans hpath')))

/-- The root is on top if no edge leads away from it. -/
theorem rootOnTop_of_edges (hedges : ∀ e ∈ h.edges, e.1 ≠ rootClass) : h.RootOnTop := by
  intro sup hsup
  rcases isSubtype_iff.mp hsup with rfl | rfl | hpath
  · rfl
  · rfl
  · obtain ⟨y, hedge, -⟩ := TransGen.head'_iff.mp hpath
    exact absurd rfl (hedges _ hedge)

/-! ## More edges -/

/-- More edges make more subtypes. -/
theorem isSubtype_mono (hedges : ∀ e ∈ h.edges, e ∈ h'.edges) (hsub : h.isSubtype a b = true) :
    h'.isSubtype a b = true := by
  rw [isSubtype_iff] at hsub ⊢
  rcases hsub with hsub | hsub | hsub
  · exact .inl hsub
  · exact .inr (.inl hsub)
  · exact .inr (.inr (TransGen.mono (fun a b => hedges (a, b)) a b hsub))

/-- More edges accept no less. -/
theorem accepts_mono (hedges : ∀ e ∈ h.edges, e ∈ h'.edges) {t : DataType} {s : SlotType}
    (haccepts : h.accepts t s = true) : h'.accepts t s = true := by
  unfold accepts at haccepts ⊢
  split at haccepts <;> first
    | rfl
    | exact haccepts
    | exact isSubtype_mono hedges haccepts

/-! ## The same edges -/

/-- Subtypes depend only on which edges there are, and not on their order or repetition. -/
theorem isSubtype_congr (hedges : ∀ e, e ∈ h.edges ↔ e ∈ h'.edges) : h.isSubtype = h'.isSubtype := by
  funext a b
  rw [Bool.eq_iff_iff]
  exact ⟨isSubtype_mono fun e => (hedges e).mp, isSubtype_mono fun e => (hedges e).mpr⟩

/-- So do the joins of slot types. -/
theorem join_congr (hedges : ∀ e, e ∈ h.edges ↔ e ∈ h'.edges) : h.join = h'.join := by
  unfold join
  rw [isSubtype_congr hedges]

/-! ## All in all -/

/-- An extended hierarchy has the edges of both. -/
theorem edge_extend (h g : Hierarchy) :
    Edge (h.extend g).edges = fun x y => Edge h.edges x y ∨ Edge g.edges x y := by
  funext x y
  exact propext List.mem_append

/-- **Subtypes are paths.** On every hierarchy, whatever cycles and repeated edges it has, the search ends, and a class
is below another one exactly if they are the same, or the other one is the root, or a path of one or more edges leads
to it. So the answer depends only on which edges there are, and a hierarchy that is extended by another one answers by
the edges of both. -/
theorem subtypes_are_paths (h : Hierarchy) (a b : String) :
    (h.isSubtype a b = true ↔ a = b ∨ b = rootClass ∨ TransGen (Edge h.edges) a b) ∧
      (∀ h' : Hierarchy, (∀ e, e ∈ h.edges ↔ e ∈ h'.edges) → h.isSubtype a b = h'.isSubtype a b) ∧
      ∀ g : Hierarchy, (h.extend g).isSubtype a b = true ↔
        a = b ∨ b = rootClass ∨ TransGen (fun x y => Edge h.edges x y ∨ Edge g.edges x y) a b := by
  refine ⟨isSubtype_iff, fun h' hedges => ?_, fun g => ?_⟩
  · rw [isSubtype_congr hedges]
  · rw [isSubtype_iff, edge_extend]

/-- Two classes that are below each other, with one of the edges repeated: they are below no third class, until a
hierarchy with an edge to it is added. -/
theorem subtypes_are_paths_ring :
    let ring : Hierarchy := ⟨[("gen.A", "gen.B"), ("gen.B", "gen.A"), ("gen.A", "gen.B")]⟩
    let plain : Hierarchy := ⟨[("gen.B", "gen.A"), ("gen.A", "gen.B")]⟩
    (∀ e, e ∈ ring.edges ↔ e ∈ plain.edges) ∧ plain.isSubtype "gen.A" "gen.C" = false ∧
      ring.isSubtype "gen.A" "gen.C" = false ∧
        (ring.extend ⟨[("gen.B", "gen.C")]⟩).isSubtype "gen.A" "gen.C" = true := by
  intro ring plain
  have hedges : ∀ e, e ∈ ring.edges ↔ e ∈ plain.edges := by
    intro e
    simp only [ring, plain, List.mem_cons, List.not_mem_nil, or_false]
    grind
  obtain ⟨-, hsame, hextend⟩ := subtypes_are_paths ring "gen.A" "gen.C"
  have hplain : plain.isSubtype "gen.A" "gen.C" = false := by decide +kernel
  refine ⟨hedges, hplain, (hsame plain hedges).trans hplain, (hextend _).mpr (.inr (.inr ?_))⟩
  have hB : ("gen.A", "gen.B") ∈ ring.edges := List.mem_cons_self
  exact .tail (.single (.inl hB)) (.inr List.mem_cons_self)

end Routecraft.Bytecode.Hierarchy
