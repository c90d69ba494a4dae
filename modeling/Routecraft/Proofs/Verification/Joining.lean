import Routecraft.Bytecode.Verify
import Routecraft.Compile.Registration
import Routecraft.Proofs.Verification.Effects
import Routecraft.Proofs.Verification.Subtyping

/-!
# What is known where two paths meet

A join forgets, but it claims nothing new: wherever a value of the joined type may stand, a value of either side may.
A local is set behind the join if it was on both paths. What has been joined in adds nothing when it comes a second
time, as the join is above it by then. All this rests on subtypes being transitive, for which no class may be above
the root: two unrelated classes are joined to the root, and would come to be below whatever is above it.

* `Hierarchy.StandsIn`: a value of one slot type may stand wherever a value of another one may.
* `Hierarchy.Joins.standsIn`, `Hierarchy.Joins.again`: what a join is to its sides.
* `FrameType.join_again`, `FrameType.join_eq_none_iff`: the same for frames.
* `joins_lose_nothing`: all of it for what was inferred at a place.
-/

namespace Routecraft.Bytecode

/-! ## Single slots -/

namespace Hierarchy

variable {h : Hierarchy} {x y z : SlotType} {a b : String} {type : DataType}

/-- Two slot types have no join if they differ and are not both of references. -/
theorem join_eq_none_iff : h.join x y = none ↔ x ≠ y ∧ ¬(x.isReference = true ∧ y.isReference = true) := by
  unfold join
  by_cases heq : x = y
  · simp [heq]
  · rw [if_neg heq]
    split
    · simp [SlotType.isReference]
    · simp [SlotType.isReference]
    · simp only [SlotType.isReference, and_self, not_true, and_false, iff_false]
      split
      · simp
      · split <;> simp
    · next hnull hnull' href =>
      -- None of the pairs above is left that are both of references.
      cases x <;> cases y <;> simp_all [SlotType.isReference]

/-- A value of the slot type `x` may stand wherever a value of the slot type `z` may. -/
def StandsIn (h : Hierarchy) (x z : SlotType) : Prop := ∀ type, h.accepts type z = true → h.accepts type x = true

/-- A reference is accepted for a type that its class is below of. -/
theorem accepts_ref_iff :
    h.accepts type (.ref a) = true ↔ type.isReference = true ∧ h.isSubtype a type.className = true := by
  cases type <;> simp [accepts, DataType.isReference, DataType.className]

/-- Null is accepted for all types of references. -/
theorem accepts_null : h.accepts type .null = type.isReference := by
  cases type <;> rfl

/-- Null stands in for every reference. -/
theorem standsIn_null (h : Hierarchy) (a : String) : h.StandsIn .null (.ref a) := by
  intro type htype
  obtain ⟨href, -⟩ := accepts_ref_iff.mp htype
  rw [accepts_null]
  exact href

/-- A class stands in for those above it, if the root is on top. -/
theorem RootOnTop.standsIn (hroot : h.RootOnTop) (hab : h.isSubtype a b = true) : h.StandsIn (.ref a) (.ref b) := by
  intro type htype
  obtain ⟨href, hsub⟩ := accepts_ref_iff.mp htype
  exact accepts_ref_iff.mpr ⟨href, hroot.trans hab hsub⟩

/-- **A join claims nothing new**: values of both its sides may stand wherever one of the join may. -/
theorem Joins.standsIn (hroot : h.RootOnTop) (hz : h.Joins x y z) : h.StandsIn x z ∧ h.StandsIn y z := by
  have self (t : SlotType) : h.StandsIn t t := fun _ htype => htype
  cases hz with
  | same => exact ⟨self _, self _⟩
  | nullLeft b => exact ⟨h.standsIn_null b, self _⟩
  | nullRight a => exact ⟨self _, h.standsIn_null a⟩
  | right hne hab => exact ⟨hroot.standsIn hab, self _⟩
  | left hne hab hba => exact ⟨self _, hroot.standsIn hba⟩
  | root hne hab hba => exact ⟨hroot.standsIn (h.isSubtype_root _), hroot.standsIn (h.isSubtype_root _)⟩

/-- What has been joined in adds nothing when it comes again. -/
theorem Joins.again (hroot : h.RootOnTop) (hz : h.Joins x y z) : h.Joins z y z := by
  cases hz with
  | same => exact .same _
  | nullLeft b => exact .same _
  | nullRight a => exact .nullRight a
  | right hne hab => exact .same _
  | left hne hab hba => exact .left hne hab hba
  | @root a b hne hab hba =>
      -- The class is below the root, and not above it, as the other one would be below it then.
      have hb : rootClass ≠ b := by
        rintro rfl
        exact hab (h.isSubtype_root a)
      exact .left hb (fun hsub => hb (hroot b hsub).symm) (h.isSubtype_root b)

end Hierarchy

/-! ## Frames -/

namespace FrameType

variable {h : Hierarchy} {f g k : FrameType} {x y : SlotType} {xs ys zs : List SlotType}
  {ls ms : List (Option SlotType)}

/-- A stack that has been joined in adds nothing when it comes again. -/
theorem joinStacks_again (hroot : h.RootOnTop) (hzs : joinStacks h xs ys = some zs) :
    joinStacks h zs ys = some zs := by
  induction xs generalizing ys zs with
  | nil =>
      cases ys with
      | nil => exact Option.some.inj hzs ▸ hzs
      | cons y ys => cases hzs
  | cons x xs ih =>
      cases ys with
      | nil => cases hzs
      | cons y ys =>
          rw [joinStacks_cons] at hzs
          obtain ⟨z, hz, hzs⟩ := Option.bind_eq_some_iff.mp hzs
          obtain ⟨rest, hrest, rfl⟩ := Option.map_eq_some_iff.mp hzs
          have hagain := (Hierarchy.join_eq_some_iff.mp hz).again hroot
          rw [joinStacks_cons, Hierarchy.join_eq_some_iff.mpr hagain, ih hrest]
          rfl

/-- Stacks of one depth have no join if two of their slots have none. -/
theorem joinStacks_eq_none_iff (hdepth : xs.length = ys.length) :
    joinStacks h xs ys = none ↔
      ∃ (n : Nat) (x y : SlotType), xs[n]? = some x ∧ ys[n]? = some y ∧ h.join x y = none := by
  induction xs generalizing ys with
  | nil =>
      cases ys with
      | nil => simp [joinStacks]
      | cons y ys => cases hdepth
  | cons x xs ih =>
      cases ys with
      | nil => cases hdepth
      | cons y ys =>
          rw [joinStacks_cons, Option.bind_eq_none_iff]
          constructor
          · intro hnone
            rcases hz : h.join x y with _ | z
            · exact ⟨0, x, y, rfl, rfl, hz⟩
            · obtain ⟨n, x', y', hx, hy, hxy⟩ := (ih (Nat.succ.inj hdepth)).mp (Option.map_eq_none_iff.mp (hnone z hz))
              exact ⟨n + 1, x', y', hx, hy, hxy⟩
          · rintro ⟨n, x', y', hx, hy, hxy⟩ z hz
            rw [Option.map_eq_none_iff]
            cases n with
            | zero =>
                obtain rfl := Option.some.inj hx
                obtain rfl := Option.some.inj hy
                rw [hxy] at hz
                cases hz
            | succ n => exact (ih (Nat.succ.inj hdepth)).mpr ⟨n, x', y', hx, hy, hxy⟩

/-- A local of a join: one that is not there counts as one that is not set. -/
theorem getElem?_joinLocals (h : Hierarchy) (ls ms : List (Option SlotType)) (n : Nat) :
    (joinLocals h ls ms)[n]? =
      if n < max ls.length ms.length then some (do h.join (← ls[n]?.join) (← ms[n]?.join)) else none := by
  have pad {l : List (Option SlotType)} {size : Nat} (hsize : l.length ≤ size) :
      (l ++ List.replicate (size - l.length) none)[n]? = if n < size then some l[n]?.join else none := by
    rw [List.getElem?_append, List.getElem?_replicate]
    rcases Nat.lt_or_ge n l.length with hn | hn
    · simp [hn, Nat.lt_of_lt_of_le hn hsize]
    · simp only [Nat.not_lt.mpr hn, if_false, List.getElem?_eq_none hn, Option.join_none]
      congr 1
      rw [eq_iff_iff]
      omega
  unfold joinLocals
  rw [List.getElem?_zipWith, pad (Nat.le_max_left _ _), pad (Nat.le_max_right _ _)]
  by_cases hn : n < max ls.length ms.length <;> simp [hn]

/-- Locals that have been joined in add nothing when they come again. -/
theorem joinLocals_again (hroot : h.RootOnTop) (ls ms : List (Option SlotType)) :
    joinLocals h (joinLocals h ls ms) ms = joinLocals h ls ms := by
  apply List.ext_getElem?
  intro n
  rw [getElem?_joinLocals, length_joinLocals, getElem?_joinLocals, Nat.max_assoc, Nat.max_self]
  by_cases hn : n < max ls.length ms.length
  · simp only [hn, if_true, Option.join_some]
    congr 1
    rcases ls[n]?.join with _ | x
    · rfl
    rcases ms[n]?.join with _ | y
    · rfl
    show (h.join x y >>= fun z => h.join z y) = h.join x y
    rcases hz : h.join x y with _ | z
    · rfl
    · exact Hierarchy.join_eq_some_iff.mpr ((Hierarchy.join_eq_some_iff.mp hz).again hroot)
  · simp only [hn, if_false]

/-- **What has been joined in adds nothing** when it comes again. -/
theorem join_again (hroot : h.RootOnTop) (hk : f.join h g = some k) : k.join h g = some k := by
  obtain ⟨hstack, hlocals⟩ := join_eq_some hk
  unfold join
  rw [joinStacks_again hroot hstack, hlocals, joinLocals_again hroot, ← hlocals]
  rfl

/-- Frame types with stacks of one depth have no join if two slots of the stacks differ and are not both of
references. The locals never stand in the way. -/
theorem join_eq_none_iff (hdepth : f.stack.length = g.stack.length) :
    f.join h g = none ↔ ∃ (n : Nat) (x y : SlotType), f.stack[n]? = some x ∧ g.stack[n]? = some y ∧
      x ≠ y ∧ ¬(x.isReference = true ∧ y.isReference = true) := by
  unfold join
  simp only [Option.map_eq_none_iff, joinStacks_eq_none_iff hdepth, Hierarchy.join_eq_none_iff]

/-- A slot of a join is the join of the slots on both sides. -/
theorem joins_stack {n : Nat} {z : SlotType} (hk : f.join h g = some k) (hz : k.stack[n]? = some z) :
    ∃ x y, f.stack[n]? = some x ∧ g.stack[n]? = some y ∧ h.Joins x y z := by
  obtain ⟨hdepth, hdepth', hjoin⟩ := joinStacks_eq_some (join_eq_some hk).1
  obtain ⟨hn, -⟩ := List.getElem?_eq_some_iff.mp hz
  have hx := List.getElem?_eq_getElem (l := f.stack) (i := n) (by omega)
  have hy := List.getElem?_eq_getElem (l := g.stack) (i := n) (by omega)
  exact ⟨_, _, hx, hy, Hierarchy.join_eq_some_iff.mp (hjoin n _ _ _ hx hy hz)⟩

/-- A local that is set in a join is the join of the locals on both sides, which are set. -/
theorem joins_locals {n : Nat} {z : SlotType} (hk : f.join h g = some k) (hz : k.locals[n]? = some (some z)) :
    ∃ x y, f.locals[n]? = some (some x) ∧ g.locals[n]? = some (some y) ∧ h.Joins x y z := by
  rw [(join_eq_some hk).2] at hz
  obtain ⟨x, y, hx, hy, hjoin⟩ := joinLocals_eq_some hz
  exact ⟨x, y, hx, hy, Hierarchy.join_eq_some_iff.mp hjoin⟩

end FrameType

/-! ## The hierarchies of generated units -/

/-- No handler has the name of the root class. -/
theorem handlerName_ne_root (e : Endpoint) : Compile.handlerName e ≠ rootClass := by
  intro hroot
  have hdollar : '$' ∈ (Compile.handlerName e).toList := by
    simp [Compile.handlerName, Compile.RouteName.render, Compile.RouteName.renderChars]
  rw [hroot] at hdollar
  exact absurd hdollar (by decide)

/-- No class is above the root in what registrations are checked against, the classes of the framework among it. -/
theorem edges_registrationHierarchy (c : Controller) :
    ∀ e ∈ (Compile.registrationHierarchy c).edges, e.1 ≠ rootClass := by
  have hframework : ∀ e ∈ Compile.Framework.hierarchy.edges, e.1 ≠ rootClass := by decide
  intro e he
  rcases List.mem_append.mp he with he | he
  · exact hframework e he
  · obtain ⟨endpoint, -, rfl⟩ := List.mem_map.mp he
    exact handlerName_ne_root endpoint

/-! ## Places -/

/-- **Where paths meet nothing is lost.** Let no class be above the root, and let what comes to a place have a stack as
deep as what was inferred there. If the two have a join, a value of each side may stand wherever one of the joined slot
may; a local that is set then is set on both sides; and what has come is no news when it comes again. They have none
only if two slots of the stacks differ and are not both of references. -/
theorem joins_lose_nothing {h : Hierarchy} (hroot : ∀ e ∈ h.edges, e.1 ≠ rootClass) {f g : FrameType}
    (hdepth : f.stack.length = g.stack.length) :
    (∀ k new, mergeInto h (some f) g = some (k, new) →
      (k.stack.length = f.stack.length ∧ ∀ (n : Nat) (z : SlotType), k.stack[n]? = some z →
        ∃ x y, f.stack[n]? = some x ∧ g.stack[n]? = some y ∧ h.StandsIn x z ∧ h.StandsIn y z) ∧
      (∀ (n : Nat) (z : SlotType), k.locals[n]? = some (some z) →
        ∃ x y, f.locals[n]? = some (some x) ∧ g.locals[n]? = some (some y) ∧ h.StandsIn x z ∧ h.StandsIn y z) ∧
      (new = false ↔ k = f) ∧ mergeInto h (some k) g = some (k, false)) ∧
    (mergeInto h (some f) g = none ↔ ∃ (n : Nat) (x y : SlotType), f.stack[n]? = some x ∧ g.stack[n]? = some y ∧
      x ≠ y ∧ ¬(x.isReference = true ∧ y.isReference = true)) := by
  have htop : h.RootOnTop := Hierarchy.rootOnTop_of_edges hroot
  constructor
  · intro k new hmerge
    obtain ⟨k', hk, hnew⟩ := Option.map_eq_some_iff.mp hmerge
    obtain ⟨rfl, rfl⟩ : k' = k ∧ (!decide (k' = f)) = new := by simpa using hnew
    refine ⟨⟨(FrameType.joinStacks_eq_some (FrameType.join_eq_some hk).1).2.1, ?_⟩, ?_, by simp, ?_⟩
    · intro n z hz
      obtain ⟨x, y, hx, hy, hjoins⟩ := FrameType.joins_stack hk hz
      exact ⟨x, y, hx, hy, hjoins.standsIn htop⟩
    · intro n z hz
      obtain ⟨x, y, hx, hy, hjoins⟩ := FrameType.joins_locals hk hz
      exact ⟨x, y, hx, hy, hjoins.standsIn htop⟩
    · show (k'.join h g).map _ = _
      rw [FrameType.join_again htop hk]
      simp
  · rw [← FrameType.join_eq_none_iff hdepth]
    exact Option.map_eq_none_iff

def visit : Endpoint where
  owner := "app.Library"
  name := "visit"
  params := []
  returnType := .void
  verb := .get
  pattern := "/"
  consumes := []
  produces := []
  attributes := []

/-- A handler meets another one, and null a text; of the locals only the first one is the same on both paths. -/
theorem joins_lose_nothing_visit :
    let h := Compile.registrationHierarchy ⟨"app.Library", "/", [visit]⟩
    let unit : SlotType := .ref "app.Library$Routes"
    let f : FrameType := ⟨[.ref (Compile.handlerName visit), .null], [some unit, some .int, some .null]⟩
    let g : FrameType := ⟨[.ref Platform.handler, .ref Platform.string], [some unit, some .long]⟩
    let k : FrameType := ⟨[.ref Platform.handler, .ref Platform.string], [some unit, none, none]⟩
    (∀ e ∈ h.edges, e.1 ≠ rootClass) ∧ f.stack.length = g.stack.length ∧ mergeInto h (some f) g = some (k, true) ∧
      h.StandsIn (.ref (Compile.handlerName visit)) (.ref Platform.handler) ∧
      h.StandsIn .null (.ref Platform.string) ∧ mergeInto h (some k) g = some (k, false) := by
  intro h unit f g k
  have hroot : ∀ e ∈ h.edges, e.1 ≠ rootClass := edges_registrationHierarchy _
  have hmerge : mergeInto h (some f) g = some (k, true) := by decide +kernel
  obtain ⟨hjoined, -⟩ := joins_lose_nothing hroot (f := f) (g := g) rfl
  obtain ⟨⟨-, hstack⟩, -, -, hagain⟩ := hjoined k true hmerge
  obtain ⟨x, y, hx, -, hhandler, -⟩ := hstack 0 _ rfl
  obtain ⟨x', y', hx', -, hnull, -⟩ := hstack 1 _ rfl
  cases hx
  cases hx'
  exact ⟨hroot, rfl, hmerge, hhandler, hnull, hagain⟩

end Routecraft.Bytecode
