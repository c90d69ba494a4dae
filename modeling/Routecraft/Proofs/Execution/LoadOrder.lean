import Routecraft.Proofs.Compile.Linking
import Routecraft.Proofs.Execution.Agreement
import Routecraft.Proofs.Verification.Members
import Routecraft.Proofs.Verification.Stability

/-!
# The order of loading

Units are looked up by their names, and what is known of the classes is a list of edges to which each unit adds its own.
The checker and the casts ask which classes are below which, so it does not matter to them in which order the edges
come, how often, or whether they lead around in circles.

* `Loader.foldlM_add`: units with names of their own are taken in, in any order.
* `Loader.Alike`: loaders that know the same units and classes.
* `Loader.Alike.check_iff`: they accept the same units.
* `Loader.Alike.concurs`: what they link concurs.
* `Loader.load_order_irrelevant`: the order of loading makes no difference.
-/

namespace Routecraft.Machine

open Bytecode

/-! ## Units by their names -/

/-- Which unit a name stands for, where no two units have the same name. -/
theorem findUnit?_eq_some {us : List CodeUnit} (hnodup : (us.map (·.name)).Nodup) {u : CodeUnit} {name : String} :
    findUnit? us name = some u ↔ u ∈ us ∧ u.name = name := by
  constructor
  · intro h
    exact ⟨List.mem_of_find?_eq_some h, by simpa using List.find?_some h⟩
  · rintro ⟨hu, rfl⟩
    exact Loader.findUnit?_of_mem hnodup hu

theorem findUnit?_perm {us vs : List CodeUnit} (hperm : us.Perm vs) (hnodup : (us.map (·.name)).Nodup) :
    findUnit? us = findUnit? vs := by
  funext name
  ext u
  rw [findUnit?_eq_some hnodup, findUnit?_eq_some ((hperm.map _).nodup hnodup), hperm.mem_iff]

/-- Of two lists of units, the first one is searched first. -/
theorem findUnit?_append (us vs : List CodeUnit) (name : String) :
    findUnit? (us ++ vs) name = (findUnit? us name).or (findUnit? vs name) := List.find?_append

end Routecraft.Machine

namespace Routecraft.Bytecode

/-! ## Checks -/

variable {u : CodeUnit} {h h' : Hierarchy}

/-- A method that is accepted stays so with the same edges, in whatever order. -/
theorem CodeUnit.verifyMethodOf_of_edges {rounds : Nat} {m : Method} (hedges : ∀ e, e ∈ h.edges ↔ e ∈ h'.edges)
    (hm : u.verifyMethodOf rounds h m = .ok ()) : u.verifyMethodOf rounds h' m = .ok () := by
  have hwith : ∀ e, e ∈ (u.hierarchyWith h).edges ↔ e ∈ (u.hierarchyWith h').edges := by
    intro e
    rw [mem_edges_hierarchyWith, mem_edges_hierarchyWith, hedges e]
  obtain ⟨i, hi, hframe⟩ := bind_eq_ok.mp hm
  exact bind_eq_ok.mpr ⟨i, inferWithin_widen (.refl _) hwith (Nat.le_refl _) hi, hframe⟩

/-- **Whether a unit is accepted** depends only on which edges there are. -/
theorem CodeUnit.verify_congr (hedges : ∀ e, e ∈ h.edges ↔ e ∈ h'.edges) :
    u.verify h = .ok () ↔ u.verify h' = .ok () := by
  unfold verify verifyWithin
  rw [forM_eq_ok, forM_eq_ok]
  constructor
  · exact fun hall m hm => verifyMethodOf_of_edges hedges (hall m hm)
  · exact fun hall m hm => verifyMethodOf_of_edges (fun e => (hedges e).symm) (hall m hm)

end Routecraft.Bytecode

namespace Routecraft.Machine

open Bytecode

namespace Loader

variable {l l' : Loader} {p p' : Program} {us vs : List CodeUnit}

/-! ## Loaders that know the same -/

/-- Loaders that know the same units and classes. -/
structure Alike (l l' : Loader) : Prop where
  units : ∀ u, u ∈ l.units ↔ u ∈ l'.units
  find : findUnit? l.units = findUnit? l'.units
  edges : ∀ e, e ∈ l.hierarchy.edges ↔ e ∈ l'.hierarchy.edges
  statics : l.statics = l'.statics
  stepLimit : l.stepLimit = l'.stepLimit

namespace Alike

theorem symm (h : l.Alike l') : l'.Alike l :=
  ⟨fun u => (h.units u).symm, h.find.symm, fun e => (h.edges e).symm, h.statics.symm, h.stepLimit.symm⟩

/-- Loaders that are alike check the same objects. -/
theorem checkNew (h : l.Alike l') : l.checkNew = l'.checkNew := by
  funext pool i
  unfold Loader.checkNew
  rw [h.find]

/-- They accept the same units. -/
theorem check_iff (h : l.Alike l') {u : CodeUnit} : l.check u = .ok () ↔ l'.check u = .ok () := by
  rw [check_eq_ok, check_eq_ok, CodeUnit.verify_congr h.edges, h.checkNew]

theorem links (h : l.Alike l') (hlink : ∃ p, l.link = .ok p) : ∃ p, l'.link = .ok p := by
  obtain ⟨p, hp⟩ := hlink
  obtain ⟨hcheck, -⟩ := link_eq_ok.mp hp
  exact ⟨_, link_eq_ok.mpr ⟨fun u hu => h.check_iff.mp (hcheck u ((h.units u).mpr hu)), rfl⟩⟩

/-- **What they link concurs**, with the same stubs. -/
theorem concurs (h : l.Alike l') (hp : l.link = .ok p) (hp' : l'.link = .ok p') (stubs : Array Stub) :
    Program.Concurs { p with stubs } { p' with stubs } ∧ p.stepLimit = p'.stepLimit := by
  obtain ⟨-, rfl⟩ := link_eq_ok.mp hp
  obtain ⟨-, rfl⟩ := link_eq_ok.mp hp'
  exact ⟨⟨h.find, Hierarchy.isSubtype_congr h.edges, h.statics, rfl⟩, h.stepLimit⟩

end Alike

/-! ## Taking units in -/

/-- Units with names of their own are taken in one after the other. -/
theorem foldlM_add (hnodup : (us.map (·.name)).Nodup) (hnew : ∀ u ∈ us, findUnit? l.units u.name = none) :
    us.foldlM add l = .ok (l.withUnits us) := by
  induction us generalizing l with
  | nil => simp [withUnits, Hierarchy.extend, pure, Except.pure]
  | cons u us ih =>
      rw [List.map_cons, List.nodup_cons] at hnodup
      obtain ⟨hu, hnodup⟩ := hnodup
      -- The units that follow have other names than this one, so they are still new.
      have hnew' : ∀ w ∈ us, findUnit? (l.withUnits [u]).units w.name = none := by
        intro w hw
        show findUnit? (l.units ++ [u]) w.name = none
        rw [findUnit?_append, hnew w (List.mem_cons_of_mem u hw), Option.none_or, findUnit?_eq_none]
        rw [List.map_singleton, List.mem_singleton]
        intro hname
        exact hu (hname ▸ List.mem_map_of_mem hw)
      rw [List.foldlM_cons, add_of_new (hnew u List.mem_cons_self), ok_bind, ih hnodup hnew', withUnits_withUnits]
      rfl

/-- Loaders that have taken in the same units know the same. -/
theorem alike_withUnits (l : Loader) (hperm : us.Perm vs) (hnodup : (us.map (·.name)).Nodup) :
    (l.withUnits us).Alike (l.withUnits vs) where
  units u := (hperm.append_left l.units).mem_iff
  find := by
    funext name
    show findUnit? (l.units ++ us) name = findUnit? (l.units ++ vs) name
    rw [findUnit?_append, findUnit?_append, findUnit?_perm hperm hnodup]
  edges e := ((hperm.flatMap_right _).append_left l.hierarchy.edges).mem_iff
  statics := rfl
  stepLimit := rfl

/-- **The order of loading makes no difference.** Units with different names, none of which the loader knows yet, are
taken in whatever their order. They link in one order exactly if they do in the other, and then the programs, with the
same stubs, do the same on every store, whatever is asked of them: they come to the same result or error, and leave the
same store behind. -/
theorem load_order_irrelevant (l : Loader) {us vs : List CodeUnit} (hperm : us.Perm vs)
    (hnodup : (us.map (·.name)).Nodup) (hnew : ∀ u ∈ us, findUnit? l.units u.name = none) :
    ∃ l₁ l₂, us.foldlM add l = .ok l₁ ∧ vs.foldlM add l = .ok l₂ ∧
      ((∃ p, l₁.link = .ok p) ↔ ∃ p, l₂.link = .ok p) ∧
      ∀ p₁ p₂, l₁.link = .ok p₁ → l₂.link = .ok p₂ → ∀ stubs : Array Stub,
        Program.invoke { p₁ with stubs } = Program.invoke { p₂ with stubs } ∧
        Program.instantiate { p₁ with stubs } = Program.instantiate { p₂ with stubs } ∧
        Program.install { p₁ with stubs } = Program.install { p₂ with stubs } ∧
        Program.dispatch { p₁ with stubs } = Program.dispatch { p₂ with stubs } := by
  have halike := alike_withUnits l hperm hnodup
  refine ⟨l.withUnits us, l.withUnits vs, foldlM_add hnodup hnew, foldlM_add ((hperm.map _).nodup hnodup) ?_,
    ⟨halike.links, halike.symm.links⟩, ?_⟩
  · exact fun u hu => hnew u (hperm.mem_iff.mpr hu)
  · intro p₁ p₂ hp₁ hp₂ stubs
    obtain ⟨hconcurs, hlimit⟩ := halike.concurs hp₁ hp₂ stubs
    exact ⟨hconcurs.invoke hlimit, hconcurs.instantiate hlimit, hconcurs.install hlimit, hconcurs.dispatch hlimit⟩

end Loader

/-! ## Units below each other -/

/-- A method that casts an object. -/
def narrow : Method where
  name := "narrow"
  signature := .returning [.object Platform.object] (.object "gen.Right")
  maxStack := 1
  maxLocals := 2
  code := #[.onLocal .load 1, .onConst .checkCast 0, .bare .returnValue]

/-- The unit of this method, which is below another unit. -/
def leftUnit : CodeUnit := ⟨"gen.Left", .handler, ["gen.Right"], ⟨#[.classRef "gen.Right"]⟩, [], [narrow]⟩

def rightUnit : CodeUnit := ⟨"gen.Right", .handler, ["gen.Left"], ⟨#[]⟩, [], []⟩

/-- Units that are below each other link in both orders, and an object of the one can be taken for one of the other. -/
theorem load_order_irrelevant_ring :
    ∃ l₁ l₂ p₁ p₂, [leftUnit, rightUnit].Perm [rightUnit, leftUnit] ∧
      [leftUnit, rightUnit].foldlM Loader.add .empty = .ok l₁ ∧
      [rightUnit, leftUnit].foldlM Loader.add .empty = .ok l₂ ∧
      l₁.link = .ok p₁ ∧ l₂.link = .ok p₂ ∧ p₁.units ≠ p₂.units ∧
      p₁.invoke = p₂.invoke ∧ p₁.instantiate = p₂.instantiate ∧
      ((Store.empty.newObject "gen.Left").2.perform
          (p₁.invoke (.object "gen.Left" 0) "narrow" [.object "gen.Left" 0])).1.isOk = true := by
  have hperm : [leftUnit, rightUnit].Perm [rightUnit, leftUnit] := .swap ..
  have hnodup : ([leftUnit, rightUnit].map (·.name)).Nodup := by decide
  have hnew : ∀ u ∈ [leftUnit, rightUnit], findUnit? Loader.empty.units u.name = none := fun _ _ => rfl
  have hleft : [leftUnit, rightUnit].foldlM Loader.add .empty = .ok (Loader.empty.withUnits [leftUnit, rightUnit]) :=
    Loader.foldlM_add hnodup hnew
  have hright : [rightUnit, leftUnit].foldlM Loader.add .empty = .ok (Loader.empty.withUnits [rightUnit, leftUnit]) :=
    Loader.foldlM_add (by decide) fun _ _ => rfl
  obtain ⟨l₁, l₂, h₁, h₂, hiff, hsame⟩ := Loader.load_order_irrelevant .empty hperm hnodup hnew
  obtain rfl := Except.ok.inj (hleft.symm.trans h₁)
  obtain rfl := Except.ok.inj (hright.symm.trans h₂)
  have hcheck : ∀ u ∈ [leftUnit, rightUnit], (Loader.empty.withUnits [leftUnit, rightUnit]).check u = .ok () := by
    decide +kernel
  have hlink₁ := (Loader.link_eq_ok (l := Loader.empty.withUnits [leftUnit, rightUnit])).mpr ⟨hcheck, rfl⟩
  obtain ⟨p₂, hlink₂⟩ := hiff.mp ⟨_, hlink₁⟩
  obtain ⟨-, rfl⟩ := Loader.link_eq_ok.mp hlink₂
  obtain ⟨hinvoke, hinstantiate, -⟩ := hsame _ _ hlink₁ hlink₂ #[]
  exact ⟨_, _, _, _, hperm, h₁, h₂, hlink₁, hlink₂, by decide, hinvoke, hinstantiate, by decide +kernel⟩

end Routecraft.Machine
