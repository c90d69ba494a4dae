import Mathlib.Data.List.Flatten
import Mathlib.Data.List.Nodup
import Mathlib.Data.List.Perm.Basic
import Routecraft.Build.Run
import Routecraft.Proofs.Compile.Linking
import Routecraft.Proofs.Compile.References

/-!
# The units of a build

All units that a build compiles fit together: they have different names, they link in whatever order they are
loaded, and each handler is made in one place, the registration of its controller.

* `compile_eq_ok`: what a build compiles.
* `unitNames_nodup`: the names of units of several controllers are different.
* `creations`: the units that a unit makes objects of.
* `build_links`: the units of a build fit together.
-/

namespace Routecraft.Build

open Bytecode Compile Machine

/-! ## Compiling -/

/-- A controller that is compiled after others has a name that is none of theirs. -/
theorem compileUnseen_eq_ok {f : AttributeFilter} {seen : List String} {c : Controller} {cc : CompiledController}
    (h : compileUnseen f seen c = .ok cc) : c.name ∉ seen ∧ compileController f c = .ok cc := by
  unfold compileUnseen at h
  split at h
  · cases h
  · next hseen =>
    refine ⟨?_, h⟩
    rw [List.contains_iff_mem] at hseen
    exact hseen

/-- Controllers that are compiled without a failure are all compiled, and have different names. -/
theorem compileFrom_eq_ok {f : AttributeFilter} {failFast : Bool} {seen : List String} {cs : List Controller}
    {ccs : List CompiledController} {w w' : Workspace}
    (h : (compileFrom f failFast seen cs).run.run w = (.ok (ccs, []), w')) :
    List.Forall₂ (fun c cc => compileController f c = .ok cc) cs ccs ∧
      (∀ c ∈ cs, c.name ∉ seen) ∧ (cs.map (·.name)).Nodup := by
  induction cs generalizing seen ccs w with
  | nil =>
      cases h
      exact ⟨.nil, by simp, .nil⟩
  | cons c cs ih =>
      unfold compileFrom at h
      obtain ⟨_, w₁, -, h⟩ := run_bind_eq_ok.mp h
      split at h
      · next cc hcc =>
        obtain ⟨⟨others, failures⟩, w₂, hrest, h⟩ := run_bind_eq_ok.mp h
        cases h
        obtain ⟨hfresh, hcontroller⟩ := compileUnseen_eq_ok hcc
        obtain ⟨hcs, hseen, hnodup⟩ := ih hrest
        refine ⟨.cons hcontroller hcs, ?_, ?_⟩
        · exact List.forall_mem_cons.mpr ⟨hfresh, fun c' hc' hmem => hseen c' hc' (List.mem_cons_of_mem _ hmem)⟩
        · -- The rest is compiled with the name of the first among those seen.
          rw [List.map_cons, List.nodup_cons]
          refine ⟨fun hmem => ?_, hnodup⟩
          obtain ⟨c', hc', hname⟩ := List.mem_map.mp hmem
          exact hseen c' hc' (hname ▸ List.mem_cons_self)
      · split at h
        · cases h
        · obtain ⟨⟨others, failures⟩, w₂, -, h⟩ := run_bind_eq_ok.mp h
          cases h

/-- **What a build compiles**: each controller, and no two of one name. -/
theorem compile_eq_ok {config : Config} {cs : List Controller} {ccs : List CompiledController} {w w' : Workspace}
    (h : (compile config cs).run.run w = (.ok ccs, w')) :
    ∃ f, List.Forall₂ (fun c cc => compileController f c = .ok cc) cs ccs ∧ (cs.map (·.name)).Nodup := by
  unfold compile at h
  obtain ⟨⟨compiled, failures⟩, w₁, hfrom, h⟩ := run_bind_eq_ok.mp h
  cases failures with
  | cons failure failures => cases h
  | nil =>
      cases h
      obtain ⟨hcs, -, hnodup⟩ := compileFrom_eq_ok hfrom
      exact ⟨_, hcs, hnodup⟩

/-! ## Names -/

def unitNames (c : Controller) : List String := c.endpoints.map handlerName ++ [registrationName c.name]

/-- A unit of a controller tells the controller by its name. -/
theorem name_of_unitNames {c c' : Controller} (howner : ∀ e ∈ c.endpoints, e.owner = c.name)
    (howner' : ∀ e ∈ c'.endpoints, e.owner = c'.name) {name : String} (h : name ∈ unitNames c)
    (h' : name ∈ unitNames c') : c.name = c'.name := by
  rcases List.mem_append.mp h with h | h <;> rcases List.mem_append.mp h' with h' | h'
  · obtain ⟨e, he, rfl⟩ := List.mem_map.mp h
    obtain ⟨e', he', heq⟩ := List.mem_map.mp h'
    rw [← howner e he, ← howner' e' he']
    exact (congrArg RouteName.owner (RouteName.render_inj.mp heq)).symm
  · obtain ⟨e, -, rfl⟩ := List.mem_map.mp h
    exact absurd (List.mem_singleton.mp h').symm (RouteName.registrationName_ne_render _ _)
  · obtain ⟨e, -, heq⟩ := List.mem_map.mp h'
    rw [List.mem_singleton.mp h] at heq
    exact absurd heq.symm (RouteName.registrationName_ne_render _ _)
  · rw [List.mem_singleton.mp h] at h'
    exact RouteName.registrationName_inj.mp (List.mem_singleton.mp h')

/-- **The names of units of several controllers are different** if those of the controllers are. -/
theorem unitNames_nodup {cs : List Controller} (hchecked : ∀ c ∈ cs, checkController c = .ok ())
    (hnodup : (cs.map (·.name)).Nodup) : (cs.flatMap unitNames).Nodup := by
  rw [List.nodup_flatMap]
  refine ⟨fun c hc => (checkController_eq_ok (hchecked c hc)).2, ?_⟩
  refine (List.pairwise_map.mp hnodup).imp_of_mem fun {c c'} hc hc' hne name h h' => hne ?_
  exact name_of_unitNames (checkController_eq_ok (hchecked c hc)).1 (checkController_eq_ok (hchecked c' hc')).1 h h'

/-! ## Units -/

/-- Two lists of units that lack no unit lack none together. -/
theorem complete_append {us us' : List CodeUnit} (h : Loader.Complete us) (h' : Loader.Complete us') :
    Loader.Complete (us ++ us') := by
  intro u hu
  rcases List.mem_append.mp hu with hu | hu
  · exact (h u hu).mono fun w hw => List.mem_append_left _ hw
  · exact (h' u hu).mono fun w hw => List.mem_append_right _ hw

/-- The units of a compiled controller belong together. -/
theorem units_of_controller {f : AttributeFilter} {c : Controller} {cc : CompiledController}
    (h : compileController f c = .ok cc) :
    ∃ us, List.Forall₂ EncodedUnit.Holds cc.units us ∧ Loader.Complete us ∧ us.map (·.name) = unitNames c := by
  obtain ⟨-, us, r, hus, hr, hholds, hregistration⟩ := compileController_parts h
  refine ⟨us ++ [r], List.rel_append hholds (.cons hregistration .nil), ?_, ?_⟩
  · exact Loader.complete_of_controller hus hr
  · rw [List.map_append, names_of_handlers hus, List.map_singleton, (registrationUnit_eq_ok hr).name]
    rfl

/-- So do those of several controllers. -/
theorem units_of_controllers {f : AttributeFilter} {cs : List Controller} {ccs : List CompiledController}
    (h : List.Forall₂ (fun c cc => compileController f c = .ok cc) cs ccs) :
    ∃ us, List.Forall₂ EncodedUnit.Holds (ccs.flatMap CompiledController.units) us ∧ Loader.Complete us ∧
      us.map (·.name) = cs.flatMap unitNames := by
  induction h with
  | nil => exact ⟨[], .nil, fun u hu => absurd hu List.not_mem_nil, rfl⟩
  | cons hc _ ih =>
      obtain ⟨us, hus, hcomplete, hnames⟩ := units_of_controller hc
      obtain ⟨us', hus', hcomplete', hnames'⟩ := ih
      refine ⟨us ++ us', ?_, complete_append hcomplete hcomplete', ?_⟩
      · rw [List.flatMap_cons]
        exact List.rel_append hus hus'
      · rw [List.map_append, hnames, hnames', List.flatMap_cons]

/-! ## Creations -/

/-- The unit that an instruction makes an object of. -/
def creation? : Instr Constant → Option String
  | .onConst .newObject (.classRef name) => some name
  | _ => none

/-- The units that a unit makes objects of, one for each instruction that does so. -/
def creations (u : CodeUnit) : List String := u.uses.filterMap creation?

/-- The units that an encoded unit makes objects of. -/
def creationsIn (enc : EncodedUnit) : List String :=
  match enc.decode with
  | .ok u => creations u
  | .error _ => []

/-- The objects that an encoded unit makes are those that the unit in it makes. -/
theorem creationsIn_of_holds {enc : EncodedUnit} {u : CodeUnit} (h : enc.Holds u) : creationsIn enc = creations u := by
  unfold creationsIn EncodedUnit.decode
  rw [h.decode]

theorem creation?_of_makes {i : Instr Constant} (h : Instr.makesObject i = false) : creation? i = none := by
  unfold creation?
  split
  · cases h
  · rfl

/-- A generated unit makes the objects that its main method was written down to make. -/
theorem creations_of_generated {unit interface method : String} {h : Hierarchy} {s : Signature} {a : Assembler}
    {u : CodeUnit} (hu : Generated unit interface h method s a u) :
    creations u = a.instrs.toList.filterMap creation? := by
  unfold creations
  rw [hu.uses, List.filterMap_cons, List.filterMap_filter]
  show List.filterMap _ _ = _
  congr 1
  funext i
  rcases i with op | ⟨op, slot⟩ | n | ⟨op, x⟩ | ⟨op, label⟩ <;> rfl

/-- A handler makes no objects of units. -/
theorem creations_of_handler {e : Endpoint} {u : CodeUnit} (hu : handlerUnit e = .ok u) : creations u = [] := by
  obtain ⟨a, ha, hgenerated⟩ := handlerUnit_eq_ok hu
  rw [creations_of_generated hgenerated, (applyCode_eq_ok ha).2.1, List.filterMap_eq_nil_iff]
  intro i hi
  rcases List.mem_append.mp hi with hi | hi
  · exact creation?_of_makes (callCode_straight _ e i hi).2
  · exact creation?_of_makes (answerCode_makes e.outcome i hi)

/-- The code of a route makes the handler. -/
theorem creations_of_routeCode (unit : String) (f : AttributeFilter) (e : Endpoint) :
    (routeCode unit f e).filterMap creation? = [handlerName e] := by
  have hdescribe : (describeCode f e).filterMap creation? = [] :=
    List.filterMap_eq_nil_iff.mpr fun i hi => creation?_of_makes (catalogued_describeCode f e i hi).makes
  rw [routeCode_eq, List.filterMap_append, hdescribe]
  rfl

/-- A registration makes one of each handler. -/
theorem creations_of_registration {c : Controller} {f : AttributeFilter} {r : CodeUnit}
    (hr : registrationUnit c f = .ok r) : creations r = c.endpoints.map handlerName := by
  rw [creations_of_generated (registrationUnit_eq_ok hr), Assembler.toList_emitAll, List.filterMap_append, installCode,
    List.filterMap_append, List.filterMap_flatMap]
  simp only [creations_of_routeCode]
  rw [← List.map_eq_flatMap]
  exact List.append_nil _

/-- Each handler of a controller is made by its registration, and by nothing else of the controller. -/
theorem creations_of_controller {f : AttributeFilter} {c : Controller} {cc : CompiledController}
    (h : compileController f c = .ok cc) :
    cc.handlers.map (·.name) = c.endpoints.map handlerName ∧ creationsIn cc.registration = c.endpoints.map handlerName ∧
      cc.units.flatMap creationsIn = c.endpoints.map handlerName := by
  obtain ⟨-, us, r, hus, hr, hholds, hregistration⟩ := compileController_parts h
  have hmade : creationsIn cc.registration = c.endpoints.map handlerName := by
    rw [creationsIn_of_holds hregistration, creations_of_registration hr]
  refine ⟨?_, hmade, ?_⟩
  · rw [← names_of_handlers hus, ← List.forall₂_eq_eq_eq, List.forall₂_map_left_iff, List.forall₂_map_right_iff]
    exact hholds.imp fun _ _ henc => henc.name
  · have hnone : cc.handlers.flatMap creationsIn = [] := by
      rw [List.flatMap_eq_nil_iff]
      intro enc henc
      obtain ⟨u, hu, hholds⟩ := exists_right_of_mem hholds henc
      obtain ⟨e, -, hhandler⟩ := exists_left_of_mem hus hu
      rw [creationsIn_of_holds hholds, creations_of_handler hhandler]
    rw [CompiledController.units, List.flatMap_append, hnone, List.flatMap_singleton, hmade, List.nil_append]

/-- The units of several controllers make each handler once. -/
theorem creations_of_controllers {f : AttributeFilter} {cs : List Controller} {ccs : List CompiledController}
    (h : List.Forall₂ (fun c cc => compileController f c = .ok cc) cs ccs) :
    (ccs.flatMap CompiledController.units).flatMap creationsIn = cs.flatMap fun c => c.endpoints.map handlerName := by
  induction h with
  | nil => rfl
  | cons hc _ ih =>
      rw [List.flatMap_cons, List.flatMap_append, (creations_of_controller hc).2.2, ih, List.flatMap_cons]

/-! ## Builds -/

/-- **The units of a build fit together.** Whenever controllers compile, the names of all their units are different;
the units link when they are loaded from their bytes in any order, into any loader without units that knows the
framework's classes; and each handler is made by one instruction of all units, in the registration of its own
controller. -/
theorem build_links {config : Config} {cs : List Controller} {ccs : List CompiledController} {w w' : Workspace}
    (h : (compile config cs).run.run w = (.ok ccs, w')) :
    ((ccs.flatMap CompiledController.units).map (·.name)).Nodup ∧
    (∀ (order : List EncodedUnit) (l : Loader), order.Perm (ccs.flatMap CompiledController.units) → l.units = [] →
      (∀ edge ∈ Framework.hierarchy.edges, edge ∈ l.hierarchy.edges) →
        ∃ l' p, l.loadAll (order.map (·.bytes)) = (l', .ok ()) ∧ l'.link = .ok p ∧
          List.Forall₂ EncodedUnit.Holds order p.units) ∧
    ∀ cc ∈ ccs, ∀ handler ∈ cc.handlers, handler.name ∈ creationsIn cc.registration ∧
      ((ccs.flatMap CompiledController.units).flatMap creationsIn).count handler.name = 1 := by
  obtain ⟨f, hcs, hnames⟩ := compile_eq_ok h
  have hchecked : ∀ c ∈ cs, checkController c = .ok () := by
    intro c hc
    obtain ⟨cc, -, hcc⟩ := exists_right_of_mem hcs hc
    exact (compileController_parts hcc).1
  have hnodup := unitNames_nodup hchecked hnames
  obtain ⟨us, hus, hcomplete, husnames⟩ := units_of_controllers hcs
  refine ⟨?_, ?_, ?_⟩
  · have hencoded : (ccs.flatMap CompiledController.units).map (·.name) = us.map (·.name) := by
      rw [← List.forall₂_eq_eq_eq, List.forall₂_map_left_iff, List.forall₂_map_right_iff]
      exact hus.imp fun _ _ henc => henc.name
    rw [hencoded, husnames]
    exact hnodup
  · intro order l hperm hunits hedges
    obtain ⟨us', hus', hperm'⟩ := List.perm_comp_forall₂ hperm hus
    have hnodup' : (us'.map (·.name)).Nodup := by
      rw [(hperm'.map _).nodup_iff, husnames]
      exact hnodup
    have hcomplete' : Loader.Complete us' := fun u hu =>
      (hcomplete u (hperm'.mem_iff.mp hu)).mono fun w hw => hperm'.mem_iff.mpr hw
    refine ⟨_, _, Loader.loadAll_eq_ok ?_ ?_, Loader.link_complete hunits hedges hnodup' hcomplete', hus'⟩
    · rw [List.forall₂_map_left_iff]
      exact hus'.imp fun _ _ henc => henc.decode
    · rw [hunits, List.nil_append]
      exact hnodup'
  · intro cc hcc handler hhandler
    obtain ⟨c, hc, hcompiled⟩ := exists_left_of_mem hcs hcc
    obtain ⟨hhandlers, hregistration, -⟩ := creations_of_controller hcompiled
    have hname : handler.name ∈ c.endpoints.map handlerName := hhandlers ▸ List.mem_map_of_mem hhandler
    refine ⟨hregistration ▸ hname, ?_⟩
    -- The handlers are among the units, of which no two have one name.
    rw [creations_of_controllers hcs]
    refine List.count_eq_one_of_mem (hnodup.sublist ?_) (List.mem_flatMap.mpr ⟨c, hc, hname⟩)
    exact List.Sublist.flatMap_right cs fun c _ => List.sublist_append_left ..

/-- The units of a controller with one endpoint, loaded last to first. -/
theorem build_links_library :
    ∃ ccs w', (compile .default [library]).run.run default = (.ok ccs, w') ∧
      ((ccs.flatMap CompiledController.units).map (·.name)).Nodup ∧
      (∃ l' p, Loader.empty.loadAll ((ccs.flatMap CompiledController.units).reverse.map (·.bytes)) = (l', .ok ()) ∧
        l'.link = .ok p) ∧
      ∃ cc ∈ ccs, ∃ handler ∈ cc.handlers, handler.name ∈ creationsIn cc.registration := by
  have hok : (((compile .default [library]).run.run default).1.toOption.any fun ccs =>
      ccs.any fun cc => !cc.handlers.isEmpty) = true := by decide +kernel
  rcases hrun : (compile .default [library]).run.run default with ⟨e | ccs, w'⟩
  · rw [hrun] at hok
    cases hok
  · rw [hrun] at hok
    obtain ⟨cc, hcc, hsome⟩ := List.any_eq_true.mp hok
    obtain ⟨handler, hhandler⟩ : ∃ handler, handler ∈ cc.handlers := by
      apply List.exists_mem_of_ne_nil
      intro hnil
      rw [hnil] at hsome
      cases hsome
    obtain ⟨hnames, hlinks, hmade⟩ := build_links hrun
    obtain ⟨l', p, hload, hlink, -⟩ := hlinks _ Loader.empty (List.reverse_perm _) rfl fun _ hedge => hedge
    exact ⟨ccs, w', rfl, hnames, ⟨l', p, hload, hlink⟩, cc, hcc, handler, hhandler, (hmade cc hcc handler hhandler).1⟩

end Routecraft.Build
