import Routecraft.Machine.Loader
import Routecraft.Proofs.Compile.RouteNames
import Routecraft.Proofs.Compile.Units

/-!
# Linking a compiled controller

The units of a compiled controller are read back from their bytes, have names of their own, and link.

* `compileController_eq_ok`: the units of a controller.
* `Loader.loadAll_eq_ok`: loading units with names of their own.
* `Loader.link_compiled`: the units of a controller link.
-/

namespace Routecraft.Compile

open Bytecode

/-! ## The units of a controller -/

/-- An error of the generator becomes an internal one, and a success stays. -/
theorem internally_eq_ok {α : Type} {x : Except UnitError α} {y : α} : internally x = .ok y ↔ x = .ok y := by
  cases x <;> simp [internally]

/-- Compiling a handler is to make its unit and to encode it. -/
theorem compileHandler_eq_ok {e : Endpoint} {enc : EncodedUnit} :
    compileHandler e = .ok enc ↔ ∃ u, handlerUnit e = .ok u ∧ EncodedUnit.of u = .ok enc := by
  unfold compileHandler
  simp only [bind_eq_ok, internally_eq_ok]

/-- The endpoints of a checked controller are its own, and their handlers have different names. -/
theorem checkEndpoints_eq_ok {controller : String} {before : List (String × Endpoint)} {es : List Endpoint}
    (h : checkEndpoints controller before es = .ok ()) :
    (∀ e ∈ es, e.owner = controller ∧ handlerName e ∉ before.map (·.1)) ∧ (es.map handlerName).Nodup := by
  induction es generalizing before with
  | nil => simp
  | cons e es ih =>
      unfold checkEndpoints at h
      split at h
      · simp at h
      · next howner =>
        simp only at h
        split at h
        · simp at h
        · next hlookup =>
          obtain ⟨hes, hnodup⟩ := ih h
          have hnot : handlerName e ∉ before.map (·.1) := by
            rw [List.mem_map]
            rintro ⟨b, hb, hname⟩
            have := List.lookup_eq_none_iff.mp hlookup b hb
            simp [hname] at this
          refine ⟨?_, ?_⟩
          · intro e' he'
            rcases List.mem_cons.mp he' with rfl | he'
            · exact ⟨by simpa using howner, hnot⟩
            · obtain ⟨howner', hnot'⟩ := hes e' he'
              exact ⟨howner', fun hmem => hnot' (List.mem_cons_of_mem _ hmem)⟩
          · rw [List.map_cons, List.nodup_cons]
            refine ⟨?_, hnodup⟩
            rw [List.mem_map]
            rintro ⟨e', he', hname⟩
            apply (hes e' he').2
            rw [hname]
            exact List.mem_cons_self

/-- An encoded unit has the name of the unit, which is read back from its bytes. -/
structure EncodedUnit.Holds (enc : EncodedUnit) (u : CodeUnit) : Prop where
  name : enc.name = u.name
  decode : CodeUnit.decode enc.bytes = .ok u

/-- The encoding of a unit that was generated holds it. -/
theorem Generated.holds {unit interface method : String} {h : Hierarchy} {s : Signature} {a : Assembler} {u : CodeUnit}
    (hu : Generated unit interface h method s a u) (hs : s.WellFormed) {enc : EncodedUnit}
    (henc : EncodedUnit.of u = .ok enc) : enc.Holds u := by
  have hdecode := hu.decode hs henc
  obtain ⟨bytes, -, henc⟩ := bind_eq_ok.mp henc
  cases henc
  exact ⟨rfl, hdecode⟩

/-- If handlers compile, their units are made, and the encodings hold them. -/
theorem units_of_handlers {es : List Endpoint} {encoded : List EncodedUnit}
    (h : List.Forall₂ (fun e enc => compileHandler e = .ok enc) es encoded) :
    ∃ us, List.Forall₂ (fun e u => handlerUnit e = .ok u) es us ∧ List.Forall₂ EncodedUnit.Holds encoded us := by
  induction h with
  | nil => exact ⟨[], .nil, .nil⟩
  | cons he _ ih =>
      obtain ⟨u, hu, hof⟩ := compileHandler_eq_ok.mp he
      obtain ⟨us, hus, hholds⟩ := ih
      obtain ⟨a, -, hgenerated⟩ := handlerUnit_eq_ok hu
      exact ⟨u :: us, .cons hu hus, .cons (hgenerated.holds (by decide) hof) hholds⟩

/-- The handlers have the names of their endpoints. -/
theorem names_of_handlers {es : List Endpoint} {us : List CodeUnit}
    (h : List.Forall₂ (fun e u => handlerUnit e = .ok u) es us) : us.map (·.name) = es.map handlerName := by
  rw [← List.forall₂_eq_eq_eq, List.forall₂_map_left_iff, List.forall₂_map_right_iff]
  apply List.Forall₂.flip
  apply h.imp
  intro e u hu
  obtain ⟨a, -, hgenerated⟩ := handlerUnit_eq_ok hu
  exact hgenerated.name

/-- **The parts of a compiled controller**: the controller is checked, its endpoints have handlers, and it has a
registration. -/
theorem compileController_parts {f : AttributeFilter} {c : Controller} {cc : CompiledController}
    (h : compileController f c = .ok cc) :
    checkController c = .ok () ∧ ∃ us r, List.Forall₂ (fun e u => handlerUnit e = .ok u) c.endpoints us ∧
      registrationUnit c f = .ok r ∧ List.Forall₂ EncodedUnit.Holds cc.handlers us ∧ cc.registration.Holds r := by
  obtain ⟨_, hcheck, h⟩ := bind_eq_ok.mp h
  obtain ⟨handlers, hhandlers, h⟩ := bind_eq_ok.mp h
  obtain ⟨r, hr, h⟩ := bind_eq_ok.mp h
  obtain ⟨enc, henc, h⟩ := bind_eq_ok.mp h
  rw [internally_eq_ok] at henc
  cases h
  obtain ⟨us, hus, hholds⟩ := units_of_handlers (mapM_eq_ok.mp hhandlers)
  exact ⟨hcheck, us, r, hus, hr, hholds, (registrationUnit_eq_ok hr).holds (by decide) henc⟩

/-- The endpoints of a checked controller are its own, and all its units have different names. -/
theorem checkController_eq_ok {c : Controller} (h : checkController c = .ok ()) :
    (∀ e ∈ c.endpoints, e.owner = c.name) ∧ (c.endpoints.map handlerName ++ [registrationName c.name]).Nodup := by
  unfold checkController at h
  split at h
  · simp at h
  · obtain ⟨howner, hnodup⟩ := checkEndpoints_eq_ok h
    refine ⟨fun e he => (howner e he).1, ?_⟩
    rw [List.nodup_append]
    refine ⟨hnodup, by simp, ?_⟩
    intro name hname _ hregistration heq
    rw [List.mem_singleton.mp hregistration] at heq
    obtain ⟨e, -, rfl⟩ := List.mem_map.mp hname
    exact RouteName.registrationName_ne_render _ _ heq.symm

/-- **The units of a compiled controller**, as they were before they were encoded. -/
theorem compileController_eq_ok {f : AttributeFilter} {c : Controller} {cc : CompiledController}
    (h : compileController f c = .ok cc) :
    ∃ us r, List.Forall₂ (fun e u => handlerUnit e = .ok u) c.endpoints us ∧
      registrationUnit c f = .ok r ∧ cc.registration.name = r.name ∧
      List.Forall₂ (fun bytes u => CodeUnit.decode bytes = .ok u) (cc.units.map (·.bytes)) (us ++ [r]) ∧
      (c.endpoints.map handlerName ++ [registrationName c.name]).Nodup := by
  obtain ⟨hcheck, us, r, hus, hr, hholds, hregistration⟩ := compileController_parts h
  refine ⟨us, r, hus, hr, hregistration.name, ?_, (checkController_eq_ok hcheck).2⟩
  rw [CompiledController.units, List.forall₂_map_left_iff]
  exact List.rel_append (hholds.imp fun _ _ henc => henc.decode) (.cons hregistration.decode .nil)

end Routecraft.Compile

namespace Routecraft.Machine

open Bytecode Compile

/-! ## Loading -/

namespace Loader

def withUnits (l : Loader) (us : List CodeUnit) : Loader :=
  { l with
    units := l.units ++ us
    hierarchy := l.hierarchy.extend ⟨us.flatMap fun u => u.interfaces.map (u.name, ·)⟩ }

/-- A unit is not found if none has its name. -/
theorem findUnit?_eq_none {us : List CodeUnit} {name : String} :
    findUnit? us name = none ↔ name ∉ us.map (·.name) := by
  simp [findUnit?, List.find?_eq_none]

/-- Units can be added in two goes. -/
theorem withUnits_withUnits (l : Loader) (us vs : List CodeUnit) :
    (l.withUnits us).withUnits vs = l.withUnits (us ++ vs) := by
  simp [withUnits, Hierarchy.extend]

/-- A unit with a name of its own is taken in. -/
theorem add_of_new {l : Loader} {u : CodeUnit} (hnew : findUnit? l.units u.name = none) :
    l.add u = .ok (l.withUnits [u]) := by
  simp [add, hnew, withUnits]

/-- Units with names of their own are taken in one after the other. -/
theorem loadAll_eq_ok {l : Loader} {encoded : List (List UInt8)} {us : List CodeUnit}
    (h : List.Forall₂ (fun bytes u => CodeUnit.decode bytes = .ok u) encoded us)
    (hnodup : ((l.units ++ us).map (·.name)).Nodup) : l.loadAll encoded = (l.withUnits us, .ok ()) := by
  induction h generalizing l with
  | nil => simp [loadAll, withUnits, Hierarchy.extend]
  | @cons bytes u encoded us hdecode _ ih =>
      have hfind : findUnit? l.units u.name = none := by
        rw [findUnit?_eq_none]
        intro hmem
        rw [List.map_append, List.nodup_append] at hnodup
        exact hnodup.2.2 u.name hmem u.name (by simp) rfl
      have hload : l.load bytes = .ok (u.name, l.withUnits [u]) := by
        unfold load
        rw [hdecode]
        simp only [add_of_new hfind, Except.map]
      unfold loadAll
      rw [hload]
      simp only
      rw [ih (by simpa [withUnits] using hnodup), withUnits_withUnits]
      rfl

/-- A unit with a name of its own is found by it. -/
theorem findUnit?_of_mem {us : List CodeUnit} (hnodup : (us.map (·.name)).Nodup) {u : CodeUnit} (hu : u ∈ us) :
    findUnit? us u.name = some u := by
  induction us with
  | nil => simp at hu
  | cons w us ih =>
      rw [List.map_cons, List.nodup_cons] at hnodup
      unfold findUnit?
      rw [List.find?_cons]
      rcases List.mem_cons.mp hu with rfl | hu
      · simp
      · have hne : (w.name == u.name) = false := by
          rw [beq_eq_false_iff_ne]
          intro heq
          apply hnodup.1
          rw [heq]
          exact List.mem_map_of_mem hu
        rw [hne]
        exact ih hnodup.2 hu

/-! ## Checking -/

variable {l : Loader}

/-- An instruction passes the loader if it makes no object, or one of a unit that is loaded. -/
theorem checkNew_eq_ok {pool : Pool} {labels : Array (Option UInt16)} {i : Instr UInt16} {i' : Instr Constant}
    (h : Instr.Resolves pool labels i i')
    (hnew : Instr.makesObject i' = false ∨ ∃ name, i' = .newObject name ∧ (findUnit? l.units name).isSome = true) :
    l.checkNew pool i = .ok () := by
  rcases hnew with hnew | ⟨name, rfl, hname⟩
  · cases h with
    | onConst op hk =>
        cases op
        case newObject => simp [Instr.makesObject] at hnew
        all_goals rfl
    | _ => rfl
  · cases h with
    | @onConst _ k _ hk =>
        simp only [checkNew, Pool.classAt_eq_ok.mpr hk, hname, if_true]

/-- A generated unit passes the checks of linking. -/
theorem check_generated {unit interface : String} {h : Hierarchy} {method : String} {s : Signature}
    {a : Assembler} {u : CodeUnit} (hu : Generated unit interface h method s a u)
    (hedges : ∀ e ∈ h.edges, e ∈ l.hierarchy.edges)
    (hmain : ∀ {code : Code}, List.Forall₂ (Instr.Resolves u.pool a.labels) code.toList a.instrs.toList →
      code.size < 65536 → code.SingleEntry)
    (hnew : ∀ i ∈ a.instrs.toList,
      Instr.makesObject i = false ∨ ∃ name, i = .newObject name ∧ (findUnit? l.units name).isSome = true) :
    l.check u = .ok () := by
  obtain ⟨init, main, hmethods, hinit, hmethod⟩ := hu.methods
  unfold check
  rw [hu.verify hedges hmain]
  show (u.methods.forM fun m => m.code.toList.forM (l.checkNew u.pool)) = _
  rw [forM_eq_ok, hmethods]
  intro m hm
  rw [forM_eq_ok]
  intro i hi
  obtain ⟨q, hq⟩ := List.mem_iff_getElem?.mp hi
  rw [Array.getElem?_toList] at hq
  rcases List.mem_pair.mp hm with rfl | rfl
  · obtain ⟨i', hi', hresolves⟩ := Code.resolves_at hinit.code hq
    apply checkNew_eq_ok hresolves
    have hmem := List.mem_of_getElem? hi'
    simp only [constructorCode, Assembler.toList_emitAll] at hmem
    simp only [Assembler.empty, List.nil_append, List.mem_cons, List.not_mem_nil, or_false] at hmem
    rcases hmem with rfl | rfl | rfl | rfl <;> exact .inl rfl
  · obtain ⟨i', hi', hresolves⟩ := Code.resolves_at hmethod.code hq
    exact checkNew_eq_ok hresolves (hnew i' (List.mem_of_getElem? hi'))

/-- A handler passes the checks of linking. -/
theorem check_handler {e : Endpoint} {u : CodeUnit} (hu : handlerUnit e = .ok u)
    (hedges : ∀ e ∈ Framework.hierarchy.edges, e ∈ l.hierarchy.edges) : l.check u = .ok () := by
  obtain ⟨a, ha, hgenerated⟩ := handlerUnit_eq_ok hu
  obtain ⟨-, hinstrs, hlabels⟩ := applyCode_eq_ok ha
  apply check_generated hgenerated hedges
  · intro code hcode hsize
    rw [hinstrs, hlabels] at hcode
    exact apply_singleEntry hcode hsize
  · intro i hi
    rw [hinstrs] at hi
    rcases List.mem_append.mp hi with hi | hi
    · exact .inl (callCode_straight _ e i hi).2
    · exact .inl (answerCode_makes e.outcome i hi)

/-- A registration passes the checks of linking, if the handlers are there. -/
theorem check_registration {c : Controller} {f : AttributeFilter} {r : CodeUnit}
    (hr : registrationUnit c f = .ok r)
    (hedges : ∀ e ∈ (registrationHierarchy c).edges, e ∈ l.hierarchy.edges)
    (hhandlers : ∀ e ∈ c.endpoints, (findUnit? l.units (handlerName e)).isSome = true) :
    l.check r = .ok () := by
  have hmem : ∀ i ∈ (Assembler.empty.emitAll (installCode (registrationName c.name) f c)).instrs.toList,
      i = .returnVoid ∨ ∃ e ∈ c.endpoints, i ∈ routeCode (registrationName c.name) f e := by
    intro i hi
    rw [Assembler.toList_emitAll] at hi
    rcases List.mem_append.mp hi with hi | hi
    · simp [Assembler.empty] at hi
    · rcases List.mem_append.mp hi with hi | hi
      · exact .inr (List.mem_flatMap.mp hi)
      · exact .inl (List.mem_singleton.mp hi)
  apply check_generated (registrationUnit_eq_ok hr) hedges
  · intro code hcode _
    apply Code.singleEntry_of_line hcode
    intro i hi
    rcases hmem i hi with rfl | ⟨e, -, hi⟩
    · rfl
    · unfold Instr.staysInLine
      rw [(routeCode_straight hi).1]
      rfl
  · intro i hi
    rcases hmem i hi with rfl | ⟨e, he, hi⟩
    · exact .inl rfl
    · rcases (routeCode_straight hi).2 with hnot | hnew
      · exact .inl hnot
      · exact .inr ⟨_, hnew, hhandlers e he⟩

/-! ## Linking -/

/-- A handler, or a registration whose handlers are among some units. -/
def Served (us : List CodeUnit) (u : CodeUnit) : Prop :=
  (∃ e, handlerUnit e = .ok u) ∨
    ∃ c f, registrationUnit c f = .ok u ∧ ∀ e ∈ c.endpoints, ∃ w ∈ us, handlerUnit e = .ok w

/-- What is served by some units is served by more of them. -/
theorem Served.mono {us us' : List CodeUnit} {u : CodeUnit} (h : Served us u) (hsub : ∀ w ∈ us, w ∈ us') :
    Served us' u := by
  rcases h with hhandler | ⟨c, f, hregistration, hhandlers⟩
  · exact .inl hhandler
  · refine .inr ⟨c, f, hregistration, fun e he => ?_⟩
    obtain ⟨w, hw, hhandler⟩ := hhandlers e he
    exact ⟨w, hsub w hw, hhandler⟩

/-- Units that belong together: handlers, and registrations whose handlers are among them. -/
def Complete (us : List CodeUnit) : Prop := ∀ u ∈ us, Served us u

/-- The units of a controller belong together. -/
theorem complete_of_controller {f : AttributeFilter} {c : Controller} {us : List CodeUnit} {r : CodeUnit}
    (hus : List.Forall₂ (fun e u => handlerUnit e = .ok u) c.endpoints us) (hr : registrationUnit c f = .ok r) :
    Complete (us ++ [r]) := by
  intro u hu
  rcases List.mem_append.mp hu with hu | hu
  · obtain ⟨e, -, hhandler⟩ := exists_left_of_mem hus hu
    exact .inl ⟨e, hhandler⟩
  · rw [List.mem_singleton.mp hu]
    refine .inr ⟨c, f, hr, fun e he => ?_⟩
    obtain ⟨w, hw, hhandler⟩ := exists_right_of_mem hus he
    exact ⟨w, List.mem_append_left _ hw, hhandler⟩

/-- **Units that belong together link**, whatever else is known of classes. -/
theorem link_complete {us : List CodeUnit} (hunits : l.units = [])
    (hedges : ∀ e ∈ Framework.hierarchy.edges, e ∈ l.hierarchy.edges) (hnodup : (us.map (·.name)).Nodup)
    (hcomplete : Complete us) :
    (l.withUnits us).link = .ok ⟨us, (l.withUnits us).hierarchy, l.statics, l.stepLimit, #[]⟩ := by
  have hus : (l.withUnits us).units = us := by
    show l.units ++ us = us
    rw [hunits, List.nil_append]
  have hcheck : ∀ u ∈ us, (l.withUnits us).check u = .ok () := by
    intro u hu
    rcases hcomplete u hu with ⟨e, hhandler⟩ | ⟨c, f, hregistration, hhandlers⟩
    · exact check_handler hhandler fun edge hedge => List.mem_append_left _ (hedges edge hedge)
    · -- A registration makes handlers, which have to be known and loaded.
      apply check_registration hregistration
      · intro edge hedge
        rcases List.mem_append.mp hedge with hedge | hedge
        · exact List.mem_append_left _ (hedges edge hedge)
        · obtain ⟨e, he, rfl⟩ := List.mem_map.mp hedge
          obtain ⟨w, hw, hhandler⟩ := hhandlers e he
          obtain ⟨a, -, hgenerated⟩ := handlerUnit_eq_ok hhandler
          apply List.mem_append_right
          rw [List.mem_flatMap]
          refine ⟨w, hw, ?_⟩
          rw [hgenerated.interfaces, hgenerated.name]
          exact List.mem_singleton_self _
      · intro e he
        obtain ⟨w, hw, hhandler⟩ := hhandlers e he
        obtain ⟨a, -, hgenerated⟩ := handlerUnit_eq_ok hhandler
        rw [hus, ← hgenerated.name, findUnit?_of_mem hnodup hw]
        rfl
  unfold link
  rw [hus, forM_eq_ok.mpr hcheck]
  rfl

/-- The program of a compiled controller, from its handlers and its registration. -/
structure Compiled (f : AttributeFilter) (c : Controller) (us : List CodeUnit) (r : CodeUnit) (p : Program) :
    Prop where
  handlers : List.Forall₂ (fun e u => handlerUnit e = .ok u) c.endpoints us
  registration : registrationUnit c f = .ok r
  units : p.units = us ++ [r]
  nodup : (p.units.map (·.name)).Nodup
  statics : p.statics = []
  stepLimit : p.stepLimit = defaultStepLimit

/-- **The units of a compiled controller link** when they are loaded from their bytes. -/
theorem link_compiled {f : AttributeFilter} {c : Controller} {cc : CompiledController}
    (h : compileController f c = .ok cc) :
    ∃ l us r p, empty.loadAll (cc.units.map (·.bytes)) = (l, .ok ()) ∧ l.link = .ok p ∧
      Compiled f c us r p := by
  obtain ⟨us, r, hus, hr, -, hdecode, hnodup⟩ := compileController_eq_ok h
  have hnodup : ((us ++ [r]).map (·.name)).Nodup := by
    rw [List.map_append, names_of_handlers hus, List.map_singleton, (registrationUnit_eq_ok hr).name]
    exact hnodup
  exact ⟨_, us, r, _, loadAll_eq_ok (l := empty) hdecode hnodup, link_complete rfl (fun _ he => he) hnodup
    (complete_of_controller hus hr),
    ⟨hus, hr, rfl, hnodup, rfl, rfl⟩⟩

end Loader

end Routecraft.Machine
