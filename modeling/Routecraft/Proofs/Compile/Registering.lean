import Routecraft.Proofs.Compile.Typing

/-!
# When a registration is generated

The code of a registration leaves the stack empty behind each endpoint. Handlers, routes, media types and return
types are always accepted; a class of an enumeration is not if its name cannot stand in a descriptor.

* `effects_routeCode`: running through the code of one endpoint.
* `registration_generated_iff`: the controllers whose registrations are generated.
-/

namespace Routecraft.Compile

open Bytecode Hierarchy

/-- The locals where the code of a registration begins. -/
def installLocals (unit : String) : List (Option SlotType) := [some (.ref unit), some (.ref Platform.router)]

/-- The locals behind the code of an endpoint. -/
def routeLocals (unit : String) : List (Option SlotType) := installLocals unit ++ [some (.ref Platform.route)]

section

variable {h : Hierarchy} {unit : String} {ls : List (Option SlotType)} {f : AttributeFilter}

/-! ## What a route is told -/

/-- The code that tells a route something leaves the stack as it is. -/
theorem effects_setCode (args : List SlotType) {c : Call} {value : List (Instr Constant)} {fine : Prop}
    (hc : Framework.OnObject c args.length) (howner : c.owner = Platform.route)
    (hresult : c.signature.result = some (.object Platform.route))
    (hargs : List.Forall₂ (fun p t => h.accepts p t = true) c.signature.params args)
    (hvalue : ∀ st, Yields fine (h.effects none ⟨st, routeLocals unit⟩ value) ⟨args.reverse ++ st, routeLocals unit⟩) :
    Yields fine (h.effects none ⟨[], routeLocals unit⟩ (setCode c value)) ⟨[], routeLocals unit⟩ := by
  have hload : h.effect none ⟨[], routeLocals unit⟩ (.load routeSlot) =
      .ok ⟨[.ref Platform.route], routeLocals unit⟩ := effect_load rfl
  have hcall : h.effect none ⟨args.reverse ++ [.ref Platform.route], routeLocals unit⟩ c.instr =
      .ok ⟨[.ref Platform.route], routeLocals unit⟩ := by
    rw [← howner]
    rw [← howner] at hresult
    exact effect_onObject args hc hresult hargs
  rw [setCode, List.cons_append, effects_cons, hload, ok_bind, effects_append]
  refine (hvalue _).bind (.of_ok trivial ?_) (and_true fine).symm.to_iff
  rw [effects_cons, hcall, ok_bind, effects_cons, effect_pop]
  rfl

/-- Each media type is left on the stack as one value. -/
theorem leavesAll_mediaTypes (mediaTypes : List String) :
    h.LeavesAll none ls Platform.object True
      (mediaTypes.map fun m => [.string m, Framework.mediaTypeValueOf.instr]) := by
  induction mediaTypes with
  | nil => exact .nil trivial
  | cons m mediaTypes ih =>
      have hcode : h.Leaves none ls True [.string m, Framework.mediaTypeValueOf.instr] (.ref Platform.mediaType) := by
        intro st
        have hcall : h.effect none ⟨.ref Platform.string :: st, ls⟩ Framework.mediaTypeValueOf.instr =
            .ok ⟨.ref Platform.mediaType :: st, ls⟩ :=
          effect_onClass₁ (c := Framework.mediaTypeValueOf) ⟨by decide, rfl, rfl⟩ rfl (h.accepts_of _)
        rw [effects_cons, effect_string, ok_bind, effects_cons, hcall]
        exact .of_ok trivial rfl
      exact .cons and_self_iff.symm (h.isSubtype_root _) hcode ih

/-- The code for media types leaves the route. -/
theorem effects_mediaTypesCode {c : Call} (hc : Framework.OnObject c 1) (howner : c.owner = Platform.route)
    (hsignature : c.signature = .returning [.object Platform.list] (.object Platform.route))
    (mediaTypes : List String) :
    h.effects none ⟨[], routeLocals unit⟩ (mediaTypesCode c mediaTypes) = .ok ⟨[], routeLocals unit⟩ := by
  unfold mediaTypesCode
  split
  · rfl
  · refine (effects_setCode [.ref Platform.list] hc howner (by rw [hsignature]; rfl) ?_
      (leaves_collection (leavesAll_mediaTypes mediaTypes) Machine.Program.onClass_listOf rfl)).ok trivial
    rw [hsignature]
    exact .cons (h.accepts_of (.object Platform.list)) .nil

/-- The code for attributes leaves the route, if the enum types in them can be read. -/
theorem effects_attributesCode (as : AttributeMap) :
    Yields (Readable (entryTypes as)) (h.effects none ⟨[], routeLocals unit⟩ (attributesCode as))
      ⟨[], routeLocals unit⟩ := by
  have hc : Framework.OnObject Framework.setAttribute 2 := ⟨by decide, by decide, rfl⟩
  induction as with
  | nil => exact .of_ok readable_nil rfl
  | cons entry as ih =>
      obtain ⟨name, a⟩ := entry
      obtain ⟨className, ha⟩ : ∃ name, h.Leaves none (routeLocals unit) _ (attributeCode a) (.ref name) :=
        leaves_attributeCode a
      have hargs : List.Forall₂ (fun p t => h.accepts p t = true) Framework.setAttribute.signature.params
          [.ref Platform.string, .ref className] :=
        .cons (h.accepts_of (.object Platform.string)) (.cons (h.accepts_root className) .nil)
      show Yields _ (h.effects none _
        (setCode Framework.setAttribute (.string name :: attributeCode a) ++ attributesCode as)) _
      rw [effects_append]
      refine (effects_setCode _ hc rfl rfl hargs fun st => ?_).bind ih readable_append
      rw [effects_cons, effect_string, ok_bind]
      exact ha _

/-- What the route of an endpoint is told is accepted if the classes of its enumerations can be read. -/
theorem effects_describeCode (hedges : ∀ e ∈ Framework.hierarchy.edges, e ∈ h.edges) (e : Endpoint) :
    Yields (Readable (entryTypes (f.filter e.attributes))) (h.effects none ⟨[], routeLocals unit⟩ (describeCode f e))
      ⟨[], routeLocals unit⟩ := by
  obtain ⟨name, hname, htype⟩ : ∃ name ∈ typeClasses, h.Leaves none (routeLocals unit) True (typeCode e.returnType)
      (.ref name) := leaves_typeCode hedges e.returnType
  have hreturn := (effects_setCode [.ref name] (c := Framework.setReturnType)
    ⟨by decide, by decide, rfl⟩ rfl rfl (.cons (isSubtype_type hedges hname) .nil) htype).ok trivial
  have hconsumes : h.effects none ⟨[], routeLocals unit⟩ (mediaTypesCode Framework.setConsumes e.consumes) = _ :=
    effects_mediaTypesCode (c := Framework.setConsumes) ⟨by decide, by decide, rfl⟩ rfl rfl e.consumes
  have hproduces : h.effects none ⟨[], routeLocals unit⟩ (mediaTypesCode Framework.setProduces e.produces) = _ :=
    effects_mediaTypesCode (c := Framework.setProduces) ⟨by decide, by decide, rfl⟩ rfl rfl e.produces
  simp only [describeCode, effects_append, hreturn, hconsumes, hproduces, ok_bind]
  exact effects_attributesCode _

/-! ## Routes -/

/-- The handler is made, and the route with it is kept. -/
theorem effects_addRouteCode {e : Endpoint} (hhandler : h.isSubtype (handlerName e) Platform.handler = true)
    (hls : ls = installLocals unit ∨ ls = routeLocals unit) :
    h.effects none ⟨[], ls⟩ (addRouteCode unit e) = .ok ⟨[], routeLocals unit⟩ := by
  obtain ⟨hself, hrouter⟩ : ls[0]? = some (some (.ref unit)) ∧ ls[1]? = some (some (.ref Platform.router)) := by
    rcases hls with rfl | rfl <;> exact ⟨rfl, rfl⟩
  have hfield {st : List SlotType} : h.effect none ⟨.ref unit :: st, ls⟩
      (.getField unit Framework.providerField (.object Platform.provider)) = .ok ⟨.ref Platform.provider :: st, ls⟩ :=
    effect_getField (by decide) (h.accepts_of (.object unit))
  have hmade : h.effect none ⟨[.ref Platform.provider, .raw (handlerName e), .raw (handlerName e),
        .ref Platform.string, .ref Platform.string, .ref Platform.router], ls⟩
      (.invokeSpecial (handlerName e) Framework.constructorName Framework.constructorSignature) =
        .ok ⟨[.ref (handlerName e), .ref Platform.string, .ref Platform.string, .ref Platform.router], ls⟩ := by
    have hprovider : List.Forall₂ (fun p t => h.accepts p t = true) Framework.constructorSignature.params
        [.ref Platform.provider] := .cons (h.accepts_of (.object Platform.provider)) .nil
    refine (effect_construct (handlerName e) (signatureOf_eq_ok.mpr ⟨by decide, rfl⟩) rfl hprovider).trans ?_
    -- Both copies of the handler on the stack are initialized; the locals have none.
    rcases hls with rfl | rfl <;> simp [FrameType.constructed, installLocals, routeLocals]
  have hroute : h.effect none ⟨[.ref (handlerName e), .ref Platform.string, .ref Platform.string,
        .ref Platform.router], ls⟩ Framework.routerRoute.instr = .ok ⟨[.ref Platform.route], ls⟩ :=
    effect_onObject [.ref Platform.string, .ref Platform.string, .ref (handlerName e)] (c := Framework.routerRoute)
      ⟨by decide, by decide, rfl⟩ rfl
      (.cons (h.accepts_of (.object Platform.string)) (.cons (h.accepts_of (.object Platform.string))
        (.cons hhandler .nil)))
  have hkept : FrameType.setLocal ⟨[], ls⟩ routeSlot.toNat (.ref Platform.route) = ⟨[], routeLocals unit⟩ := by
    rcases hls with rfl | rfl <;> rfl
  have hloadSelf {st : List SlotType} : h.effect none ⟨st, ls⟩ (.load 0) = .ok ⟨.ref unit :: st, ls⟩ :=
    effect_load hself
  have hloadRouter {st : List SlotType} :
      h.effect none ⟨st, ls⟩ (.load routerSlot) = .ok ⟨.ref Platform.router :: st, ls⟩ := effect_load hrouter
  simp only [addRouteCode, effects_cons, effects_nil, hloadRouter, effect_string, effect_newObject, effect_dup,
    hloadSelf, hfield, hmade, hroute, effect_store, hkept, ok_bind]

/-- The code of an endpoint leaves the stack empty if the classes of the enumerations can be read. -/
theorem effects_routeCode (hedges : ∀ e ∈ Framework.hierarchy.edges, e ∈ h.edges) {e : Endpoint}
    (hhandler : h.isSubtype (handlerName e) Platform.handler = true)
    (hls : ls = installLocals unit ∨ ls = routeLocals unit) :
    Yields (Readable (entryTypes (f.filter e.attributes))) (h.effects none ⟨[], ls⟩ (routeCode unit f e))
      ⟨[], routeLocals unit⟩ := by
  rw [routeCode_eq, effects_append, effects_addRouteCode hhandler hls, ok_bind]
  exact effects_describeCode hedges e

/-- So does the code of several endpoints, one after the other. -/
theorem effects_routes (f : AttributeFilter) (hedges : ∀ e ∈ Framework.hierarchy.edges, e ∈ h.edges)
    {es : List Endpoint} (hhandlers : ∀ e ∈ es, h.isSubtype (handlerName e) Platform.handler = true)
    (hls : ls = installLocals unit ∨ ls = routeLocals unit) :
    ∃ ls', Yields (∀ e ∈ es, Readable (entryTypes (f.filter e.attributes)))
      (h.effects none ⟨[], ls⟩ (es.flatMap (routeCode unit f))) ⟨[], ls'⟩ := by
  induction es generalizing ls with
  | nil => exact ⟨ls, .of_ok (fun _ he => absurd he List.not_mem_nil) rfl⟩
  | cons e es ih =>
      obtain ⟨he, hes⟩ := List.forall_mem_cons.mp hhandlers
      obtain ⟨ls', hrest⟩ := ih hes (.inr rfl)
      refine ⟨ls', ?_⟩
      rw [List.flatMap_cons, effects_append]
      exact (effects_routeCode hedges he hls).bind hrest List.forall_mem_cons

end

/-! ## Registrations -/

/-- The handlers of a registration are known to be handlers. -/
theorem registrationHierarchy_handler {c : Controller} {e : Endpoint} (he : e ∈ c.endpoints) :
    (handlerName e, Platform.handler) ∈ (registrationHierarchy c).edges :=
  List.mem_append_right _ (List.mem_map.mpr ⟨e, he, rfl⟩)

theorem installCode_straight (unit : String) (f : AttributeFilter) (c : Controller) :
    ∀ i ∈ c.endpoints.flatMap (routeCode unit f), i.isStraight = true := by
  intro i hi
  obtain ⟨e, -, hi⟩ := List.mem_flatMap.mp hi
  exact (routeCode_straight hi).1

/-- Running through the code of a registration. -/
theorem effects_installCode (c : Controller) (f : AttributeFilter) :
    ∃ g, Yields (∀ e ∈ c.endpoints, Readable (entryTypes (f.filter e.attributes)))
      ((classesOf (registrationHierarchy c) (registrationName c.name) Platform.installer).effects none
        (.entry (registrationName c.name) Framework.installSignature.params)
        (installCode (registrationName c.name) f c)) g := by
  let h := classesOf (registrationHierarchy c) (registrationName c.name) Platform.installer
  have hclasses : ∀ edge ∈ (registrationHierarchy c).edges, edge ∈ h.edges :=
    fun _ hedge => List.mem_append_left _ (List.mem_append_right [] hedge)
  have hhandlers : ∀ e ∈ c.endpoints, h.isSubtype (handlerName e) Platform.handler = true := fun e he =>
    isSubtype_iff.mpr (.inr (.inr (.single (hclasses _ (registrationHierarchy_handler he)))))
  have hlocals : installLocals (registrationName c.name) = installLocals (registrationName c.name) ∨
      installLocals (registrationName c.name) = routeLocals (registrationName c.name) := .inl rfl
  obtain ⟨ls, hroutes⟩ :=
    effects_routes f (fun edge hedge => hclasses edge (List.mem_append_left _ hedge)) hhandlers hlocals
  refine ⟨⟨[], ls⟩, ?_⟩
  rw [installCode, effects_append]
  refine hroutes.bind (.of_ok trivial ?_) (and_true _).symm.to_iff
  rw [effects_cons, effect_returnVoid]
  rfl

section

variable {c : Controller} {f : AttributeFilter}

/-- **The verdict on a registration** is that of running through its code. -/
theorem registrationUnit_of_length (hsize : (installCode (registrationName c.name) f c).length < 65536) :
    ((∀ e ∈ c.endpoints, Readable (entryTypes (f.filter e.attributes))) → ∃ u, registrationUnit c f = .ok u) ∧
      ((¬∀ e ∈ c.endpoints, Readable (entryTypes (f.filter e.attributes))) →
        ∃ text cause, registrationUnit c f = .error (.internal (.malformed text cause))) := by
  obtain ⟨d, hd, hstarted⟩ := startUnit_ok (registrationName c.name) .registration (registrationHierarchy c)
    Platform.installer
  let a := Assembler.empty.emitAll (installCode (registrationName c.name) f c)
  have hinstrs : a.instrs.toList = c.endpoints.flatMap (routeCode (registrationName c.name) f) ++ [.returnVoid] :=
    Assembler.toList_emitAll _ _
  have hasize : a.size = (installCode (registrationName c.name) f c).length := by
    rw [Assembler.size, ← Array.length_toList, hinstrs, installCode]
  have hcount := Assembler.constantCount_le a.instrs.toList
  have hroom := hstarted.room
  -- The code goes straight to its return, so the verdict is that of its effects.
  have hverdict := Draft.addMethod_of_straight (d := d) (s := Framework.installSignature) Framework.installName hinstrs
    (installCode_straight _ f c) ⟨rfl, rfl⟩ (by omega) (by
      rw [Array.length_toList] at hcount
      unfold Assembler.size at hasize
      rw [poolLimit]
      omega) (by decide)
  obtain ⟨g, hg⟩ := effects_installCode c f
  rw [hinstrs, ← installCode, hstarted.name, hstarted.hierarchy] at hverdict
  have hunit : registrationUnit c f =
      addMethod d Framework.installName Framework.installSignature a >>= fun d => .ok d.toUnit := by
    unfold registrationUnit
    simp only [hd, ok_bind]
    rfl
  rw [hunit]
  unfold addMethod
  constructor
  · intro hreadable
    obtain ⟨d', hd', -⟩ := hverdict.1 g (hg.ok hreadable)
    rw [hd']
    exact ⟨d'.toUnit, rfl⟩
  · intro hnot
    obtain ⟨text, cause, herror⟩ := hg.malformed hnot
    obtain ⟨d', q, hd'⟩ := hverdict.2 _ herror
    rw [hd']
    exact ⟨text, cause, rfl⟩

/-- A registration with too much code is refused for that. -/
theorem registrationUnit_of_overflow (hsize : ¬(installCode (registrationName c.name) f c).length < 65536) :
    registrationUnit c f = .error (.internal (.tableOverflow "code")) := by
  obtain ⟨d, hd, -⟩ := startUnit_ok (registrationName c.name) .registration (registrationHierarchy c)
    Platform.installer
  have hasize : ¬(Assembler.empty.emitAll (installCode (registrationName c.name) f c)).size < 65536 := by
    rw [Assembler.size, ← Array.length_toList, Assembler.toList_emitAll]
    exact hsize
  unfold registrationUnit
  simp only [hd, ok_bind]
  rw [← installCode]
  unfold addMethod Draft.addMethod Assembler.assemble
  simp only [if_neg hasize]
  rfl

end

/-- **The controllers whose registrations are generated.** Nothing is asked of the endpoints but that the code for
all of them together is short enough, and that the class of each enumeration among the attributes that are kept can
stand in a descriptor. -/
theorem registration_generated_iff (c : Controller) (f : AttributeFilter) :
    (∃ u, registrationUnit c f = .ok u) ↔
      (installCode (registrationName c.name) f c).length < 65536 ∧
        ∀ e ∈ c.endpoints, Readable (entryTypes (f.filter e.attributes)) := by
  constructor
  · rintro ⟨u, hu⟩
    have hsize : (installCode (registrationName c.name) f c).length < 65536 := by
      by_contra hnot
      cases hu.symm.trans (registrationUnit_of_overflow hnot)
    refine ⟨hsize, ?_⟩
    by_contra hnot
    obtain ⟨text, cause, herror⟩ := (registrationUnit_of_length hsize).2 hnot
    cases hu.symm.trans herror
  · rintro ⟨hsize, hreadable⟩
    exact (registrationUnit_of_length hsize).1 hreadable

/-- A controller with an attribute of an enumeration whose name cannot stand in a descriptor. -/
def menu : Controller where
  name := "app.Menu"
  path := "/"
  endpoints := [
    { owner := "app.Menu"
      name := "today"
      params := []
      returnType := .plain "app.Dish"
      verb := .get
      pattern := "/"
      consumes := []
      produces := []
      attributes := [("Course", .enum "app.Course;" "SOUP")] }]

/-- Its endpoint is its own and has a handler, but its registration is not generated. -/
theorem menu_unregistered :
    checkController menu = .ok () ∧ (∀ e ∈ menu.endpoints, (compileHandler e).isOk = true) ∧
      registrationUnit menu ⟨AttributeFilter.defaultExcluded⟩ =
        .error (.internal (.malformed "Lapp.Course;;" (.descriptor (.trailing 12)))) := by
  decide +kernel

end Routecraft.Compile
