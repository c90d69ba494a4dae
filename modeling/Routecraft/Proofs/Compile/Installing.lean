import Routecraft.Proofs.Compile.Describing
import Routecraft.Proofs.Compile.Linking

/-!
# Installing a compiled controller

The registration of a compiled controller makes a handler for each endpoint, adds the route to the router, and
tells the route all that the endpoint says.

* `Store.Grows`: what was in a store stays there.
* `Program.run_constructor`: the constructor of a generated unit keeps the provider.
* `Program.run_addRoute`, `Program.run_routeCode`: the code of one endpoint.
* `Program.run_routes`: the code of the endpoints, one after the other.
* `install_registers`: what installing a compiled controller does.
-/

namespace Routecraft.Machine

open Bytecode Compile

variable {p : Program} {s : Store}

/-! ## Growing stores -/

namespace Store

/-- The objects and handles of a store are still there in another one. -/
structure Grows (s s' : Store) : Prop where
  objects : s.objects.toList <+: s'.objects.toList
  handles : s.handles.toList <+: s'.handles.toList

theorem Grows.refl (s : Store) : s.Grows s := ⟨List.prefix_refl _, List.prefix_refl _⟩

theorem Grows.trans {s₁ s₂ s₃ : Store} (h : s₁.Grows s₂) (h' : s₂.Grows s₃) : s₁.Grows s₃ :=
  ⟨h.objects.trans h'.objects, h.handles.trans h'.handles⟩

variable {s' : Store}

/-- Fields of the objects of a store stay as they are when it grows. -/
theorem Grows.field (h : s.Grows s') {number : Nat} (hnumber : number < s.objects.size) (name : String) :
    s'.field number name = s.field number name := by
  obtain ⟨rest, hrest⟩ := h.objects
  unfold Store.field
  rw [Array.getD_eq_getD_getElem?, Array.getD_eq_getD_getElem?, ← Array.getElem?_toList, ← hrest,
    List.getElem?_append_left hnumber, Array.getElem?_toList]

/-- What the host has made stays when a store grows. -/
theorem Grows.hostObject? (h : s.Grows s') {handle : Nat} {object : HostObject}
    (hhandle : s.hostObject? handle = some object) : s'.hostObject? handle = some object := by
  have hlt : handle < s.handles.size := (Array.getElem?_eq_some_iff.mp hhandle).1
  obtain ⟨rest, hrest⟩ := h.handles
  unfold Store.hostObject? at hhandle ⊢
  rw [← Array.getElem?_toList, ← hrest, List.getElem?_append_left hlt, Array.getElem?_toList]
  exact hhandle

/-- A new object, whose provider was then set, as the last of the objects. -/
theorem setField_newObject (unit name : String) (v : Value) :
    (s.newObject unit).2.setField s.objects.size name v = { s with objects := s.objects.push [(name, v)] } := by
  unfold newObject setField
  congr 1
  apply Array.ext'
  have hlt : s.objects.size < (s.objects.push []).toList.length := by simp
  rw [Array.toList_modify, List.modify_eq_take_cons_drop hlt]
  simp

/-- A new object has no fields that are set. -/
theorem field_newObject (unit : String) (number : Nat) (name : String) :
    (s.newObject unit).2.field number name = s.field number name := by
  unfold Store.field newObject
  rw [Array.getD_eq_getD_getElem?, Array.getD_eq_getD_getElem?, Array.getElem?_push]
  split
  · next h =>
    rw [h, Array.getElem?_eq_none (Nat.le_refl _)]
    rfl
  · rfl

end Store

namespace Program

/-! ## Constructors -/

/-- The code of a constructor before it returns. -/
def keepCode (unit : String) : List (Instr Constant) :=
  [.load 0, .load 1, .putField unit Framework.providerField (.object Platform.provider)]

/-- The code of the constructor puts what it is given into the field of the provider. -/
theorem effects_keepCode (unit : String) (n : Nat) (v : Value) :
    s.perform (p.effects (keepCode unit) ⟨#[.object unit n, v], []⟩) =
      (.ok ⟨#[.object unit n, v], []⟩, s.setField n Framework.providerField v) := rfl

/-- **A constructor keeps the provider** in its field, in four steps. -/
theorem run_constructor {unit : String} {h : Hierarchy} {u : CodeUnit} {init : Method}
    (hinit : init.Drafted u.pool unit h Framework.constructorName Framework.constructorSignature
      (constructorCode unit)) {b : Nat} (hb : b + 4 ≤ p.stepLimit) (n : Nat) (v : Value) (keeps : Bool)
    (callers : List Frame) :
    s.perform (p.run (b + 4) ⟨u, init, 0, #[.object unit n, v], [], keeps⟩ callers) =
      (s.setField n Framework.providerField v).perform
        (p.proceed b (giveBack ⟨u, init, 0, #[.object unit n, v], [], keeps⟩ callers .null)) := by
  have hahead : (Frame.mk u init 0 #[.object unit n, v] [] keeps).Ahead (constructorCode unit).labels 0
      (keepCode unit ++ [.returnVoid]) := hinit.code
  have hsimple : ∀ i ∈ keepCode unit, i.isStraight = true ∧ i.callee? = none := by
    simp only [keepCode, List.forall_mem_cons]
    exact ⟨⟨rfl, rfl⟩, ⟨rfl, rfl⟩, ⟨rfl, rfl⟩, by simp⟩
  have hrun := perform_run_effects (n := b + 1) hahead (fun i hi => (hsimple i hi).1)
    (fun i hi => tame_of_callee (hsimple i hi).2) hb ⟨#[.object unit n, v], []⟩ callers s
  have hreturn := run_returnVoid (p := p) (b := b) hahead.append ⟨#[.object unit n, v], []⟩ callers
  calc s.perform (p.run (b + 4) ⟨u, init, 0, #[.object unit n, v], [], keeps⟩ callers)
      = s.perform (p.effects (keepCode unit) ⟨#[.object unit n, v], []⟩ >>= _) := hrun
    _ = (s.setField n Framework.providerField v).perform (p.run (b + 1) _ callers) := by
        rw [Store.perform_bind, effects_keepCode]
    _ = _ := by rw [hreturn]

/-! ## Adding a route -/

/-- The code of an endpoint up to the constructor of its handler. -/
def makeCode (unit : String) (e : Endpoint) : List (Instr Constant) :=
  [.load routerSlot, .string e.verb.name, .string e.pattern, .newObject (handlerName e), .dup, .load 0,
    .getField unit Framework.providerField (.object Platform.provider)]

/-- The code that asks the router for a route, and keeps it. -/
def askCode : List (Instr Constant) := [Framework.routerRoute.instr, .store routeSlot]

/-- The code for a route makes the handler, calls its constructor and asks for its endpoint. -/
theorem addRouteCode_eq (unit : String) (e : Endpoint) :
    addRouteCode unit e =
      makeCode unit e ++
        .invokeSpecial (handlerName e) Framework.constructorName Framework.constructorSignature :: askCode := rfl

variable {unit : String} {e : Endpoint} {ls : Array Value} {number handle router : Nat}
  {provider : Value}

/-- Making a handler leaves it on the stack twice, with the provider. -/
theorem effects_makeCode (hself : ls[0]? = some (.object unit number))
    (hrouter : ls[1]? = some (.host Platform.router handle))
    (hprovider : s.field number Framework.providerField = provider) :
    s.perform (p.effects (makeCode unit e) ⟨ls, []⟩) =
      (.ok ⟨ls, [provider, .object (handlerName e) s.objects.size, .object (handlerName e) s.objects.size,
        .text e.pattern, .text e.verb.name, .host Platform.router handle]⟩, (s.newObject (handlerName e)).2) := by
  have hloadRouter (st : List Value) : p.effect (.load routerSlot) ⟨ls, st⟩ =
      pure ⟨ls, .host Platform.router handle :: st⟩ := effect_load p hrouter st
  have hloadSelf (st : List Value) : p.effect (.load 0) ⟨ls, st⟩ = pure ⟨ls, .object unit number :: st⟩ :=
    effect_load p hself st
  have hstring (text : String) (o : Operands) : p.effect (.string text) o = pure (o.push (.text text)) := rfl
  have hnew (o : Operands) : s.perform (p.effect (.newObject (handlerName e)) o) =
      (.ok (o.push (.object (handlerName e) s.objects.size)), (s.newObject (handlerName e)).2) := rfl
  have hdup (o : Operands) : p.effect .dup o = o.top >>= fun v => pure (o.push v) := rfl
  have hget (s : Store) (st : List Value) :
      s.perform (p.effect (.getField unit Framework.providerField (.object Platform.provider))
        ⟨ls, .object unit number :: st⟩) =
        (.ok ⟨ls, s.field number Framework.providerField :: st⟩, s) := rfl
  simp only [makeCode, effects_cons, effects_nil, hloadRouter, hloadSelf, hstring, hdup, Operands.push_mk,
    Operands.top_mk_cons, pure_bind, Store.perform_bind, hnew, hget, Store.perform_pure, Store.field_newObject,
    hprovider]

/-- The locals after the route was kept. -/
theorem store_routeSlot {self target : Value} (hself : ls[0]? = some self) (hrouter : ls[1]? = some target)
    (v : Value) (st : List Value) :
    ∃ ls', (Operands.mk ls st).store routeSlot v = ⟨ls', st⟩ ∧ ls'[0]? = some self ∧ ls'[1]? = some target ∧
      ls'[2]? = some v := by
  have hsize : 1 < ls.size := (Array.getElem?_eq_some_iff.mp hrouter).1
  have hpos : 0 < ls.size := Nat.zero_lt_of_lt hsize
  have hslot : routeSlot.toNat = 2 := rfl
  refine ⟨_, rfl, ?_, ?_, ?_⟩
  · rw [hslot, Array.getElem?_setIfInBounds_ne (by decide), Array.getElem?_append_left hpos]
    exact hself
  · rw [hslot, Array.getElem?_setIfInBounds_ne (by decide), Array.getElem?_append_left hsize]
    exact hrouter
  · rw [hslot, Array.getElem?_setIfInBounds_self_of_lt]
    rw [Array.size_append, Array.size_replicate]
    omega

/-- The router is asked for a route with three arguments. -/
theorem onObject_routerRoute : Framework.OnObject Framework.routerRoute 3 := ⟨by decide, by decide, rfl⟩

/-- Asking the router for a route. -/
theorem effects_askCode {self : Value} (hself : ls[0]? = some self)
    (hrouter : ls[1]? = some (.host Platform.router handle))
    (hhandle : s.hostObject? handle = some (.router router)) (handler : Value) :
    ∃ ls' route s', s.perform (p.effects askCode
        ⟨ls, [handler, .text e.pattern, .text e.verb.name, .host Platform.router handle]⟩) = (.ok ⟨ls', []⟩, s') ∧
      ls'[0]? = some self ∧ ls'[1]? = some (.host Platform.router handle) ∧
      ls'[2]? = some (.host Platform.route route) ∧ s.AddsRoute route (bareRoute e router handler) s' := by
  obtain ⟨ls', hstore, hself', hrouter', hroute⟩ :=
    store_routeSlot hself hrouter (.host Platform.route s.handles.size) []
  let s' : Store :=
    { s with
      routes := s.routes.push (bareRoute e router handler)
      handles := s.handles.push (.route s.routes.size) }
  have hinvoke : s.perform (p.invoke (.host Platform.router handle) Framework.routerRoute.name
      [.text e.verb.name, .text e.pattern, handler]) = (.ok (.host Platform.route s.handles.size), s') := by
    rw [perform_invoke_host hhandle]
    rfl
  have hkeep (v : Value) (st : List Value) :
      p.effect (.store routeSlot) ⟨ls, v :: st⟩ = pure ((Operands.mk ls st).store routeSlot v) := rfl
  refine ⟨ls', s.handles.size, s', ?_, hself', hrouter', hroute, ?_⟩
  · simp only [askCode, effects_cons, effects_nil, effect_onObject₃ onObject_routerRoute, Store.perform_bind, hinvoke,
      Store.perform_pure, hkeep, hstore]
  · refine ⟨rfl, ?_, ?_, rfl⟩
    · rw [Array.toList_push]
      exact List.prefix_append _ _
    · show (s.handles.push _)[s.handles.size]? = _
      rw [Array.getElem?_push_size]

section

variable {u : CodeUnit} {fr : Frame} {labels : Array (Option UInt16)} {pc b : Nat} {js : List (Instr Constant)}

/-- **The code that adds a route** makes the handler, has it keep the provider, and adds a bare route. -/
theorem run_addRoute (hahead : fr.Ahead labels pc (addRouteCode unit e ++ js))
    (hunit : p.unit? (handlerName e) = some u) (hu : handlerUnit e = .ok u)
    (hquiet : p.Quiet Framework.routerRoute.name) (hb : b + 14 ≤ p.stepLimit)
    (hself : ls[0]? = some (.object unit number)) (hrouter : ls[1]? = some (.host Platform.router handle))
    (hprovider : s.field number Framework.providerField = provider)
    (hhandle : s.hostObject? handle = some (.router router)) (callers : List Frame) :
    ∃ ls' route s', s.perform (p.run (b + 14) (fr.placed pc ⟨ls, []⟩) callers) =
        s'.perform (p.run b (fr.placed (pc + 10) ⟨ls', []⟩) callers) ∧
      ls'[0]? = some (.object unit number) ∧ ls'[1]? = some (.host Platform.router handle) ∧
      ls'[2]? = some (.host Platform.route route) ∧
      Store.AddsRoute { s with objects := s.objects.push [(Framework.providerField, provider)] } route
        (bareRoute e router (.object (handlerName e) s.objects.size)) s' := by
  obtain ⟨a, -, hgenerated⟩ := handlerUnit_eq_ok hu
  obtain ⟨init, hmethod, hinit⟩ := hgenerated.constructor?
  -- The store in which the handler has its provider, before the route is asked for.
  let s₁ : Store := { s with objects := s.objects.push [(Framework.providerField, provider)] }
  have hhandle₁ : s₁.hostObject? handle = some (.router router) := hhandle
  obtain ⟨ls', route, s', hask, hself', hrouter', hroute, hs'⟩ :=
    effects_askCode (p := p) (e := e) hself hrouter hhandle₁ (.object (handlerName e) s.objects.size)
  refine ⟨ls', route, s', ?_, hself', hrouter', hroute, hs'⟩
  rw [addRouteCode_eq, List.append_assoc, List.cons_append] at hahead
  have hmakeSimple : ∀ i ∈ makeCode unit e, i.isStraight = true ∧ i.callee? = none := by
    simp only [makeCode, List.forall_mem_cons]
    exact ⟨⟨rfl, rfl⟩, ⟨rfl, rfl⟩, ⟨rfl, rfl⟩, ⟨rfl, rfl⟩, ⟨rfl, rfl⟩, ⟨rfl, rfl⟩, ⟨rfl, rfl⟩, by simp⟩
  have haskSimple : ∀ i ∈ askCode, i.isStraight = true ∧ p.Tame False i := by
    simp only [askCode, List.forall_mem_cons]
    refine ⟨⟨rfl, ?_⟩, ⟨rfl, tame_of_callee rfl⟩, by simp⟩
    intro m hm
    cases hm
    exact .inl hquiet
  let kept : List Value := [.object (handlerName e) s.objects.size, .text e.pattern, .text e.verb.name,
    .host Platform.router handle]
  have hsignature : Bytecode.signatureOf Framework.constructorSignature.descriptor =
      .ok Framework.constructorSignature := signatureOf_eq_ok.mpr ⟨by decide, rfl⟩
  -- Three pieces: the handler is made, its constructor runs as a call of its own, and the router is asked.
  have hmake := perform_run_effects (p := p) (n := b + 7) hahead (fun i hi => (hmakeSimple i hi).1)
    (fun i hi => tame_of_callee (hmakeSimple i hi).2) hb ⟨ls, []⟩ callers s
  have henter := run_enter (p := p) (b := b + 6) hahead.append rfl hsignature [provider] rfl hunit hmethod
    s.objects.size ⟨ls, kept⟩ callers
  have hconstructor := run_constructor (p := p) (s := (s.newObject (handlerName e)).2) hinit (b := b + 2)
    (by omega) s.objects.size provider false (fr.placed (pc + 8) ⟨ls, kept⟩ :: callers)
  have hrest := perform_run_effects (p := p) (n := b) hahead.append.tail (fun i hi => (haskSimple i hi).1)
    (fun i hi => (haskSimple i hi).2) (Nat.le_trans (by simp [askCode]) hb) ⟨ls, kept⟩ callers s₁
  calc s.perform (p.run (b + 14) (fr.placed pc ⟨ls, []⟩) callers)
      = s.perform (p.effects (makeCode unit e) ⟨ls, []⟩ >>= _) := hmake
    _ = (s.newObject (handlerName e)).2.perform (p.run (b + 6 + 1)
          (fr.placed (pc + 7) ⟨ls, provider :: .object (handlerName e) s.objects.size :: kept⟩) callers) := by
        rw [Store.perform_bind, effects_makeCode hself hrouter hprovider]
        rfl
    _ = (s.newObject (handlerName e)).2.perform (p.run (b + 2 + 4) _ _) := congrArg _ henter
    _ = s₁.perform (p.run (b + 2) _ callers) := by
        rw [Store.setField_newObject] at hconstructor
        exact hconstructor
    _ = s₁.perform (p.effects askCode _ >>= _) := hrest
    _ = s'.perform (p.run b (fr.placed (pc + 10) ⟨ls', []⟩) callers) := by
        rw [Store.perform_bind, hask]
        rfl

variable {f : AttributeFilter}

/-- **The code of an endpoint** adds its route, with a handler that keeps the provider. -/
theorem run_routeCode (hp : p.Unshadowed) (hquiet : ∀ c ∈ Framework.catalogue, p.Quiet c.name)
    (hahead : fr.Ahead labels pc (routeCode unit f e ++ js)) (hsize : fr.method.code.size < 65536)
    (hunit : p.unit? (handlerName e) = some u) (hu : handlerUnit e = .ok u)
    (hb : b + ((routeCode unit f e).length + 4) ≤ p.stepLimit) (hself : ls[0]? = some (.object unit number))
    (hrouter : ls[1]? = some (.host Platform.router handle))
    (hprovider : s.field number Framework.providerField = provider)
    (hhandle : s.hostObject? handle = some (.router router)) (callers : List Frame) :
    ∃ (ls' : Array Value) (s' : Store),
      s.perform (p.run (b + ((routeCode unit f e).length + 4)) (fr.placed pc ⟨ls, []⟩) callers) =
        s'.perform (p.run b (fr.placed (pc + (routeCode unit f e).length) ⟨ls', []⟩) callers) ∧
      ls'[0]? = some (.object unit number) ∧ ls'[1]? = some (.host Platform.router handle) ∧
      s'.objects = s.objects.push [(Framework.providerField, provider)] ∧
      s.handles.toList <+: s'.handles.toList ∧
      s'.routes = s.routes.push (routeOf f e router (.object (handlerName e) s.objects.size)) := by
  have hlength : (routeCode unit f e).length = (describeCode f e).length + 10 := by
    rw [routeCode_eq, List.length_append, Nat.add_comm]
    rfl
  rw [routeCode_eq, List.append_assoc] at hahead
  obtain ⟨ls', route, s₁, hadd, hself', hrouter', hroute, hs₁⟩ :=
    run_addRoute (b := b + (describeCode f e).length) hahead hunit hu (hquiet _ (by decide)) (by omega)
      hself hrouter hprovider hhandle callers
  have hdescribe := hahead.append
  -- The attributes are told in arrays, so their code has to be shorter than an array can be long.
  have hshort : (describeCode f e).length ≤ 2147483647 := by
    have := hdescribe.length_le
    rw [List.length_append] at this
    omega
  obtain ⟨change, htells, hchange⟩ := tells_describeCode hp f e hshort
  obtain ⟨s', htold, hs'⟩ := htells ls' [] _ s₁ route _ hroute hs₁
  have hrun := perform_run_effects (p := p) (n := b) hdescribe (fun i hi => (plain_describeCode f e i hi).straight)
    (fun i hi => tame_of_plain (plain_describeCode f e i hi) fun _ => hquiet) (by omega) ⟨ls', []⟩ callers s₁
  refine ⟨ls', s', ?_, hself', hrouter', hs'.objects, hs'.handles, ?_⟩
  · calc s.perform (p.run (b + ((routeCode unit f e).length + 4)) (fr.placed pc ⟨ls, []⟩) callers)
        = s.perform (p.run (b + (describeCode f e).length + 14) (fr.placed pc ⟨ls, []⟩) callers) := by
          rw [hlength]
          rfl
      _ = s₁.perform (p.run (b + (describeCode f e).length) (fr.placed (pc + 10) ⟨ls', []⟩) callers) := hadd
      _ = s₁.perform (p.effects (describeCode f e) ⟨ls', []⟩ >>= _) := hrun
      _ = s'.perform (p.run b (fr.placed (pc + (routeCode unit f e).length) ⟨ls', []⟩) callers) := by
          rw [Store.perform_bind, htold, hlength, Nat.add_comm (describeCode f e).length, ← Nat.add_assoc]
          rfl
  · rw [hs'.routes, hchange]

/-! ## All endpoints -/

/-- The route of an endpoint, with a handler that has the provider in its field. -/
def Installed (f : AttributeFilter) (provider : Value) (router : Nat) (s : Store) (e : Endpoint)
    (r : Registered) : Prop :=
  ∃ number < s.objects.size, r = routeOf f e router (.object (handlerName e) number) ∧
    s.field number Framework.providerField = provider

/-- A route that is installed stays so when the store grows. -/
theorem Installed.grows {s s' : Store} {r : Registered} (h : Installed f provider router s e r)
    (hgrows : s.Grows s') : Installed f provider router s' e r := by
  obtain ⟨number, hnumber, hr, hfield⟩ := h
  have hle : s.objects.size ≤ s'.objects.size := hgrows.objects.length_le
  exact ⟨number, Nat.lt_of_lt_of_le hnumber hle, hr, (hgrows.field hnumber _).trans hfield⟩

/-- **The code of the endpoints** adds their routes in order. -/
theorem run_routes (hp : p.Unshadowed) (hquiet : ∀ c ∈ Framework.catalogue, p.Quiet c.name)
    {es : List Endpoint} (hes : ∀ e ∈ es, ∃ u, p.unit? (handlerName e) = some u ∧ handlerUnit e = .ok u)
    (hahead : fr.Ahead labels pc (es.flatMap (routeCode unit f) ++ js)) (hsize : fr.method.code.size < 65536)
    (hb : b + ((es.flatMap (routeCode unit f)).length + 4 * es.length) ≤ p.stepLimit)
    (hself : ls[0]? = some (.object unit number)) (hrouter : ls[1]? = some (.host Platform.router handle))
    (hnumber : number < s.objects.size) (hprovider : s.field number Framework.providerField = provider)
    (hhandle : s.hostObject? handle = some (.router router)) (callers : List Frame) :
    ∃ (ls' : Array Value) (s' : Store) (rs : List Registered),
      s.perform (p.run (b + ((es.flatMap (routeCode unit f)).length + 4 * es.length)) (fr.placed pc ⟨ls, []⟩)
          callers) =
        s'.perform (p.run b (fr.placed (pc + (es.flatMap (routeCode unit f)).length) ⟨ls', []⟩) callers) ∧
      s.Grows s' ∧ s'.routes.toList = s.routes.toList ++ rs ∧
      List.Forall₂ (Installed f provider router s') es rs := by
  induction es generalizing pc b ls s with
  | nil => exact ⟨ls, s, [], rfl, .refl s, (List.append_nil _).symm, .nil⟩
  | cons e es ih =>
      obtain ⟨⟨u, hunit, hu⟩, hes⟩ := List.forall_mem_cons.mp hes
      rw [List.flatMap_cons, List.append_assoc] at hahead
      rw [List.flatMap_cons, List.length_append, List.length_cons] at hb ⊢
      obtain ⟨ls₁, s₁, hfirst, hself₁, hrouter₁, hobjects, hhandles, hroutes⟩ :=
        run_routeCode (b := b + ((es.flatMap (routeCode unit f)).length + 4 * es.length)) hp hquiet hahead hsize
          hunit hu (by omega) hself hrouter hprovider hhandle callers
      have hgrows : s.Grows s₁ := by
        refine ⟨?_, hhandles⟩
        rw [hobjects, Array.toList_push]
        exact List.prefix_append _ _
      have hsize₁ : s₁.objects.size = s.objects.size + 1 := by
        rw [hobjects, Array.size_push]
      -- The other endpoints start from where the first one ends, with the same provider and router.
      obtain ⟨ls', s', rs, hrest, hgrows', hroutes', hrs⟩ :=
        ih (b := b) hes hahead.append (by omega) hself₁ hrouter₁ (by omega) ((hgrows.field hnumber _).trans hprovider)
          (hgrows.hostObject? hhandle)
      have hinstalled : Installed f provider router s₁ e
          (routeOf f e router (.object (handlerName e) s.objects.size)) := by
        refine ⟨s.objects.size, by omega, rfl, ?_⟩
        unfold Store.field
        rw [hobjects, Array.getD_eq_getD_getElem?, Array.getElem?_push_size]
        rfl
      refine ⟨ls', s', routeOf f e router (.object (handlerName e) s.objects.size) :: rs, ?_, hgrows.trans hgrows',
        ?_, .cons (hinstalled.grows hgrows') hrs⟩
      · rw [← Nat.add_assoc pc, ← hrest, ← hfirst]
        congr 2
        omega
      · rw [hroutes', hroutes, Array.toList_push, List.append_assoc]
        rfl

end

end Program

/-! ## Installing -/

namespace Loader.Compiled

variable {f : AttributeFilter} {c : Controller} {us : List CodeUnit} {r : CodeUnit}

/-- The units of a controller have no methods that are named like one of the framework. -/
theorem quiet (h : Compiled f c us r p) : ∀ c ∈ Framework.catalogue, p.Quiet c.name := by
  have hnames : ∀ c ∈ Framework.catalogue, Framework.constructorName ≠ c.name ∧ Framework.applyName ≠ c.name ∧
      Framework.installName ≠ c.name := by decide +kernel
  intro c hc u hu
  obtain ⟨hconstructor, happly, hinstall⟩ := hnames c hc
  rw [h.units] at hu
  rcases List.mem_append.mp hu with hu | hu
  · obtain ⟨e, -, hhandler⟩ := exists_left_of_mem h.handlers hu
    obtain ⟨a, -, hgenerated⟩ := handlerUnit_eq_ok hhandler
    exact hgenerated.method?_eq_none hconstructor happly
  · rw [List.mem_singleton.mp hu]
    exact (registrationUnit_eq_ok h.registration).method?_eq_none hconstructor hinstall

/-- No unit of a build hides a class of the framework. -/
theorem unshadowed (h : Compiled f c us r p) : p.Unshadowed := by
  intro c _ _
  rw [h.statics]
  rfl

/-- The handlers are found by the names of their endpoints. -/
theorem unit?_handler (h : Compiled f c us r p) {e : Endpoint} (he : e ∈ c.endpoints) :
    ∃ u, p.unit? (handlerName e) = some u ∧ handlerUnit e = .ok u := by
  obtain ⟨u, hu, hhandler⟩ := exists_right_of_mem h.handlers he
  obtain ⟨a, -, hgenerated⟩ := handlerUnit_eq_ok hhandler
  refine ⟨u, ?_, hhandler⟩
  rw [← hgenerated.name]
  apply findUnit?_of_mem h.nodup
  rw [h.units]
  exact List.mem_append_left _ hu

/-- The registration of a controller is among the units of the program. -/
theorem unit?_registration (h : Compiled f c us r p) : p.unit? (registrationName c.name) = some r := by
  rw [← (registrationUnit_eq_ok h.registration).name]
  apply findUnit?_of_mem h.nodup
  rw [h.units]
  exact List.mem_append_right _ (List.mem_singleton_self r)

end Loader.Compiled

/-- Constructing an object of a generated unit. -/
theorem Program.perform_instantiate {unit interface : String} {h : Hierarchy} {method : String} {signature : Signature}
    {a : Assembler} {u : CodeUnit} (hu : Generated unit interface h method signature a u)
    (hunit : p.unit? unit = some u) (hlimit : 4 ≤ p.stepLimit) (provider : Value) :
    s.perform (p.instantiate unit provider) =
      (.ok (.object unit s.objects.size),
        { s with objects := s.objects.push [(Framework.providerField, provider)] }) := by
  obtain ⟨init, hmethod, hinit⟩ := hu.constructor?
  obtain ⟨b, hb⟩ := Nat.exists_eq_add_of_le' hlimit
  have hrun := run_constructor (p := p) (s := (s.newObject unit).2) hinit (b := b) (by omega) s.objects.size provider
    true []
  have hinvoke : (s.newObject unit).2.perform
      (p.invoke (.object unit s.objects.size) Framework.constructorName [provider]) =
        (.ok .null, { s with objects := s.objects.push [(Framework.providerField, provider)] }) := by
    rw [invoke_object hunit hmethod, hb]
    refine hrun.trans ?_
    rw [Store.setField_newObject]
    rfl
  unfold instantiate
  rw [hunit]
  have hnew : s.perform (modifyGet (·.newObject unit) : Action Value) =
      (.ok (.object unit s.objects.size), (s.newObject unit).2) := rfl
  simp only [Option.isNone_some, Bool.false_eq_true, if_false, Store.perform_bind, hnew, hinvoke,
    Store.perform_pure]

/-- The code of endpoints is long enough that the steps of the constructors count little. -/
theorem le_length_routeCodes (unit : String) (f : AttributeFilter) (es : List Endpoint) :
    10 * es.length ≤ (es.flatMap (routeCode unit f)).length := by
  induction es with
  | nil => exact Nat.le_refl 0
  | cons e es ih =>
      have hlength : 10 ≤ (routeCode unit f e).length := by
        rw [routeCode_eq, List.length_append]
        exact Nat.le_add_right _ _
      rw [List.flatMap_cons, List.length_append, List.length_cons]
      omega

/-- The method of a registration registers the endpoints, for every object of it that has a provider. -/
theorem Loader.Compiled.perform_invoke {f : AttributeFilter} {c : Controller} {us : List CodeUnit} {r : CodeUnit}
    (h : Loader.Compiled f c us r p) {provider : Value} {number handle router : Nat} (hnumber : number < s.objects.size)
    (hprovider : s.field number Framework.providerField = provider)
    (hhandle : s.hostObject? handle = some (.router router)) :
    ∃ (s' : Store) (rs : List Registered),
      s.perform (p.invoke (.object (registrationName c.name) number) Framework.installName
        [.host Platform.router handle]) = (.ok .null, s') ∧
      s'.routes.toList = s.routes.toList ++ rs ∧
      List.Forall₂ (Program.Installed f provider router s') c.endpoints rs := by
  obtain ⟨main, hmethod, hmain⟩ := (registrationUnit_eq_ok h.registration).main? (by decide)
  let fr : Frame := ⟨r, main, 0, #[.object (registrationName c.name) number, .host Platform.router handle], [], true⟩
  have hahead : fr.Ahead (Assembler.empty.emitAll (installCode (registrationName c.name) f c)).labels 0
      (c.endpoints.flatMap (routeCode (registrationName c.name) f) ++ [.returnVoid]) := by
    have hcode := hmain.code
    rw [Assembler.toList_emitAll] at hcode
    exact hcode
  have hsize : fr.method.code.size < 65536 := hmain.size
  -- The steps of the code and of the constructors that it calls, with one to return.
  obtain ⟨b, hb⟩ : ∃ b, p.stepLimit = b + 1 +
      ((c.endpoints.flatMap (routeCode (registrationName c.name) f)).length + 4 * c.endpoints.length) := by
    have hlength := hahead.length_le
    have hlong := le_length_routeCodes (registrationName c.name) f c.endpoints
    have hlimit : p.stepLimit = 100000 := h.stepLimit
    rw [List.length_append, List.length_singleton] at hlength
    obtain ⟨b, hb⟩ := Nat.exists_eq_add_of_le' (show 1 + ((c.endpoints.flatMap
      (routeCode (registrationName c.name) f)).length + 4 * c.endpoints.length) ≤ p.stepLimit by omega)
    exact ⟨b, by omega⟩
  have hself : fr.locals[0]? = some (.object (registrationName c.name) number) := rfl
  have hrouter : fr.locals[1]? = some (.host Platform.router handle) := rfl
  obtain ⟨ls', s', rs, hrun, -, hroutes, hrs⟩ := Program.run_routes (p := p) (b := b + 1) h.unshadowed h.quiet
    (fun e he => h.unit?_handler he) hahead hsize (Nat.le_of_eq hb.symm) hself hrouter hnumber hprovider hhandle []
  refine ⟨s', rs, ?_, hroutes, hrs⟩
  rw [Program.invoke_object h.unit?_registration hmethod, hb]
  refine hrun.trans ?_
  rw [Program.run_returnVoid (p := p) (b := b) hahead.append ⟨ls', []⟩ []]
  rfl

/-- Running the code of a registration. -/
theorem Loader.Compiled.perform_install {f : AttributeFilter} {c : Controller} {us : List CodeUnit} {r : CodeUnit}
    (h : Loader.Compiled f c us r p) (provider : Value) (router : Nat) :
    ∃ (s' : Store) (rs : List Registered),
      s.perform (p.install (registrationName c.name) provider router) = (.ok (), s') ∧
      s'.routes.toList = s.routes.toList ++ rs ∧
      List.Forall₂ (Program.Installed f provider router s') c.endpoints rs := by
  -- The store with the registration, and then with the handle for the router.
  let s₁ : Store := { s with objects := s.objects.push [(Framework.providerField, provider)] }
  let s₂ : Store := { s₁ with handles := s.handles.push (.router router) }
  have hinstantiate : s.perform (p.instantiate (registrationName c.name) provider) =
      (.ok (.object (registrationName c.name) s.objects.size), s₁) := by
    apply Program.perform_instantiate (registrationUnit_eq_ok h.registration) h.unit?_registration
    rw [h.stepLimit]
    decide
  have hhandleTo : s₁.perform (handleTo Platform.router (.router router)) =
      (.ok (.host Platform.router s.handles.size), s₂) := rfl
  have hnumber : s.objects.size < s₂.objects.size := by
    show _ < (s.objects.push _).size
    rw [Array.size_push]
    exact Nat.lt_succ_self _
  have hprovider : s₂.field s.objects.size Framework.providerField = provider := by
    show ((((s.objects.push _).getD s.objects.size []).lookup _).getD .null) = _
    rw [Array.getD_eq_getD_getElem?, Array.getElem?_push_size]
    rfl
  have hhandle : s₂.hostObject? s.handles.size = some (.router router) := Array.getElem?_push_size
  obtain ⟨s', rs, hinvoke, hroutes, hrs⟩ := h.perform_invoke hnumber hprovider hhandle
  refine ⟨s', rs, ?_, hroutes, hrs⟩
  unfold Program.install
  simp only [Store.perform_bind, hinstantiate, hhandleTo, hinvoke, Store.perform_pure]

/-- **Installing a compiled controller** registers what it describes. The units of a controller that compiles link
when they are loaded from their bytes; installing its registration succeeds, whatever the provider is, and leaves
on a router without routes one route for each endpoint, in order, with all that the endpoint says and a handler
that has the provider. -/
theorem install_registers (f : AttributeFilter) (c : Controller) (cc : CompiledController)
    (h : compileController f c = .ok cc) :
    ∃ l p, Loader.empty.loadAll (cc.units.map (·.bytes)) = (l, .ok ()) ∧ l.link = .ok p ∧
      ∀ (stubs : Array Stub) (provider : Value) (router : Nat) (s : Store), s.routesOf router = [] →
        ∃ s', s.perform (({ p with stubs := stubs } : Program).install cc.registration.name provider router) =
            (.ok (), s') ∧
          List.Forall₂ (Program.Installed f provider router s') c.endpoints (s'.routesOf router) := by
  obtain ⟨l, us, r, p, hload, hlink, hp⟩ := Loader.link_compiled h
  obtain ⟨_, r', -, hr', hname, -⟩ := compileController_eq_ok h
  have hname : cc.registration.name = registrationName c.name := hname.trans (registrationUnit_eq_ok hr').name
  refine ⟨l, p, hload, hlink, ?_⟩
  intro stubs provider router s hs
  have hstubs : Loader.Compiled f c us r { p with stubs := stubs } :=
    ⟨hp.handlers, hp.registration, hp.units, hp.nodup, hp.statics, hp.stepLimit⟩
  obtain ⟨s', rs, hinstall, hroutes, hrs⟩ := hstubs.perform_install (s := s) provider router
  refine ⟨s', ?_, ?_⟩
  · rw [hname]
    exact hinstall
  · -- The router had no routes, so the new ones are all that it has.
    have hown : rs.filter (·.router == router) = rs := by
      rw [List.filter_eq_self]
      intro route hroute
      obtain ⟨e, -, number, -, hroute, -⟩ := exists_left_of_mem hrs hroute
      rw [hroute]
      exact beq_self_eq_true _
    have hnone : s.routes.toList.filter (·.router == router) = [] := hs
    unfold Store.routesOf
    rw [hroutes, List.filter_append, hown, hnone]
    exact hrs

def greeter : Controller where
  name := "app.Greeter"
  path := "/"
  endpoints := [
    { owner := "app.Greeter"
      name := "greet"
      params := []
      returnType := .named Platform.list [.plain Platform.string]
      verb := .get
      pattern := "/"
      consumes := []
      produces := ["text/plain"]
      attributes := [("Cached", .list [.boolean true])] }]

theorem install_registers_greeter :
    ∃ cc, compileController ⟨[]⟩ greeter = .ok cc ∧ Store.empty.routesOf 0 = [] ∧
      ∃ l p, Loader.empty.loadAll (cc.units.map (·.bytes)) = (l, .ok ()) ∧ l.link = .ok p ∧
        ∃ s', Store.empty.perform (({ p with stubs := #[] } : Program).install cc.registration.name .null 0) =
            (.ok (), s') ∧ (s'.routesOf 0).length = 1 := by
  have hok : (compileController ⟨[]⟩ greeter).isOk = true := by decide +kernel
  rcases hcompile : compileController ⟨[]⟩ greeter with e | cc
  · rw [hcompile] at hok
    cases hok
  · have hempty : Store.empty.routesOf 0 = [] := rfl
    obtain ⟨l, p, hload, hlink, hinstall⟩ := install_registers ⟨[]⟩ greeter cc hcompile
    obtain ⟨s', hrun, hroutes⟩ := hinstall #[] .null 0 .empty hempty
    exact ⟨cc, rfl, hempty, l, p, hload, hlink, s', hrun, hroutes.length_eq.symm⟩

end Routecraft.Machine
