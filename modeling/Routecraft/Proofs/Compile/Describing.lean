import Routecraft.Proofs.Compile.Literals
import Routecraft.Proofs.Compile.Units

/-!
# Telling a route

The code of a registration tells each route the return type, the media types and the attributes of its
endpoint, one call after the other.

* `routeOf`: the route of an endpoint.
* `Store.AddsRoute`: a store with one more route, which is still to be told things.
* `Program.Tells`: code that tells the route at hand something.
* `Program.tells_describeCode`: what the route of an endpoint is told.
-/

namespace Routecraft.Machine

open Bytecode Compile

/-! ## Routes -/

def routeOf (f : AttributeFilter) (e : Endpoint) (router : Nat) (handler : Value) : Registered where
  router := router
  verb := e.verb.name
  pattern := e.pattern
  handler := handler
  returnType := some (typeValue e.returnType)
  consumes := e.consumes.map .mediaType
  produces := e.produces.map .mediaType
  attributes := (f.filter e.attributes).map fun (name, a) => (name, attributeValue a)

/-- The route of an endpoint before it was told anything. -/
def bareRoute (e : Endpoint) (router : Nat) (handler : Value) : Registered :=
  ⟨router, e.verb.name, e.pattern, handler, none, [], [], []⟩

/-- The store with one more route than before, of which there is a handle; nothing else is added but handles
and arrays. -/
structure Store.AddsRoute (s₀ : Store) (handle : Nat) (r : Registered) (s : Store) : Prop where
  objects : s.objects = s₀.objects
  handles : s₀.handles.toList <+: s.handles.toList
  handle : s.hostObject? handle = some (.route s₀.routes.size)
  routes : s.routes = s₀.routes.push r

namespace Store.AddsRoute

variable {s₀ s : Store} {handle : Nat} {r : Registered}

/-- Further arrays leave the routes as they are. -/
theorem withArrays (h : s₀.AddsRoute handle r s) (as : List (Array Value)) :
    s₀.AddsRoute handle r (s.withArrays as) :=
  ⟨h.objects, h.handles, h.handle, h.routes⟩

/-- What the store is after the route was told something. -/
theorem change (h : s₀.AddsRoute handle r s) (change : Registered → Registered) :
    s₀.AddsRoute handle (change r)
      { s with
        routes := s.routes.modify s₀.routes.size change
        handles := s.handles.push (.route s₀.routes.size) } where
  objects := h.objects
  handles := by
    rw [Array.toList_push]
    exact h.handles.trans (List.prefix_append _ _)
  handle := by
    have hlt : handle < s.handles.size := (Array.getElem?_eq_some_iff.mp h.handle).1
    show (s.handles.push _)[handle]? = _
    rw [Array.getElem?_push_lt hlt, ← h.handle]
    exact (Array.getElem?_eq_getElem hlt).symm
  routes := by
    apply Array.ext'
    simp only [h.routes, Array.toList_modify, Array.toList_push]
    have hlt : s₀.routes.size < (s₀.routes.toList ++ [r]).length := by simp
    rw [List.modify_eq_take_cons_drop hlt]
    simp

end Store.AddsRoute

namespace Program

variable {p : Program} {s : Store}

/-- A call on a handle is the method of its object. -/
theorem perform_invoke_host {handle : Nat} {object : HostObject} (h : s.hostObject? handle = some object)
    (className name : String) (args : List Value) :
    s.perform (p.invoke (.host className handle) name args) = s.perform (object.call p.stubs name args) := by
  rw [invoke_host, Store.perform_bind, Store.perform_get]
  simp only [h]

/-! ## Telling -/

/-- Code that tells the route at hand something, by which the route changes. -/
def Tells (p : Program) (code : List (Instr Constant)) (change : Registered → Registered) : Prop :=
  ∀ (ls : Array Value) (st : List Value) (s₀ s : Store) (handle : Nat) (r : Registered),
    ls[2]? = some (.host Platform.route handle) → s₀.AddsRoute handle r s →
      ∃ s', s.perform (p.effects code ⟨ls, st⟩) = (.ok ⟨ls, st⟩, s') ∧ s₀.AddsRoute handle (change r) s'

/-- No code tells nothing. -/
theorem tells_nil : p.Tells [] id := by
  intro ls st s₀ s handle r _ hs
  exact ⟨s, rfl, hs⟩

/-- Code in two pieces tells what the one tells, and then the other. -/
theorem Tells.append {code code' : List (Instr Constant)} {change change' : Registered → Registered}
    (h : p.Tells code change) (h' : p.Tells code' change') : p.Tells (code ++ code') (change' ∘ change) := by
  intro ls st s₀ s handle r hroute hs
  obtain ⟨s₁, hrun, hs₁⟩ := h ls st s₀ s handle r hroute hs
  obtain ⟨s₂, hrun', hs₂⟩ := h' ls st s₀ s₁ handle (change r) hroute hs₁
  refine ⟨s₂, ?_, hs₂⟩
  rw [effects_append, Store.perform_bind, hrun]
  exact hrun'

/-- A call on the route with the values that other code leaves. -/
theorem tells_setCode {c : Call} (args : List Value) (hc : Framework.OnObject c args.length)
    {change : Registered → Registered}
    (hcall : ∀ route, callRoute route c.name args =
      (do changeRoute route change; handleTo Platform.route (.route route)))
    {value : List (Instr Constant)} {as : List (Array Value)}
    (hvalue : ∀ (ls : Array Value) (st : List Value) (s : Store),
      s.perform (p.effects value ⟨ls, st⟩) = (.ok ⟨ls, args.reverse ++ st⟩, s.withArrays as)) :
    p.Tells (setCode c value) change := by
  intro ls st s₀ s handle r hroute hs
  have hload : p.effect (.load routeSlot) ⟨ls, st⟩ = pure ⟨ls, .host Platform.route handle :: st⟩ :=
    effect_load p hroute st
  have hinvoke : (s.withArrays as).perform (p.invoke (.host Platform.route handle) c.name args) =
      (.ok (.host Platform.route s.handles.size),
        { s.withArrays as with
          routes := s.routes.modify s₀.routes.size change
          handles := s.handles.push (.route s₀.routes.size) }) := by
    rw [perform_invoke_host (hs.withArrays as).handle]
    show Store.perform _ (callRoute _ c.name args) = _
    rw [hcall]
    rfl
  refine ⟨_, ?_, (hs.withArrays as).change change⟩
  unfold setCode
  rw [List.cons_append, effects_cons, hload, pure_bind, effects_append, Store.perform_bind, hvalue]
  simp only [effects_cons, effects_nil, effect_onObject args hc, Store.perform_bind, hinvoke, Store.perform_pure]
  rfl

/-- A call on the route with the one value that other code leaves. -/
theorem tells_value {c : Call} {v : Value} (hc : Framework.OnObject c 1) {change : Registered → Registered}
    (hcall : ∀ route, callRoute route c.name [v] =
      (do changeRoute route change; handleTo Platform.route (.route route)))
    {value : List (Instr Constant)} {as : List (Array Value)} (hvalue : p.Makes value v as) :
    p.Tells (setCode c value) change :=
  tells_setCode [v] hc hcall hvalue

variable (hp : p.Unshadowed)
include hp

/-- The values of a list of media types are made one by one, with no array of their own. -/
theorem makesAll_mediaTypes (mediaTypes : List String) :
    p.MakesAll (mediaTypes.map fun m => [.string m, Framework.mediaTypeValueOf.instr])
      (mediaTypes.map .mediaType) [] := by
  induction mediaTypes with
  | nil => exact .nil
  | cons m mediaTypes ih =>
      have hm : p.Makes [.string m, Framework.mediaTypeValueOf.instr] (.mediaType m) [] := by
        intro ls st s
        have hstring (o : Operands) : p.effect (.string m) o = pure (o.push (.text m)) := rfl
        have hcall : callFramework Framework.mediaTypeValueOf.owner Framework.mediaTypeValueOf.name [.text m] =
            pure (.mediaType m) := rfl
        have hvalueOf : Framework.OnClass Framework.mediaTypeValueOf 1 := ⟨by decide, rfl, rfl⟩
        simp only [effects_cons, hstring, Operands.push_mk, pure_bind, effect_onClass₁ hp hvalueOf, hcall,
          effects_nil, Store.perform_pure, Store.withArrays_nil]
      exact .cons hm ih

/-- The code for media types tells them to the route by the call that takes such a list. -/
theorem tells_mediaTypesCode {c : Call} (hc : Framework.OnObject c 1)
    (change : List Value → Registered → Registered)
    (hcall : ∀ route items, callRoute route c.name [.list items] =
      (do changeRoute route (change items); handleTo Platform.route (.route route)))
    (mediaTypes : List String) (hlength : (mediaTypesCode c mediaTypes).length ≤ 2147483647) :
    p.Tells (mediaTypesCode c mediaTypes)
      (if mediaTypes.isEmpty then id else change (mediaTypes.map .mediaType)) := by
  unfold mediaTypesCode at hlength ⊢
  split at hlength
  · next hempty =>
    rw [if_pos hempty, if_pos hempty]
    exact tells_nil
  · next hempty =>
    rw [if_neg hempty, if_neg hempty]
    apply tells_value hc (hcall · _)
    apply makes_list hp (makesAll_mediaTypes hp mediaTypes)
    simp only [setCode, List.length_cons, List.length_append, length_arrayCode] at hlength
    omega

/-- The code for attributes tells the route all of them. -/
theorem tells_attributesCode (as : AttributeMap) (hlength : (attributesCode as).length ≤ 2147483647) :
    p.Tells (attributesCode as)
      fun r => { r with attributes := r.attributes ++ as.map fun (name, a) => (name, attributeValue a) } := by
  induction as with
  | nil =>
      have hid : (fun r : Registered => { r with attributes := r.attributes ++ [] }) = id := by
        funext r
        simp
      show p.Tells [] (fun r => { r with attributes := r.attributes ++ [] })
      rw [hid]
      exact tells_nil
  | cons entry as ih =>
      obtain ⟨name, a⟩ := entry
      have hcons : attributesCode ((name, a) :: as) =
          setCode Framework.setAttribute (.string name :: attributeCode a) ++ attributesCode as := rfl
      rw [hcons, List.length_append] at hlength
      rw [hcons]
      have hvalue (ls : Array Value) (st : List Value) (s : Store) :
          s.perform (p.effects (.string name :: attributeCode a) ⟨ls, st⟩) =
            (.ok ⟨ls, [.text name, attributeValue a].reverse ++ st⟩, s.withArrays (attributeArrays a)) := by
        have hstring (o : Operands) : p.effect (.string name) o = pure (o.push (.text name)) := rfl
        simp only [setCode, List.length_cons, List.length_append] at hlength
        rw [effects_cons, hstring, pure_bind]
        exact makes_attributeCode hp a (by omega) ls (.text name :: st) s
      have hset : p.Tells (setCode Framework.setAttribute (.string name :: attributeCode a))
          fun r => { r with attributes := r.attributes ++ [(name, attributeValue a)] } :=
        tells_setCode [.text name, attributeValue a] ⟨by decide, by decide, rfl⟩ (fun _ => rfl) hvalue
      have hall := hset.append (ih (by omega))
      have hchange (r : Registered) :
          r.attributes ++ [(name, attributeValue a)] ++ as.map (fun (name, a) => (name, attributeValue a)) =
            r.attributes ++ ((name, a) :: as).map fun (name, a) => (name, attributeValue a) := by
        simp
      simp only [Function.comp_def, hchange] at hall
      exact hall

/-- **What the route of an endpoint is told** makes it the route that the endpoint describes. -/
theorem tells_describeCode (f : AttributeFilter) (e : Endpoint)
    (hlength : (describeCode f e).length ≤ 2147483647) :
    ∃ change, p.Tells (describeCode f e) change ∧
      ∀ router handler, change (bareRoute e router handler) = routeOf f e router handler := by
  unfold describeCode at hlength ⊢
  rw [List.length_append, List.length_append, List.length_append] at hlength
  have htype : (typeCode e.returnType).length ≤ 2147483647 := by
    simp only [setCode, List.length_cons, List.length_append] at hlength
    omega
  have hreturn : p.Tells (setCode Framework.setReturnType (typeCode e.returnType))
      fun r => { r with returnType := some (typeValue e.returnType) } :=
    tells_value ⟨by decide, by decide, rfl⟩ (fun _ => rfl) (makes_typeCode hp e.returnType htype)
  have hsetConsumes : Framework.OnObject Framework.setConsumes 1 := ⟨by decide, by decide, rfl⟩
  have hsetProduces : Framework.OnObject Framework.setProduces 1 := ⟨by decide, by decide, rfl⟩
  have hconsumes := tells_mediaTypesCode hp hsetConsumes (fun types r => { r with consumes := types })
    (fun _ _ => rfl) e.consumes (by omega)
  have hproduces := tells_mediaTypesCode hp hsetProduces (fun types r => { r with produces := types })
    (fun _ _ => rfl) e.produces (by omega)
  have hattributes := tells_attributesCode hp (f.filter e.attributes) (by omega)
  refine ⟨_, ((hreturn.append hconsumes).append hproduces).append hattributes, ?_⟩
  intro router handler
  unfold bareRoute routeOf
  cases e.consumes <;> cases e.produces <;> rfl

end Program

end Routecraft.Machine
