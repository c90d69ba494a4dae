import Routecraft.Proofs.Compile.Installing

/-!
# Return types of routes

A route is told the return type of its endpoint by the code of this type, which looks at the type itself. A handler
goes by the category that the type falls into. Both come to the same, except for the class of status codes and the
request context when they are given arguments: the category has no room for the arguments, but the route is told them.

* `outcomeType`: the type that a category of return types stands for.
* `typeValue_eq_outcomeType`: where the code of a type and the category of the type agree.
* `return_type_told`: what the code of a return type leaves.
-/

namespace Routecraft.Machine

open Bytecode Compile

/-! ## Types of categories -/

/-- The type that a category of return types stands for. -/
def outcomeType : Outcome → Value
  | .void => .classRef Platform.context
  | .primitive kind => .classRef kind.boxClass
  | .reference t => .classRef ((dataType? t).getD (.object Platform.context)).className
  | .statusCode => .classRef Platform.statusCode
  | .context => .classRef Platform.context
  | .parameterized base args => .reified base (typeValues args)

/-- Whether a type is the class of status codes or the request context, with arguments. -/
def MarkerWithArguments (t : TypeExpr) : Prop :=
  ∃ name ∈ [Platform.statusCode, Platform.context], ∃ args ≠ [], t = .named name args

/-- A type and its erasure have the same descriptor. -/
theorem dataType?_erasure (t : TypeExpr) : dataType? t.erasure = dataType? t := by
  fun_induction TypeExpr.erasure t with
  | case1 name args => rfl
  | case2 element ih => simp only [dataType?, ih]
  | case3 t _ _ => rfl

/-- The value of a type with arguments is a reified type. -/
theorem typeValue_named {name : String} {args : List TypeExpr} (h : args ≠ []) :
    typeValue (.named name args) = .reified name (typeValues args) := by
  obtain ⟨arg, rest, rfl⟩ := List.exists_cons_of_ne_nil h
  rw [typeValue]

/-- A named type is a marker with arguments if its name is one of the two and arguments are there. -/
theorem markerWithArguments_named {name : String} {args : List TypeExpr} :
    MarkerWithArguments (.named name args) ↔ name ∈ [Platform.statusCode, Platform.context] ∧ args ≠ [] := by
  constructor
  · rintro ⟨_, hname, _, hargs, heq⟩
    cases heq
    exact ⟨hname, hargs⟩
  · rintro ⟨hname, hargs⟩
    exact ⟨name, hname, args, hargs, rfl⟩

/-- The value of a named type is what its outcome reports, unless it is a marker with arguments. -/
theorem typeValue_named_eq_outcomeType {name : String} {args : List TypeExpr} :
    typeValue (.named name args) = outcomeType (.of (.named name args)) ↔
      ¬(name ∈ [Platform.statusCode, Platform.context] ∧ args ≠ []) := by
  by_cases hargs : args = []
  · -- A class without arguments is told as itself, whatever its category is.
    subst hargs
    refine ⟨fun _ h => h.2 rfl, fun _ => ?_⟩
    simp only [typeValue, Outcome.of]
    split
    · next hstatus => rw [hstatus, outcomeType]
    · split
      · next hcontext => rw [hcontext, outcomeType]
      · rfl
  · rw [typeValue_named hargs, Outcome.of]
    by_cases hstatus : name = Platform.statusCode
    · simp [hstatus, hargs, outcomeType]
    · by_cases hcontext : name = Platform.context
      · simp [hcontext, hargs, outcomeType, Platform.context, Platform.statusCode]
      · simp [hstatus, hcontext, hargs, outcomeType]

/-- A type without arguments is no marker with arguments. -/
theorem not_markerWithArguments {t : TypeExpr} (h : t.args = []) : ¬MarkerWithArguments t := by
  rintro ⟨name, -, args, hargs, rfl⟩
  exact hargs h

/-- **The code of a type and its category agree** unless the type is a marker with arguments. -/
theorem typeValue_eq_outcomeType {t : TypeExpr} :
    typeValue t = outcomeType (.of t) ↔ ¬MarkerWithArguments t := by
  cases t with
  | void => exact iff_of_true rfl (not_markerWithArguments rfl)
  | primitive kind => exact iff_of_true rfl (not_markerWithArguments rfl)
  | array element =>
      refine iff_of_true ?_ (not_markerWithArguments rfl)
      rw [← Program.classValue_eq _ rfl]
      show _ = Value.classRef ((dataType? (TypeExpr.array element).erasure).getD _).className
      rw [dataType?_erasure]
      rfl
  | named name args =>
      rw [markerWithArguments_named]
      exact typeValue_named_eq_outcomeType

/-! ## The code of a return type -/

/-- Whether no instruction calls a method on an object. -/
def CallsNoObject (code : List (Instr Constant)) : Prop := ∀ i ∈ code, i.callee? = none

/-- Storing items calls no object if the code of the items calls none. -/
theorem callsNoObject_storeFrom {codes : List (List (Instr Constant))} (h : ∀ code ∈ codes, CallsNoObject code)
    (k : Nat) : CallsNoObject (storeFrom k codes) := by
  induction codes generalizing k with
  | nil => exact fun _ hi => absurd hi List.not_mem_nil
  | cons code codes ih =>
      obtain ⟨hcode, hcodes⟩ := List.forall_mem_cons.mp h
      rw [storeFrom]
      refine List.forall_mem_cons.mpr ⟨rfl, List.forall_mem_cons.mpr ⟨rfl, ?_⟩⟩
      exact List.forall_mem_append.mpr ⟨hcode, List.forall_mem_cons.mpr ⟨rfl, ih hcodes (k + 1)⟩⟩

mutual

/-- The code of a type calls no object. -/
theorem callsNoObject_typeCode (t : TypeExpr) : CallsNoObject (typeCode t) := by
  match t with
  | .void | .primitive _ | .array _ | .named _ [] => exact List.forall_mem_singleton.mpr rfl
  | .named name (arg :: args) =>
      rw [typeCode, arrayCode]
      have hargs := callsNoObject_storeFrom (callsNoObject_typeCodes (arg :: args)) 0
      refine List.forall_mem_append.mpr ⟨?_, List.forall_mem_singleton.mpr rfl⟩
      exact List.forall_mem_cons.mpr ⟨rfl, List.forall_mem_cons.mpr ⟨rfl, List.forall_mem_cons.mpr ⟨rfl, hargs⟩⟩⟩

theorem callsNoObject_typeCodes (ts : List TypeExpr) : ∀ code ∈ typeCodes ts, CallsNoObject code := by
  match ts with
  | [] => simp [typeCodes]
  | t :: rest => exact List.forall_mem_cons.mpr ⟨callsNoObject_typeCode t, callsNoObject_typeCodes rest⟩

end

section

variable {p : Program} {fr : Frame} {labels : Array (Option UInt16)} {pc n : Nat} {t : TypeExpr}
  {js : List (Instr Constant)}

/-- **What a route is told of a return type.** Wherever the code of a type stands, a run through it goes on with the
type on the stack, and with its array for each class with arguments. This is the type that the category of the type
stands for if and only if it is not a marker with arguments; the route is told such a one with its arguments. -/
theorem return_type_told (hp : p.Unshadowed) (hahead : fr.Ahead labels pc (typeCode t ++ js))
    (hsize : fr.method.code.size < 65536) (hlimit : n + (typeCode t).length ≤ p.stepLimit) (ls : Array Value)
    (st : List Value) (callers : List Frame) (s : Store) :
    s.perform (p.run (n + (typeCode t).length) (fr.placed pc ⟨ls, st⟩) callers) =
        (s.withArrays (typeArrays t)).perform
          (p.run n (fr.placed (pc + (typeCode t).length) ⟨ls, typeValue t :: st⟩) callers) ∧
      (typeValue t = outcomeType (.of t) ↔ ¬MarkerWithArguments t) ∧
      ∀ name args, t = .named name args → MarkerWithArguments t → typeValue t = .reified name (typeValues args) := by
  refine ⟨?_, typeValue_eq_outcomeType, ?_⟩
  · -- Code of a method is shorter than the largest index of an array, so no index is cut off.
    have hlength : (typeCode t).length ≤ 2147483647 := by
      have := hahead.length_le
      rw [List.length_append] at this
      omega
    have hrun := Program.perform_run_effects hahead (fun i hi => (catalogued_typeCode t i hi).straight)
      (fun i hi => Program.tame_of_callee (callsNoObject_typeCode t i hi)) hlimit ⟨ls, st⟩ callers s
    rw [hrun, Store.perform_bind, Program.makes_typeCode hp t hlength]
  · rintro name args rfl hmarker
    exact typeValue_named (markerWithArguments_named.mp hmarker).2

end

section

def pets : TypeExpr := .named Platform.list [.plain "app.Pet"]

def bareProgram : Program where
  units := []
  hierarchy := Framework.hierarchy
  statics := []
  stepLimit := 9
  stubs := #[]

theorem return_type_told_pets :
    ∃ (b : Interner) (code : Code), (Assembler.empty.emitAll (typeCode pets ++ [.returnValue])).assemble .empty =
        (b, .ok code) ∧
      Store.empty.perform (bareProgram.run 9 ⟨⟨"gen.Type", .handler, [], b.pool, [], []⟩,
        ⟨"type", ⟨[], none⟩, 0, 0, code⟩, 0, #[], [], true⟩ []) =
        (.ok (outcomeType (.of pets)), Store.empty.withArrays (typeArrays pets)) := by
  have hassembles : ((Assembler.empty.emitAll (typeCode pets ++ [.returnValue])).assemble .empty).2.toBool = true := by
    decide +kernel
  rcases hcode : (Assembler.empty.emitAll (typeCode pets ++ [.returnValue])).assemble .empty with ⟨b, e | code⟩
  · simp [hcode, Except.toBool] at hassembles
  obtain ⟨hsize, -, hresolves⟩ := Assembler.assemble_resolves hcode
  rw [Assembler.toList_emitAll] at hresolves
  let fr : Frame := ⟨⟨"gen.Type", .handler, [], b.pool, [], []⟩, ⟨"type", ⟨[], none⟩, 0, 0, code⟩, 0, #[], [], true⟩
  have hahead : fr.Ahead (Assembler.empty.emitAll (typeCode pets ++ [.returnValue])).labels 0
      (typeCode pets ++ [.returnValue]) := hresolves
  have hunshadowed : bareProgram.Unshadowed := fun _ _ _ => rfl
  obtain ⟨hrun, hagree, -⟩ := return_type_told (n := 1) hunshadowed hahead hsize (by decide) #[] [] [] .empty
  have hmarker : ¬MarkerWithArguments pets := fun h => absurd (markerWithArguments_named.mp h).1 (by decide)
  refine ⟨b, code, hcode, ?_⟩
  rw [← hagree.mpr hmarker]
  refine hrun.trans ?_
  rw [Program.run_return hahead.append]
  rfl

/-- A controller whose only endpoint returns a status code with an argument. -/
def orders : Controller where
  name := "app.Orders"
  path := ""
  endpoints := [
    { owner := "app.Orders"
      name := "place"
      params := []
      returnType := .named Platform.statusCode [.plain "app.Code"]
      verb := .post
      pattern := "/orders"
      consumes := []
      produces := []
      attributes := [] }]

/-- The endpoint's category is that of status codes, but its route is told a reified type. -/
theorem status_reified :
    orders.endpoints.map (·.outcome) = [.statusCode] ∧
      ∃ cc l p s', compileController ⟨[]⟩ orders = .ok cc ∧
        Loader.empty.loadAll (cc.units.map (·.bytes)) = (l, .ok ()) ∧ l.link = .ok p ∧
        Store.empty.perform (p.install cc.registration.name .null 0) = (.ok (), s') ∧
        (s'.routesOf 0).map (·.returnType) = [some (.reified Platform.statusCode [.classRef "app.Code"])] := by
  refine ⟨rfl, ?_⟩
  have hok : (compileController ⟨[]⟩ orders).isOk = true := by decide +kernel
  rcases hcompile : compileController ⟨[]⟩ orders with e | cc
  · rw [hcompile] at hok
    cases hok
  · obtain ⟨l, us, r, p, hload, hlink, hp⟩ := Loader.link_compiled hcompile
    obtain ⟨_, r', -, hr', hname, -⟩ := compileController_eq_ok hcompile
    have hname : cc.registration.name = registrationName orders.name :=
      hname.trans (registrationUnit_eq_ok hr').name
    obtain ⟨s', rs, hinstall, hroutes, hrs⟩ := hp.perform_install (s := .empty) .null 0
    refine ⟨cc, l, p, s', rfl, hload, hlink, by rw [hname]; exact hinstall, ?_⟩
    rw [Store.routesOf, hroutes]
    cases hrs with
    | cons hroute hnil =>
        cases hnil
        obtain ⟨number, -, rfl, -⟩ := hroute
        rfl

end

end Routecraft.Machine
