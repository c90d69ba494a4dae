import Routecraft.Proofs.Compile.Units

/-!
# What generated units refer to

The instructions of a unit with their constants are those that its methods were written down with. The only methods
that a generated unit names are those of the catalogue, each with the operation of its dispatch, and a few that the
endpoints and their parameters bring along.

* `CodeUnit.uses`: the instructions of a unit that have constants.
* `Generated.uses`: those of a generated unit.
* `generated_calls`: the methods that generated units name.
-/

namespace Routecraft.Bytecode

/-- An instruction with its constant in place of the index, if it has one. -/
def Pool.use? (pool : Pool) : Instr UInt16 → Option (Instr Constant)
  | .onConst op k => (pool.get k).toOption.map (.onConst op)
  | _ => none

/-- The instructions of a unit that have constants, with the constants in place of the indices. -/
def CodeUnit.uses (u : CodeUnit) : List (Instr Constant) :=
  u.methods.flatMap fun m => m.code.toList.filterMap u.pool.use?

/-- Assembled code has the constants of the code that was written down. -/
theorem filterMap_use? {pool : Pool} {labels : Array (Option UInt16)} {is : List (Instr UInt16)}
    {is' : List (Instr Constant)} (his : List.Forall₂ (Instr.Resolves pool labels) is is') :
    is.filterMap pool.use? = is'.filter (·.const?.isSome) := by
  induction his with
  | nil => rfl
  | @cons i i' is is' hi _ ih =>
      rw [List.filter_cons, List.filterMap_cons, ih]
      cases hi with
      | onConst op hk =>
          simp only [Pool.use?, hk]
          rfl
      | _ => rfl

end Routecraft.Bytecode

namespace Routecraft.Compile

open Bytecode

/-- What a generated unit refers to: the field of the provider, and what its main method was written down with. -/
theorem Generated.uses {unit interface method : String} {h : Hierarchy} {s : Signature} {a : Assembler} {u : CodeUnit}
    (hu : Generated unit interface h method s a u) :
    u.uses = .putField unit Framework.providerField (.object Platform.provider) ::
      a.instrs.toList.filter (·.const?.isSome) := by
  obtain ⟨init, main, hmethods, hinit, hmain⟩ := hu.methods
  rw [CodeUnit.uses, hmethods, List.flatMap_cons, List.flatMap_singleton, filterMap_use? hinit.code,
    filterMap_use? hmain.code]
  rfl

/-- The instructions of a unit that name a method, with the method in place of the index. -/
def methodUses (u : CodeUnit) : List (Instr Constant) := u.uses.filter Instr.namesMethod

/-- A method reference that is used is in the code, or in the constructor. -/
theorem Generated.mem_of_methodUses {unit interface method : String} {h : Hierarchy} {s : Signature} {a : Assembler}
    {u : CodeUnit} (hu : Generated unit interface h method s a u) {i : Instr Constant} (hi : i ∈ methodUses u) :
    i ∈ a.instrs.toList ∧ Instr.namesMethod i = true := by
  obtain ⟨hi, hnames⟩ := List.mem_filter.mp hi
  rw [hu.uses] at hi
  rcases List.mem_cons.mp hi with rfl | hi
  · cases hnames
  · exact ⟨(List.mem_filter.mp hi).1, hnames⟩

/-! ## Handlers -/

/-- The methods that the handler of an endpoint may name, in the instructions that may name them. -/
inductive HandlerCalls (e : Endpoint) : Instr Constant → Prop
  /-- A method of the framework, called by the operation of its dispatch. -/
  | framework {c : Call} : c ∈ Framework.catalogue → HandlerCalls e c.instr
  /-- The endpoint's own method. -/
  | endpoint : HandlerCalls e (.invokeVirtual e.owner e.name (signatureOf e))
  /-- The binder of a parameter: it takes the request context and gives an object of the parameter's type. -/
  | binder {p : Parameter} {m : MethodName} {type : DataType} : p ∈ e.params → p.binding = .bound (some m) →
      dataType? p.type = some type →
        HandlerCalls e (.invokeStatic m.owner m.name (.returning [.object Platform.context] type))

/-- An answer calls methods of the catalogue. -/
theorem answerCode_calls {o : Outcome} {i : Instr Constant} (hi : i ∈ answerCode o)
    (hnames : Instr.namesMethod i = true) : ∃ c ∈ Framework.catalogue, i = c.instr := by
  cases o <;> simp only [answerCode, List.mem_cons, List.not_mem_nil, or_false] at hi
  case void =>
    rcases hi with rfl | rfl | rfl | rfl | rfl | rfl | rfl | rfl | rfl
    case inr.inl => exact ⟨_, by decide, rfl⟩
    case inr.inr.inr.inr.inr.inr.inr.inl => exact ⟨_, by decide, rfl⟩
    all_goals cases hnames
  case primitive kind =>
    rcases hi with rfl | rfl
    · exact ⟨_, Framework.box_mem kind, rfl⟩
    · cases hnames
  case statusCode =>
    rcases hi with rfl | rfl | rfl | rfl
    case inr.inr.inl => exact ⟨_, by decide, rfl⟩
    all_goals cases hnames
  all_goals
    subst hi
    cases hnames

/-- A method reference in the code of a handler is one of its calls. -/
theorem handlerCalls_of_mem {unit : String} {e : Endpoint} {i : Instr Constant}
    (hi : i ∈ callCode unit e ++ answerCode e.outcome) (hnames : Instr.namesMethod i = true) : HandlerCalls e i := by
  rcases List.mem_append.mp hi with hi | hi
  · rw [callCode_concat] at hi
    rcases List.mem_append.mp hi with hi | hi
    · rcases callCode_calls unit e i hi with hcatalogued | ⟨p, hp, m, type, hbinding, htype, rfl⟩
      · obtain ⟨c, hc, rfl⟩ := hcatalogued.calls hnames
        exact .framework hc
      · exact .binder hp hbinding htype
    · rw [List.mem_singleton.mp hi]
      exact .endpoint
  · obtain ⟨c, hc, rfl⟩ := answerCode_calls hi hnames
    exact .framework hc

/-! ## Registrations -/

/-- The methods that the registration of a controller may name, in the instructions that may name them. -/
inductive RegistrationCalls (c : Controller) : Instr Constant → Prop
  /-- A method of the framework, called by the operation of its dispatch. -/
  | framework {call : Call} : call ∈ Framework.catalogue → RegistrationCalls c call.instr
  /-- The constructor of an endpoint's handler, which takes the provider. -/
  | handler {e : Endpoint} : e ∈ c.endpoints → RegistrationCalls c
      (.invokeSpecial (handlerName e) Framework.constructorName Framework.constructorSignature)

/-- A method reference in the code of a registration is one of its calls. -/
theorem registrationCalls_of_mem {unit : String} {f : AttributeFilter} {c : Controller} {i : Instr Constant}
    (hi : i ∈ installCode unit f c) (hnames : Instr.namesMethod i = true) : RegistrationCalls c i := by
  rcases List.mem_append.mp hi with hi | hi
  · obtain ⟨e, he, hi⟩ := List.mem_flatMap.mp hi
    rw [routeCode_eq] at hi
    rcases List.mem_append.mp hi with hi | hi
    · simp only [addRouteCode, List.mem_cons, List.not_mem_nil, or_false] at hi
      rcases hi with rfl | rfl | rfl | rfl | rfl | rfl | rfl | rfl | rfl | rfl
      case inr.inr.inr.inr.inr.inr.inr.inl => exact .handler he
      case inr.inr.inr.inr.inr.inr.inr.inr.inl => exact .framework (by decide)
      all_goals cases hnames
    · obtain ⟨call, hcall, rfl⟩ := (catalogued_describeCode f e i hi).calls hnames
      exact .framework hcall
  · rw [List.mem_singleton.mp hi] at hnames
    cases hnames

/-- **Generated code names no other methods** than those of the catalogue, the methods of the endpoints and the
binders of their parameters in handlers, and the constructors of handlers in registrations. -/
theorem generated_calls :
    (∀ e u, handlerUnit e = .ok u → ∀ i ∈ methodUses u, HandlerCalls e i) ∧
      ∀ c f u, registrationUnit c f = .ok u → ∀ i ∈ methodUses u, RegistrationCalls c i := by
  constructor
  · intro e u hu i hi
    obtain ⟨a, ha, hgenerated⟩ := handlerUnit_eq_ok hu
    obtain ⟨hmem, hnames⟩ := hgenerated.mem_of_methodUses hi
    rw [(applyCode_eq_ok ha).2.1] at hmem
    exact handlerCalls_of_mem hmem hnames
  · intro c f u hu i hi
    obtain ⟨hmem, hnames⟩ := (registrationUnit_eq_ok hu).mem_of_methodUses hi
    rw [Assembler.toList_emitAll] at hmem
    exact registrationCalls_of_mem hmem hnames

def lend : Endpoint where
  owner := "app.Library"
  name := "lend"
  params := [{ name := "book", source := "", binding := .bound (some ⟨"app.Book", "of"⟩), type := .plain "app.Book",
               nullable := false }]
  returnType := .void
  verb := .post
  pattern := "/"
  consumes := []
  produces := []
  attributes := []

def library : Controller := ⟨"app.Library", "/", [lend]⟩

theorem generated_calls_library :
    (∃ u, handlerUnit lend = .ok u ∧ ∃ i ∈ methodUses u,
      i = .invokeStatic "app.Book" "of" (.returning [.object Platform.context] (.object "app.Book")) ∧
        HandlerCalls lend i) ∧
      ∃ u, registrationUnit library ⟨[]⟩ = .ok u ∧ ∃ i ∈ methodUses u, i = Framework.routerRoute.instr ∧
        RegistrationCalls library i := by
  constructor
  · have hfound : ((handlerUnit lend).toOption.any fun u => (methodUses u).contains
        (.invokeStatic "app.Book" "of" (.returning [.object Platform.context] (.object "app.Book")))) = true := by
      decide +kernel
    rcases hu : handlerUnit lend with x | u
    · rw [hu] at hfound
      cases hfound
    · rw [hu] at hfound
      have hi := List.contains_iff_mem.mp hfound
      exact ⟨u, rfl, _, hi, rfl, generated_calls.1 lend u hu _ hi⟩
  · have hfound : ((registrationUnit library ⟨[]⟩).toOption.any fun u =>
        (methodUses u).contains Framework.routerRoute.instr) = true := by decide +kernel
    rcases hu : registrationUnit library ⟨[]⟩ with x | u
    · rw [hu] at hfound
      cases hfound
    · rw [hu] at hfound
      have hi := List.contains_iff_mem.mp hfound
      exact ⟨u, rfl, _, hi, rfl, generated_calls.2 library ⟨[]⟩ u hu _ hi⟩

end Routecraft.Compile
