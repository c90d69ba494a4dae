import Routecraft.Compile.Compiler
import Routecraft.Proofs.Assembly.Drafting
import Routecraft.Proofs.Compile.Plainness

/-!
# Generated units

A generated unit has a constructor that keeps the provider, and one more method: `apply` for a handler,
`install` for a registration.

* `Generated`: such a unit, with the code that its methods were written down as.
* `handlerUnit_eq_ok`, `registrationUnit_eq_ok`: the units of endpoints and controllers are such units.
* `applyCode_eq_ok`: the code of an endpoint.
* `Generated.verify`, `Generated.encode`: a generated unit is accepted again, and read back from its bytes.
-/

namespace Routecraft.Compile

open Bytecode

/-- The classes that a generated unit was checked against. -/
def classesOf (h : Hierarchy) (name interface : String) : Hierarchy :=
  (Hierarchy.empty.extend h).add name interface

/-- A unit with a constructor that keeps a provider, and with one more method. -/
structure Generated (unit interface : String) (h : Hierarchy) (method : String) (s : Signature) (a : Assembler)
    (u : CodeUnit) : Prop where
  name : u.name = unit
  interfaces : u.interfaces = [interface]
  fields : u.fields = [⟨Framework.providerField, .object Platform.provider⟩]
  methods : ∃ init main, u.methods = [init, main] ∧
    init.Drafted u.pool unit (classesOf h unit interface) Framework.constructorName
      Framework.constructorSignature (constructorCode unit) ∧
    main.Drafted u.pool unit (classesOf h unit interface) method s a

namespace Generated

variable {unit interface method : String} {h : Hierarchy} {s : Signature} {a : Assembler} {u : CodeUnit}

/-- The constructor is found by its name. -/
theorem constructor? (hu : Generated unit interface h method s a u) :
    ∃ init, u.method? Framework.constructorName = some init ∧
      init.Drafted u.pool unit (classesOf h unit interface) Framework.constructorName
        Framework.constructorSignature (constructorCode unit) := by
  obtain ⟨init, main, hmethods, hinit, -⟩ := hu.methods
  refine ⟨init, ?_, hinit⟩
  unfold CodeUnit.method?
  rw [hmethods, List.find?_cons, hinit.name, beq_self_eq_true]

/-- The other method is found by its name. -/
theorem main? (hu : Generated unit interface h method s a u) (hne : Framework.constructorName ≠ method) :
    ∃ main, u.method? method = some main ∧ main.Drafted u.pool unit (classesOf h unit interface) method s a := by
  obtain ⟨init, main, hmethods, hinit, hmain⟩ := hu.methods
  refine ⟨main, ?_, hmain⟩
  unfold CodeUnit.method?
  rw [hmethods, List.find?_cons, hinit.name, beq_false_of_ne hne, List.find?_cons, hmain.name,
    beq_self_eq_true]

/-- There are no further methods. -/
theorem method?_eq_none (hu : Generated unit interface h method s a u) {name : String}
    (hinit : Framework.constructorName ≠ name) (hmain : method ≠ name) : u.method? name = none := by
  obtain ⟨init, main, hmethods, hinit', hmain'⟩ := hu.methods
  unfold CodeUnit.method?
  rw [hmethods, List.find?_cons, hinit'.name, beq_false_of_ne hinit, List.find?_cons, hmain'.name,
    beq_false_of_ne hmain, List.find?_nil]

end Generated

/-! ## Drafting -/

/-- What the generator adds to a draft is added as any method is. -/
theorem addMethod_eq_ok {d d' : Draft} {name : String} {s : Signature} {a : Assembler}
    (h : addMethod d name s a = .ok d') : d.addMethod name s a = (d', .ok ()) := by
  unfold addMethod at h
  split at h
  · next heq =>
    cases h
    exact heq
  · simp at h

/-- A unit that comes out of a draft with a constructor and one method is generated. -/
theorem generated_of_drafts {name interface method : String} {role : Role} {h : Hierarchy} {s : Signature}
    {a : Assembler} {d d' : Draft} (hstart : startUnit name role h interface = .ok d)
    (hmethod : addMethod d method s a = .ok d') : Generated name interface h method s a d'.toUnit := by
  obtain ⟨-, init, hd, hinit⟩ := Draft.addMethod_eq_ok (addMethod_eq_ok hstart)
  obtain ⟨hpool, main, hd', hmain⟩ := Draft.addMethod_eq_ok (addMethod_eq_ok hmethod)
  rw [hd] at hd' hmain
  rw [hd']
  exact ⟨rfl, rfl, rfl, init, main, rfl, hinit.extend hpool, hmain⟩

/-- The handler of an endpoint. -/
theorem handlerUnit_eq_ok {e : Endpoint} {u : CodeUnit} (h : handlerUnit e = .ok u) :
    ∃ a, applyCode (handlerName e) e = .ok a ∧
      Generated (handlerName e) Platform.handler Framework.hierarchy Framework.applyName
        Framework.applySignature a u := by
  obtain ⟨d, hd, h⟩ := bind_eq_ok.mp h
  obtain ⟨a, ha, h⟩ := bind_eq_ok.mp h
  obtain ⟨d', hd', h⟩ := bind_eq_ok.mp h
  cases h
  exact ⟨a, ha, generated_of_drafts hd hd'⟩

def installCode (unit : String) (f : AttributeFilter) (c : Controller) : List (Instr Constant) :=
  c.endpoints.flatMap (routeCode unit f) ++ [.returnVoid]

/-- The registration of a controller. -/
theorem registrationUnit_eq_ok {c : Controller} {f : AttributeFilter} {u : CodeUnit}
    (h : registrationUnit c f = .ok u) :
    Generated (registrationName c.name) Platform.installer (registrationHierarchy c) Framework.installName
      Framework.installSignature (Assembler.empty.emitAll (installCode (registrationName c.name) f c)) u := by
  obtain ⟨d, hd, h⟩ := bind_eq_ok.mp h
  obtain ⟨d', hd', h⟩ := bind_eq_ok.mp h
  cases h
  exact generated_of_drafts hd hd'

/-! ## The code of an endpoint -/

/-- Code in two pieces is written down piece by piece. -/
theorem emitAll_append (a : Assembler) (is js : List (Instr Constant)) :
    a.emitAll (is ++ js) = (a.emitAll is).emitAll js := List.foldl_append

/-- The code of the parameters is that of one after the other, all of which can be bound. -/
theorem bindParams_eq_ok {method : String} {ps : List Parameter} {a a' : Assembler}
    (h : bindParams a method ps = .ok a') :
    (∀ p ∈ ps, (bindingCode p).fault = none) ∧ a' = a.emitAll (ps.flatMap fun p => (bindingCode p).code) := by
  induction ps generalizing a with
  | nil =>
      cases h
      exact ⟨by simp, rfl⟩
  | cons p ps ih =>
      unfold bindParams bindParam at h
      simp only at h
      cases hfault : (bindingCode p).fault with
      | none =>
          rw [hfault] at h
          obtain ⟨hps, ha'⟩ := ih h
          refine ⟨List.forall_mem_cons.mpr ⟨hfault, hps⟩, ?_⟩
          rw [ha', List.flatMap_cons, emitAll_append]
      | some fault =>
          rw [hfault] at h
          simp at h

/-- The code before the answer: it gets the controller, binds the parameters and calls the method. -/
def callCode (unit : String) (e : Endpoint) : List (Instr Constant) :=
  [.load 0, .getField unit Framework.providerField (.object Platform.provider), Framework.providerGet.instr,
      .checkCast (.object e.owner)]
    ++ e.params.flatMap (fun p => (bindingCode p).code)
    ++ [.invokeVirtual e.owner e.name (signatureOf e)]

/-- The code of the answer, with the first label for the place where the response is not started. -/
def answerCode : Outcome → List (Instr Constant)
  | .void =>
    [loadContext, Framework.isResponseStarted.instr, .jump .ifFalse 0, loadContext, .returnValue, loadContext,
      .getStatic Platform.statusCode Framework.noContent (.object Platform.statusCode), Framework.send.instr,
      .returnValue]
  | .primitive kind => [(Framework.box kind).instr, .returnValue]
  | .statusCode => [loadContext, .swap, Framework.send.instr, .returnValue]
  | .reference _ | .context | .parameterized _ _ => [.returnValue]

/-- The places of the labels of an answer that begins at `start`. -/
def answerLabels (start : Nat) : Outcome → Array (Option UInt16)
  | .void => #[some (saturate16 (start + 5))]
  | _ => #[]

/-- The answer comes behind the code, with the labels that it uses. -/
theorem answer_eq (is : List (Instr Constant)) (o : Outcome) :
    (answer (Assembler.empty.emitAll is) o).instrs.toList = is ++ answerCode o ∧
      (answer (Assembler.empty.emitAll is) o).labels = answerLabels is.length o := by
  have hlabels : (Assembler.empty.emitAll is).labels = #[] := Assembler.labels_emitAll _ _
  have hinstrs : (Assembler.empty.emitAll is).instrs.toList = is := Assembler.toList_emitAll _ _
  generalize Assembler.empty.emitAll is = a at hlabels hinstrs
  cases o
  case void =>
    constructor
    · simp [answer, answerNothing, answerCode, Assembler.newLabel, Assembler.jump, Assembler.bind, hinstrs, hlabels]
      rfl
    · have hsize (b : Assembler) : b.size = b.instrs.toList.length := (Array.length_toList).symm
      simp only [answer, answerNothing, answerLabels, Assembler.newLabel, Assembler.jump, Assembler.bind, hlabels,
        hsize, Assembler.toList_emitAll, Assembler.labels_emitAll, Assembler.toList_emit, Assembler.labels_emit,
        hinstrs, List.length_append]
      rfl
  all_goals exact ⟨by simp [answer, answerCode, hinstrs], by simp [answer, answerLabels, hlabels]⟩

/-- **The code of an endpoint** is that of the call and of the answer. -/
theorem applyCode_eq_ok {unit : String} {e : Endpoint} {a : Assembler} (h : applyCode unit e = .ok a) :
    (∀ p ∈ e.params, (bindingCode p).fault = none) ∧
      a.instrs.toList = callCode unit e ++ answerCode e.outcome ∧
      a.labels = answerLabels (callCode unit e).length e.outcome := by
  obtain ⟨a₁, ha₁, h⟩ := bind_eq_ok.mp h
  obtain ⟨hparams, rfl⟩ := bindParams_eq_ok ha₁
  cases h
  refine ⟨hparams, ?_⟩
  have hcall : ∀ is js i, ((Assembler.empty.emitAll is).emitAll js).emit i =
      Assembler.empty.emitAll (is ++ js ++ [i]) := by
    intro is js i
    rw [emitAll_append, emitAll_append]
    rfl
  rw [hcall]
  exact answer_eq (callCode unit e) e.outcome

/-! ## Code in which no paths meet -/

/-- The code before the call of the endpoint's method calls methods of the catalogue and binders. -/
theorem callCode_calls (unit : String) (e : Endpoint) :
    ∀ i ∈ (callCode unit e).dropLast, Instr.IsCatalogued i ∨ ∃ p ∈ e.params, Instr.CallsBinder p i := by
  intro i hi
  unfold callCode at hi
  rw [List.dropLast_concat] at hi
  rcases List.mem_append.mp hi with hi | hi
  · left
    apply catalogued_cons (isCatalogued_load 0) _ i hi
    apply catalogued_cons (isCatalogued_of_simple rfl rfl rfl)
    exact catalogued_cons (isCatalogued_call (by decide)) (catalogued_singleton (isCatalogued_checkCast _))
  · obtain ⟨p, hp, hi⟩ := List.mem_flatMap.mp hi
    exact (bindingCode_calls p i hi).imp_right fun h => ⟨p, hp, h⟩

/-- The code of a call is plain up to its last instruction. -/
theorem plain_callCode (unit : String) (e : Endpoint) : Plain (callCode unit e).dropLast := by
  intro i hi
  rcases callCode_calls unit e i hi with h | ⟨p, -, h⟩
  · exact h.isPlain
  · exact h.isPlain

/-- The code before the answer ends with the call of the endpoint's method. -/
theorem callCode_concat (unit : String) (e : Endpoint) :
    callCode unit e = (callCode unit e).dropLast ++ [.invokeVirtual e.owner e.name (signatureOf e)] := by
  unfold callCode
  rw [List.dropLast_concat]

/-- The code of an endpoint up to the call: control goes on behind each of its instructions, none of which makes
an object. -/
theorem callCode_straight (unit : String) (e : Endpoint) :
    ∀ i ∈ callCode unit e, i.isStraight = true ∧ Instr.makesObject i = false := by
  intro i hi
  rw [callCode_concat] at hi
  rcases List.mem_append.mp hi with hi | hi
  · exact ⟨(plain_callCode unit e i hi).straight, (plain_callCode unit e i hi).makes⟩
  · rw [List.mem_singleton.mp hi]
    exact ⟨rfl, rfl⟩

/-- An answer with a value does not jump. -/
theorem answerCode_inLine {o : Outcome} (ho : o ≠ .void) : ∀ i ∈ answerCode o, i.staysInLine = true := by
  have hreturn : ∀ i ∈ [Instr.returnValue], i.staysInLine = true := List.forall_mem_singleton.mpr rfl
  cases o with
  | void => exact absurd rfl ho
  | primitive kind => exact List.forall_mem_cons.mpr ⟨rfl, hreturn⟩
  | statusCode =>
      exact List.forall_mem_cons.mpr ⟨rfl, List.forall_mem_cons.mpr ⟨rfl, List.forall_mem_cons.mpr ⟨rfl, hreturn⟩⟩⟩
  | reference t => exact hreturn
  | context => exact hreturn
  | parameterized base args => exact hreturn

/-- An answer makes no object. -/
theorem answerCode_makes (o : Outcome) : ∀ i ∈ answerCode o, Instr.makesObject i = false := by
  intro i hi
  cases o <;> simp only [answerCode, List.mem_cons, List.not_mem_nil, or_false] at hi
  case void => rcases hi with rfl | rfl | rfl | rfl | rfl | rfl | rfl | rfl | rfl <;> rfl
  case primitive kind => rcases hi with rfl | rfl <;> rfl
  case statusCode => rcases hi with rfl | rfl | rfl | rfl <;> rfl
  all_goals
    rw [hi]
    rfl

/-- In the answer of a method without a result, only the third instruction is a jump. -/
theorem answerCode_void_inLine {k : Nat} {i : Instr Constant} (hi : (answerCode .void)[k]? = some i) (hk : k ≠ 2) :
    i.staysInLine = true := by
  match k with
  | 2 => exact absurd rfl hk
  | 0 | 1 | 3 | 4 | 5 | 6 | 7 | 8 =>
      cases hi
      rfl
  | k + 9 =>
      have hnone : (answerCode .void)[k + 9]? = none := List.getElem?_eq_none (Nat.le_add_left 9 k)
      rw [hnone] at hi
      cases hi

/-- A number below the bound is written down as it is. -/
theorem toNat_saturate16_of_lt {n : Nat} (h : n < 65536) : (saturate16 n).toNat = n := by
  rw [toNat_saturate16]
  omega

/-- Where the jump of an answer without a result goes. -/
theorem answer_jump {unit : String} {e : Endpoint} {pool : Pool} {code : Code}
    (hcode : List.Forall₂ (Instr.Resolves pool (answerLabels (callCode unit e).length .void)) code.toList
      (callCode unit e ++ answerCode .void)) (hsize : code.size < 65536) :
    ∃ target, code[(callCode unit e).length + 2]? = some (.jump .ifFalse target) ∧
      target.toNat = (callCode unit e).length + 2 + 3 := by
  have hlength := hcode.length_eq
  rw [List.length_append, Array.length_toList, show (answerCode .void).length = 9 from rfl] at hlength
  have hat : (callCode unit e ++ answerCode .void)[(callCode unit e).length + 2]? = some (.jump .ifFalse 0) := by
    rw [List.getElem?_append_right (by omega), Nat.add_sub_cancel_left]
    rfl
  obtain ⟨jump, hjump, hresolves⟩ := Code.resolved_at hcode hat
  cases hresolves with
  | @jump op label place hlabel =>
      have : some (some (saturate16 ((callCode unit e).length + 5))) = some (some place) := hlabel
      cases this
      exact ⟨_, hjump, toNat_saturate16_of_lt (by omega)⟩

/-- No two paths meet in the code of an endpoint. -/
theorem apply_singleEntry {unit : String} {e : Endpoint} {pool : Pool} {code : Code}
    (hcode : List.Forall₂ (Instr.Resolves pool (answerLabels (callCode unit e).length e.outcome)) code.toList
      (callCode unit e ++ answerCode e.outcome)) (hsize : code.size < 65536) : code.SingleEntry := by
  have hcall : ∀ i ∈ callCode unit e, i.staysInLine = true := by
    intro i hi
    unfold Instr.staysInLine
    rw [(callCode_straight unit e i hi).1]
    rfl
  -- Only an answer without a result has a jump.
  by_cases ho : e.outcome = .void
  · rw [ho] at hcode
    obtain ⟨target, hjump, htarget⟩ := answer_jump hcode hsize
    have hat : (callCode unit e ++ answerCode .void)[(callCode unit e).length + 4]? = some .returnValue := by
      rw [List.getElem?_append_right (by omega), Nat.add_sub_cancel_left]
      rfl
    obtain ⟨back, hback, hback'⟩ := Code.resolved_at hcode hat
    cases hback'
    refine Code.singleEntry_of_branch hjump htarget hback ?_
    intro q i hi hq
    obtain ⟨i', hi', hresolves⟩ := Code.resolves_at hcode hi
    apply hresolves.goesOn
    rcases Nat.lt_or_ge q (callCode unit e).length with hlt | hge
    · rw [List.getElem?_append_left hlt] at hi'
      exact hcall i' (List.mem_of_getElem? hi')
    · rw [List.getElem?_append_right hge] at hi'
      exact answerCode_void_inLine hi' (by omega)
  · apply Code.singleEntry_of_line hcode
    intro i hi
    rcases List.mem_append.mp hi with hi | hi
    · exact hcall i hi
    · exact answerCode_inLine ho i hi

/-! ## The code of a registration -/

/-- Setting a field of the route calls what the code of the value does. -/
theorem catalogued_setCode {c : Call} (hc : c ∈ Framework.catalogue) {value : List (Instr Constant)}
    (h : Catalogued value) : Catalogued (setCode c value) := by
  apply catalogued_cons (isCatalogued_load _)
  apply catalogued_append h
  exact catalogued_cons (isCatalogued_call hc) (catalogued_singleton (isCatalogued_of_simple rfl rfl rfl))

/-- Telling media types calls only the catalogue. -/
theorem catalogued_mediaTypesCode {c : Call} (hc : c ∈ Framework.catalogue) (mediaTypes : List String) :
    Catalogued (mediaTypesCode c mediaTypes) := by
  unfold mediaTypesCode
  split
  · exact catalogued_nil
  · apply catalogued_setCode hc
    apply catalogued_append
    · apply catalogued_arrayCode
      intro code hcode
      obtain ⟨m, -, rfl⟩ := List.mem_map.mp hcode
      exact catalogued_cons (isCatalogued_string m) (catalogued_singleton (isCatalogued_call (by decide)))
    · exact catalogued_singleton (isCatalogued_call (by decide))

/-- The code that tells a route its attributes. -/
def attributesCode (as : AttributeMap) : List (Instr Constant) :=
  as.flatMap fun (name, a) => setCode Framework.setAttribute (.string name :: attributeCode a)

/-- The code that tells the route of an endpoint everything but its verb, pattern and handler. -/
def describeCode (f : AttributeFilter) (e : Endpoint) : List (Instr Constant) :=
  setCode Framework.setReturnType (typeCode e.returnType)
    ++ mediaTypesCode Framework.setConsumes e.consumes
    ++ mediaTypesCode Framework.setProduces e.produces
    ++ attributesCode (f.filter e.attributes)

/-- The code for a route adds it and then describes it. -/
theorem routeCode_eq (unit : String) (f : AttributeFilter) (e : Endpoint) :
    routeCode unit f e = addRouteCode unit e ++ describeCode f e := by
  simp only [routeCode, describeCode, List.append_assoc]
  rfl

theorem catalogued_describeCode (f : AttributeFilter) (e : Endpoint) : Catalogued (describeCode f e) := by
  unfold describeCode
  refine catalogued_append (catalogued_append (catalogued_append ?_ ?_) ?_) ?_
  · exact catalogued_setCode (by decide) (catalogued_typeCode e.returnType)
  · exact catalogued_mediaTypesCode (by decide) e.consumes
  · exact catalogued_mediaTypesCode (by decide) e.produces
  · intro i hi
    obtain ⟨⟨name, a⟩, -, hi⟩ := List.mem_flatMap.mp hi
    have hvalue := catalogued_cons (isCatalogued_string name) (catalogued_attributeCode a)
    exact catalogued_setCode (by decide) hvalue i hi

theorem plain_describeCode (f : AttributeFilter) (e : Endpoint) : Plain (describeCode f e) :=
  fun i hi => (catalogued_describeCode f e i hi).isPlain

/-- Control goes on behind each instruction for an endpoint; the only objects made are of its handler. -/
theorem routeCode_straight {unit : String} {f : AttributeFilter} {e : Endpoint} {i : Instr Constant}
    (hi : i ∈ routeCode unit f e) :
    i.isStraight = true ∧ (Instr.makesObject i = false ∨ i = .newObject (handlerName e)) := by
  rw [routeCode_eq] at hi
  rcases List.mem_append.mp hi with hi | hi
  · simp only [addRouteCode, List.mem_cons, List.not_mem_nil, or_false] at hi
    rcases hi with rfl | rfl | rfl | rfl | rfl | rfl | rfl | rfl | rfl | rfl
    case inr.inr.inr.inl => exact ⟨rfl, .inr rfl⟩
    all_goals exact ⟨rfl, .inl rfl⟩
  · exact ⟨(plain_describeCode f e i hi).straight, .inl (plain_describeCode f e i hi).makes⟩

/-! ## Accepted again -/

section

variable {unit interface : String} {h : Hierarchy} {method : String} {s : Signature} {a : Assembler} {u : CodeUnit}

/-- The constructor returns in one place. -/
theorem constructor_singleEntry {pool : Pool} {code : Code}
    (hcode : List.Forall₂ (Instr.Resolves pool (constructorCode unit).labels) code.toList
      (constructorCode unit).instrs.toList) : code.SingleEntry := by
  apply Code.singleEntry_of_line hcode
  intro i hi
  simp only [constructorCode, Assembler.toList_emitAll] at hi
  simp only [Assembler.empty, List.nil_append, List.mem_cons, List.not_mem_nil, or_false] at hi
  rcases hi with rfl | rfl | rfl | rfl <;> rfl

/-- **A generated unit is accepted again** when it is linked: then more constants and classes are known. -/
theorem Generated.verify (hu : Generated unit interface h method s a u) {h' : Hierarchy}
    (hedges : ∀ e ∈ h.edges, e ∈ h'.edges)
    (hmain : ∀ {code : Code}, List.Forall₂ (Instr.Resolves u.pool a.labels) code.toList a.instrs.toList →
      code.size < 65536 → code.SingleEntry) : u.verify h' = .ok () := by
  obtain ⟨init, main, hmethods, hinit, hmethod⟩ := hu.methods
  have hclasses : ∀ e ∈ (classesOf h unit interface).edges, e ∈ (u.hierarchyWith h').edges := by
    intro e he
    rw [CodeUnit.mem_edges_hierarchyWith, hu.interfaces, hu.name]
    rcases List.mem_append.mp he with he | he
    · exact .inl (hedges e he)
    · exact .inr ⟨interface, List.mem_singleton_self _, List.mem_singleton.mp he⟩
  rw [← hu.name] at hinit hmethod hclasses
  unfold CodeUnit.verify CodeUnit.verifyWithin
  rw [forM_eq_ok, hmethods]
  intro m hm
  rcases List.mem_pair.mp hm with rfl | rfl
  · exact hinit.verified (constructor_singleEntry hinit.code) hclasses
  · exact hmethod.verified (hmain hmethod.code hmethod.size) hclasses

/-- A generated unit is read back from its bytes. -/
theorem Generated.decode (hu : Generated unit interface h method s a u) (hs : s.WellFormed) {enc : EncodedUnit}
    (henc : EncodedUnit.of u = .ok enc) : CodeUnit.decode enc.bytes = .ok u := by
  obtain ⟨init, main, hmethods, hinit, hmethod⟩ := hu.methods
  obtain ⟨bytes, hbytes, henc⟩ := bind_eq_ok.mp henc
  cases henc
  refine CodeUnit.decode_eq_ok.mpr ⟨⟨?_, ?_⟩, hbytes⟩
  · rw [hu.fields]
    exact List.forall_mem_singleton.mpr (by decide)
  · rw [hmethods]
    intro m hm
    rcases List.mem_pair.mp hm with rfl | rfl
    · rw [hinit.signature]
      decide
    · rw [hmethod.signature]
      exact hs

end

end Routecraft.Compile
