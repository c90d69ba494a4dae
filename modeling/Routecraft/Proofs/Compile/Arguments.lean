import Routecraft.Proofs.Compile.Interpreting
import Routecraft.Proofs.Compile.Typing

/-!
# Types of arguments

A binding that is supported leaves one slot, of the type that the parameter has in the signature of its method.
Only the descriptor of a binder can stop it: its result is of the parameter's class, whose name is not looked at
before.

* `Fetches`: code that leaves a value of a type.
* `BinderReadable`: whether the descriptor of a parameter's binder can be read.
* `leaves_bindingCode`: the slot that a supported binding leaves.
* `effects_bindingCodes`: the slots that the bindings of all parameters leave.
-/

namespace Routecraft.Compile

open Bytecode Hierarchy

variable {h : Hierarchy} {r : Option DataType} {ls : List (Option SlotType)} {st : List SlotType} {q : Parameter}

/-- Code that leaves a value of a type on the stack. -/
def Fetches (h : Hierarchy) (r : Option DataType) (ls : List (Option SlotType)) (code : List (Instr Constant))
    (t : TypeExpr) : Prop :=
  ∃ type, dataType? t = some type ∧ ∀ st, h.effects r ⟨st, ls⟩ code = .ok ⟨.of type :: st, ls⟩

/-- Loading the context pushes it, if it is in its local. -/
theorem effect_loadContext (hctx : ls[1]? = some (some (.ref Platform.context))) :
    h.effect r ⟨st, ls⟩ loadContext = .ok ⟨.ref Platform.context :: st, ls⟩ := effect_load hctx

/-- The slot of an array is of its class. -/
theorem of_dataType?_array {element : TypeExpr} {type : DataType} (htype : dataType? (.array element) = some type) :
    SlotType.ref type.className = .of type := by
  obtain ⟨item, -, rfl⟩ := Option.map_eq_some_iff.mp htype
  rfl

/-! ## Single calls -/

/-- A source of request values takes the context and a name, and gives a value. -/
theorem effect_lookup {source : String} (hsource : source ∈ Framework.sources) :
    h.effect r ⟨.ref Platform.string :: .ref Platform.context :: st, ls⟩ (Framework.lookup source).instr =
      .ok ⟨.ref Platform.value :: st, ls⟩ :=
  effect_onObject₁ ⟨Framework.mem_sources_of_lookup hsource, (by decide : Dispatch.interface ≠ .static), rfl⟩ rfl
    (h.accepts_of _)

/-- The text of a value. -/
theorem effect_valueText (nullable : Bool) :
    h.effect r ⟨.ref Platform.value :: st, ls⟩ (Framework.valueText nullable).instr =
      .ok ⟨.ref Platform.string :: st, ls⟩ := by
  have hcall : Framework.OnObject (Framework.valueText nullable) 0 := by
    cases nullable <;> exact ⟨by decide, by decide, rfl⟩
  exact effect_onObject₀ hcall rfl

/-- A value as one of a primitive type. -/
theorem effect_valuePrimitive (kind : Primitive) :
    h.effect r ⟨.ref Platform.value :: st, ls⟩ (Framework.valuePrimitive kind).instr =
      .ok ⟨.of (Framework.primitive kind) :: st, ls⟩ :=
  effect_onObject₀ ⟨Framework.valuePrimitive_mem kind, (by decide : Dispatch.interface ≠ .static), rfl⟩ rfl

/-- A value as one of a class, which is known only to be an object. -/
theorem effect_valueTo (nullable : Bool) :
    h.effect r ⟨.ref Platform.classClass :: .ref Platform.value :: st, ls⟩ (Framework.valueTo nullable).instr =
      .ok ⟨.ref Platform.object :: st, ls⟩ := by
  have hcall : Framework.OnObject (Framework.valueTo nullable) 1 := by
    cases nullable <;> exact ⟨by decide, by decide, rfl⟩
  exact effect_onObject₁ hcall rfl (h.accepts_of _)

/-- What is in a box. -/
theorem effect_unbox (kind : Primitive) :
    h.effect r ⟨.ref kind.boxClass :: st, ls⟩ (Framework.unbox kind).instr =
      .ok ⟨.of (Framework.primitive kind) :: st, ls⟩ :=
  effect_onObject₀ ⟨Framework.unbox_mem kind, (by decide : Dispatch.virtual ≠ .static), rfl⟩ rfl

/-- The context gives an object for a class. -/
theorem effect_require :
    h.effect r ⟨.ref Platform.classClass :: .ref Platform.context :: st, ls⟩ Framework.require.instr =
      .ok ⟨.ref Platform.object :: st, ls⟩ := by
  have hcall : Framework.OnObject Framework.require 1 := ⟨by decide, by decide, rfl⟩
  exact effect_onObject₁ hcall rfl (h.accepts_of _)

/-! ## Values of the path, the query, headers, cookies and forms -/

/-- Whatever a value can be converted to, the code of the conversion leaves it. -/
theorem effects_conversion (nullable : Bool) {t : TypeExpr} {c : Conversion} (hc : Convertible t c) :
    ∃ type, dataType? t = some type ∧
      ∀ st, h.effects r ⟨.ref Platform.value :: st, ls⟩ (c.code nullable) = .ok ⟨.of type :: st, ls⟩ := by
  have hcontainer (call : Call) {container : String} (hcall : Framework.OnObject call 1)
      (hvalue : call.owner = Platform.value)
      (hsignature : call.signature = .returning [.object Platform.classClass] (.object container))
      (element : DataType) (st : List SlotType) :
      h.effects r ⟨.ref Platform.value :: st, ls⟩ [.classOf element, call.instr] =
        .ok ⟨.ref container :: st, ls⟩ := by
    have heffect : h.effect r ⟨.ref Platform.classClass :: .ref call.owner :: st, ls⟩ call.instr = _ :=
      effect_onObject₁ hcall hsignature (h.accepts_of (.object Platform.classClass))
    rw [hvalue] at heffect
    simp only [effects_cons, effects_nil, effect_classOf, ok_bind, heffect]
    rfl
  cases hc with
  | primitive kind =>
      refine ⟨_, rfl, fun st => ?_⟩
      simp only [Conversion.code, effects_cons, effects_nil, effect_valuePrimitive, ok_bind]
  | text =>
      refine ⟨_, rfl, fun st => ?_⟩
      simp only [Conversion.code, effects_cons, effects_nil, effect_valueText, ok_bind]
      rfl
  | plain =>
      refine ⟨_, rfl, fun st => ?_⟩
      simp only [Conversion.code, effects_cons, effects_nil, effect_classOf, effect_valueTo, effect_checkCast, ok_bind]
      rfl
  | container element hmem =>
      refine ⟨_, rfl, ?_⟩
      rcases mem_containers.mp hmem with ⟨rfl, rfl⟩ | ⟨rfl, rfl⟩ | ⟨rfl, rfl⟩
      · exact hcontainer Framework.valueToOptional ⟨by decide, by decide, rfl⟩ rfl rfl _
      · exact hcontainer Framework.valueToList ⟨by decide, by decide, rfl⟩ rfl rfl _
      · exact hcontainer Framework.valueToSet ⟨by decide, by decide, rfl⟩ rfl rfl _

/-! ## The body -/

/-- Each way to take a body leaves a value of the type. -/
theorem effects_bodyRow (hedges : ∀ e ∈ Framework.hierarchy.edges, e ∈ h.edges) {t : TypeExpr}
    {code : List (Instr Constant)} (hrow : BodyRow t code) :
    ∃ type, dataType? t = some type ∧
      ∀ st, h.effects r ⟨.ref Platform.body :: st, ls⟩ code = .ok ⟨.of type :: st, ls⟩ := by
  -- What a body is asked for in the rows, call by call.
  have hbytes (st : List SlotType) : h.effect r ⟨.ref Platform.body :: st, ls⟩ Framework.bodyBytes.instr =
      .ok ⟨.of (.array .byte) :: st, ls⟩ :=
    effect_onObject₀ (c := Framework.bodyBytes) ⟨by decide, by decide, rfl⟩ rfl
  have hstream (st : List SlotType) : h.effect r ⟨.ref Platform.body :: st, ls⟩ Framework.bodyStream.instr =
      .ok ⟨.ref Platform.inputStream :: st, ls⟩ :=
    effect_onObject₀ (c := Framework.bodyStream) ⟨by decide, by decide, rfl⟩ rfl
  have hvalue (st : List SlotType) : h.effect r ⟨.ref Platform.body :: st, ls⟩ Framework.bodyValue.instr =
      .ok ⟨.ref Platform.string :: st, ls⟩ :=
    effect_onObject₀ (c := Framework.bodyValue) ⟨by decide, by decide, rfl⟩ rfl
  have hto {name : String} (hname : name ∈ typeClasses) (st : List SlotType) :
      h.effect r ⟨.ref name :: .ref Platform.body :: st, ls⟩ Framework.bodyTo.instr =
        .ok ⟨.ref Platform.object :: st, ls⟩ :=
    effect_onObject₁ (c := Framework.bodyTo) ⟨by decide, by decide, rfl⟩ rfl (isSubtype_type hedges hname)
  have hclass : Platform.classClass ∈ typeClasses := by decide
  cases hrow with
  | body args => exact ⟨_, rfl, fun st => rfl⟩
  | bytes =>
      refine ⟨_, rfl, fun st => ?_⟩
      simp only [effects_cons, effects_nil, hbytes, ok_bind]
      rfl
  | stream args =>
      refine ⟨_, rfl, fun st => ?_⟩
      simp only [effects_cons, effects_nil, hstream, ok_bind]
      rfl
  | text =>
      refine ⟨_, rfl, fun st => ?_⟩
      simp only [effects_cons, effects_nil, hvalue, ok_bind]
      rfl
  | primitive kind =>
      refine ⟨_, rfl, fun st => ?_⟩
      simp only [effects_cons, effects_nil, effect_classOf, hto hclass, effect_checkCast, ok_bind]
      exact congrArg (· >>= _) (effect_unbox kind)
  | @object name args =>
      obtain ⟨typeClass, htypeClass, hleaves⟩ := leaves_typeCode hedges (.named name args)
      refine ⟨_, rfl, fun st => ?_⟩
      rw [effects_append, (hleaves _).ok trivial, ok_bind]
      simp only [effects_cons, effects_nil, hto htypeClass, effect_checkCast, ok_bind]
      rfl
  | array _ htype =>
      refine ⟨_, htype, fun st => ?_⟩
      rw [← of_dataType?_array htype]
      simp only [effects_cons, effects_nil, effect_classOf, hto hclass, effect_checkCast, ok_bind]

/-! ## Uploads -/

/-- Each way to take an upload leaves a value of the type. -/
theorem effects_uploadRow {t : TypeExpr} {code : List (Instr Constant)} (hrow : UploadRow t code) :
    ∃ type, dataType? t = some type ∧
      ∀ st, h.effects r ⟨.ref Platform.string :: .ref Platform.context :: st, ls⟩ code =
        .ok ⟨.of type :: st, ls⟩ := by
  have hfiles (st : List SlotType) :
      h.effect r ⟨.ref Platform.string :: .ref Platform.context :: st, ls⟩ Framework.files.instr =
        .ok ⟨.ref Platform.list :: st, ls⟩ :=
    effect_onObject₁ (c := Framework.files) ⟨by decide, by decide, rfl⟩ rfl (h.accepts_of _)
  have hfile (st : List SlotType) :
      h.effect r ⟨.ref Platform.string :: .ref Platform.context :: st, ls⟩ Framework.file.instr =
        .ok ⟨.ref Platform.fileUpload :: st, ls⟩ :=
    effect_onObject₁ (c := Framework.file) ⟨by decide, by decide, rfl⟩ rfl (h.accepts_of _)
  have hpath (st : List SlotType) : h.effect r ⟨.ref Platform.fileUpload :: st, ls⟩ Framework.uploadPath.instr =
      .ok ⟨.ref Platform.filePath :: st, ls⟩ :=
    effect_onObject₀ (c := Framework.uploadPath) ⟨by decide, by decide, rfl⟩ rfl
  have hbytes (st : List SlotType) : h.effect r ⟨.ref Platform.fileUpload :: st, ls⟩ Framework.uploadBytes.instr =
      .ok ⟨.of (.array .byte) :: st, ls⟩ :=
    effect_onObject₀ (c := Framework.uploadBytes) ⟨by decide, by decide, rfl⟩ rfl
  cases hrow with
  | files =>
      refine ⟨_, rfl, fun st => ?_⟩
      simp only [effects_cons, effects_nil, hfiles, ok_bind]
      rfl
  | file =>
      refine ⟨_, rfl, fun st => ?_⟩
      simp only [effects_cons, effects_nil, hfile, ok_bind]
      rfl
  | path =>
      refine ⟨_, rfl, fun st => ?_⟩
      simp only [effects_cons, effects_nil, hfile, hpath, ok_bind]
      rfl
  | bytes =>
      refine ⟨_, rfl, fun st => ?_⟩
      simp only [effects_cons, effects_nil, hfile, hbytes, ok_bind]
      rfl

/-! ## The context and the objects in it -/

/-- Each way to take the context itself fetches a value of the type. -/
theorem fetches_contextRow (hctx : ls[1]? = some (some (.ref Platform.context))) {t : TypeExpr}
    {code : List (Instr Constant)} (hrow : ContextRow t code) : Fetches h r ls code t := by
  have hoptional (st : List SlotType) :
      h.effect r ⟨.ref Platform.object :: st, ls⟩ Framework.optionalOfNullable.instr =
        .ok ⟨.ref Platform.optional :: st, ls⟩ :=
    effect_onClass₁ (c := Framework.optionalOfNullable) ⟨by decide, rfl, rfl⟩ rfl (h.accepts_root _)
  cases hrow with
  | context args =>
      refine ⟨_, rfl, fun st => ?_⟩
      simp only [effects_cons, effects_nil, effect_loadContext hctx, ok_bind]
      rfl
  | optional element =>
      refine ⟨_, rfl, fun st => ?_⟩
      simp only [effects_cons, effects_nil, effect_loadContext hctx, effect_classOf, effect_require, hoptional, ok_bind]
      rfl
  | primitive kind =>
      refine ⟨_, rfl, fun st => ?_⟩
      simp only [effects_cons, effects_nil, effect_loadContext hctx, effect_classOf, effect_require,
        effect_checkCast, ok_bind]
      exact congrArg (· >>= _) (effect_unbox kind)
  | object =>
      refine ⟨_, rfl, fun st => ?_⟩
      simp only [effects_cons, effects_nil, effect_loadContext hctx, effect_classOf, effect_require,
        effect_checkCast, ok_bind]
      rfl
  | array htype =>
      refine ⟨_, htype, fun st => ?_⟩
      rw [← of_dataType?_array htype]
      simp only [effects_cons, effects_nil, effect_loadContext hctx, effect_classOf, effect_require,
        effect_checkCast, ok_bind]

/-! ## Binders -/

/-- Whether the descriptor of a parameter's binder can be read, if it has one: whether the class of its result can
stand in a descriptor. -/
def BinderReadable (q : Parameter) : Prop :=
  ∀ m type, q.binding = .bound (some m) → dataType? q.type = some type → type.WellFormed

/-- A signature with parameters that can be read is read as it was written, or not at all. -/
theorem signatureOf_of_params {s : Signature} (hparams : ∀ t ∈ s.params, t.WellFormed) :
    (s.WellFormed → Bytecode.signatureOf s.descriptor = .ok s) ∧
      (¬s.WellFormed → ∃ cause, Bytecode.signatureOf s.descriptor = .error (.malformed s.descriptor cause)) := by
  refine ⟨fun hs => signatureOf_eq_ok.mpr ⟨hs, rfl⟩, fun hs => ?_⟩
  rcases hread : Bytecode.signatureOf s.descriptor with e | s'
  · obtain ⟨cause, rfl⟩ := naming_eq_error hread
    exact ⟨cause, rfl⟩
  · obtain ⟨hwell, hdescriptor⟩ := signatureOf_eq_ok.mp hread
    exact absurd (Signature.eq_of_params hwell hdescriptor hparams ▸ hwell) hs

/-- The call of a binder, whose descriptor is read with the type of the parameter. -/
theorem effect_binder (m : MethodName) (name : String) :
    Yields (DataType.object name).WellFormed
      (h.effect r ⟨.ref Platform.context :: st, ls⟩
        (.invokeStatic m.owner m.name (.returning [.object Platform.context] (.object name))))
      ⟨.ref name :: st, ls⟩ := by
  have hparams : ∀ t ∈ (Signature.returning [.object Platform.context] (.object name)).params, t.WellFormed :=
    List.forall_mem_singleton.mpr (by decide)
  have hwell : (Signature.returning [.object Platform.context] (.object name)).WellFormed ↔
      (DataType.object name).WellFormed :=
    ⟨fun hs => hs.2 _ rfl, fun hname => ⟨hparams, fun t ht => by cases ht; exact hname⟩⟩
  obtain ⟨hok, hmalformed⟩ := signatureOf_of_params hparams
  constructor
  · intro hname
    have hargs : List.Forall₂ (fun p t => h.accepts p t = true) [.object Platform.context] [.ref Platform.context] :=
      .cons (h.accepts_of _) .nil
    exact effect_ofStatic (hok (hwell.mpr hname)) hargs
  · intro hname
    obtain ⟨cause, herror⟩ := hmalformed fun hs => hname (hwell.mp hs)
    rw [effect_invokeStatic, herror]
    exact ⟨_, cause, rfl⟩

/-- Each way to take a bound object leaves a value of the type, with a binder if it is well named. -/
theorem leaves_boundRow (hctx : ls[1]? = some (some (.ref Platform.context))) {binder : Option MethodName}
    (hbinding : q.binding = .bound binder) {code : List (Instr Constant)} (hrow : BoundRow binder q.type code) :
    ∃ type, dataType? q.type = some type ∧ h.Leaves r ls (BinderReadable q) code (.of type) := by
  have hbind (st : List SlotType) :
      h.effect r ⟨.ref Platform.classClass :: .ref Platform.context :: st, ls⟩ Framework.bind.instr =
        .ok ⟨.ref Platform.object :: st, ls⟩ :=
    effect_onObject₁ (c := Framework.bind) ⟨by decide, by decide, rfl⟩ rfl (h.accepts_of _)
  generalize htype : q.type = t at hrow
  cases hrow with
  | binder m name args =>
      refine ⟨.object name, rfl, fun st => ?_⟩
      simp only [effects_cons, effect_loadContext hctx, ok_bind]
      refine (effect_binder m name).bind (.of_ok trivial rfl) ?_
      rw [and_true]
      constructor
      · intro hq
        exact hq m (.object name) hbinding (by rw [htype]; rfl)
      · intro hname m' type _ hdata
        rw [htype] at hdata
        cases hdata
        exact hname
  | context name args =>
      refine ⟨.object name, rfl, fun st => .of_ok (fun m type hsome => ?_) ?_⟩
      · rw [hbinding] at hsome
        cases hsome
      · simp only [effects_cons, effects_nil, effect_loadContext hctx, effect_classOf, hbind, effect_checkCast, ok_bind]
        rfl

/-! ## Parameters -/

/-- Code that fetches a value leaves it, whatever else has to be so. -/
theorem Fetches.leaves {code : List (Instr Constant)} {fine : Prop} (hcode : Fetches h r ls code q.type)
    (hfine : fine) : ∃ type, dataType? q.type = some type ∧ h.Leaves r ls fine code (.of type) := by
  obtain ⟨type, htype, heffects⟩ := hcode
  exact ⟨type, htype, fun st => .of_ok hfine (heffects st)⟩

/-- **A supported binding** leaves a value of the parameter's type, if the descriptor of its binder can be read. -/
theorem leaves_bindingCode (hedges : ∀ e ∈ Framework.hierarchy.edges, e ∈ h.edges)
    (hctx : ls[1]? = some (some (.ref Platform.context))) (hfault : (bindingCode q).fault = none) :
    ∃ type, dataType? q.type = some type ∧ h.Leaves r ls (BinderReadable q) (bindingCode q).code (.of type) := by
  have hbody (st : List SlotType) : h.effect r ⟨.ref Platform.context :: st, ls⟩ Framework.body.instr =
      .ok ⟨.ref Platform.body :: st, ls⟩ :=
    effect_onObject₀ (c := Framework.body) ⟨by decide, by decide, rfl⟩ rfl
  -- Only a binder has a descriptor of its own.
  have hreadable (hnot : ∀ m, q.binding ≠ .bound (some m)) : BinderReadable q :=
    fun m _ hbinding => absurd hbinding (hnot m)
  have hbinds := binds_of_supported hfault
  generalize (bindingCode q).code = code at hbinds
  cases hbinds with
  | value hsource hconvertible =>
      refine Fetches.leaves ?_ (hreadable ?_)
      · obtain ⟨type, htype, heffects⟩ := effects_conversion q.nullable hconvertible
        refine ⟨type, htype, fun st => ?_⟩
        simp only [List.cons_append, List.nil_append, effects_cons, effect_loadContext hctx, effect_string,
          effect_lookup hsource, ok_bind]
        exact heffects st
      · intro m hbinding
        rcases binding_of_source hsource with h | h | h | h | h <;> simp [h] at hbinding
  | body hbinding hrow =>
      refine Fetches.leaves ?_ (hreadable (by simp [hbinding]))
      obtain ⟨type, htype, heffects⟩ := effects_bodyRow hedges hrow
      refine ⟨type, htype, fun st => ?_⟩
      simp only [List.cons_append, List.nil_append, effects_cons, effect_loadContext hctx, hbody, ok_bind]
      exact heffects st
  | upload hbinding hrow =>
      refine Fetches.leaves ?_ (hreadable (by simp [hbinding]))
      obtain ⟨type, htype, heffects⟩ := effects_uploadRow hrow
      refine ⟨type, htype, fun st => ?_⟩
      simp only [List.cons_append, List.nil_append, effects_cons, effect_loadContext hctx, effect_string, ok_bind]
      exact heffects st
  | context hbinding hrow => exact (fetches_contextRow hctx hrow).leaves (hreadable (by simp [hbinding]))
  | bound hbinding hrow => exact leaves_boundRow hctx hbinding hrow

def argumentType (q : Parameter) : DataType := (dataType? q.type).getD (.object Platform.object)

/-- The bindings of parameters leave their arguments, the last one on top. -/
theorem effects_bindingCodes (hedges : ∀ e ∈ Framework.hierarchy.edges, e ∈ h.edges)
    (hctx : ls[1]? = some (some (.ref Platform.context))) {qs : List Parameter}
    (hfaults : ∀ q ∈ qs, (bindingCode q).fault = none) (st : List SlotType) :
    Yields (∀ q ∈ qs, BinderReadable q) (h.effects r ⟨st, ls⟩ (qs.flatMap fun q => (bindingCode q).code))
      ⟨(qs.map fun q => .of (argumentType q)).reverse ++ st, ls⟩ := by
  induction qs generalizing st with
  | nil => exact .of_ok (fun _ h => absurd h List.not_mem_nil) rfl
  | cons q qs ih =>
      obtain ⟨hfault, hfaults⟩ := List.forall_mem_cons.mp hfaults
      obtain ⟨type, htype, hleaves⟩ := leaves_bindingCode (r := r) hedges hctx hfault
      have hargument : argumentType q = type := by rw [argumentType, htype]; rfl
      rw [List.flatMap_cons, effects_append, List.map_cons, List.reverse_cons, List.append_assoc, hargument]
      exact (hleaves st).bind (ih hfaults _) List.forall_mem_cons

end Routecraft.Compile
