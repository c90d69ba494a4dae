import Routecraft.Proofs.Assembly.Fragments
import Routecraft.Proofs.Compile.Arguments
import Routecraft.Proofs.Compile.Plainness

/-!
# Code of bindings

What a binding does to the code that it is written behind. A binding that is supported adds one slot of the
parameter's type to the stack, whatever is on it before. A binding that is refused mostly leaves the code as it was;
but for an upload the context and the name of the upload are loaded before its type is looked at, and the body is
loaded before an array turns out to be one of void.

* `Misnamed`: parameters with a binder whose class cannot stand in a descriptor.
* `binding_leaves_value`: what a supported binding adds to the stack.
* `RejectedLate`, `leftBehind`: the bindings that are refused too late, and the code that is left.
* `late_rejections`: these are the only refused bindings that leave code.
-/

namespace Routecraft.Compile

open Bytecode

/-! ## Supported bindings -/

/-- A parameter with a binder, and with a class whose name cannot stand in a descriptor. -/
def Misnamed (p : Parameter) : Prop :=
  ∃ m name args, p.binding = .bound (some m) ∧ p.type = .named name args ∧ (name = "" ∨ ';' ∈ name.toList)

/-- The call of a binder is code within a method, and suits the checker. -/
theorem Instr.CallsBinder.isInner {p : Parameter} {i : Instr Constant} (hi : Instr.CallsBinder p i) :
    i.isInner = true ∧ i.suits = true := by
  obtain ⟨m, type, -, -, rfl⟩ := hi
  exact ⟨rfl, rfl⟩

/-- So is each call of the catalogue. -/
theorem Instr.IsCatalogued.isInner {i : Instr Constant} (hi : Instr.IsCatalogued i) :
    i.isInner = true ∧ i.suits = true :=
  ⟨Instr.isInner_of_isStraight hi.straight, Instr.suits_of_isStraight hi.straight⟩

/-- The code of a binding is a fragment. -/
theorem isInner_bindingCode {p : Parameter} :
    ∀ i ∈ (bindingCode p).code, i.isInner = true ∧ i.suits = true := by
  intro i hi
  rcases bindingCode_calls p i hi with hcatalogued | hbinder
  · exact hcatalogued.isInner
  · exact hbinder.isInner

/-- Code is written down also where the parameter is refused. -/
theorem bindParam_fst (a : Assembler) (method : String) (p : Parameter) :
    (bindParam a method p).1 = a.emitAll (bindingCode p).code := by
  unfold bindParam
  simp only
  split
  · rfl
  · rfl

/-- A parameter is bound if its binding has no fault. -/
theorem bindParam_eq_ok {a : Assembler} {method : String} {p : Parameter} :
    (bindParam a method p).2 = .ok () ↔ (bindingCode p).fault = none := by
  unfold bindParam
  simp only
  split
  · next hfault => simp [hfault]
  · next fault hfault => simp [hfault]

/-- The name of a class may be neither empty nor hold a semicolon. -/
theorem wellFormed_object {name : String} :
    (DataType.object name).WellFormed ↔ ¬(name = "" ∨ ';' ∈ name.toList) := by
  rw [not_or]
  exact Iff.rfl

/-- A supported binding has a readable binder, unless its class is misnamed. -/
theorem binderReadable_iff {p : Parameter} (hfault : (bindingCode p).fault = none) :
    BinderReadable p ↔ ¬Misnamed p := by
  constructor
  · rintro hreadable ⟨m, name, args, hbinding, htype, hname⟩
    exact wellFormed_object.mp (hreadable m (.object name) hbinding (by rw [htype]; rfl)) hname
  · intro hnamed m type hbinding hdata
    obtain ⟨name, args, htype⟩ := named_of_bound hbinding hfault
    rw [htype] at hdata
    cases hdata
    exact wellFormed_object.mpr fun hname => hnamed ⟨m, name, args, hbinding, htype, hname⟩

/-- **A supported binding leaves one value of the parameter's type.** Whatever fragment it is written behind, if this
one stores to no local, has an effect and finds the request context in its local, the code with the binding leaves
the same stack and, on top, a value of the type of the parameter. Only if the parameter has a binder and its class
cannot stand in a descriptor, the descriptor of the binder cannot be read. -/
theorem binding_leaves_value {a : Assembler} {method : String} {p : Parameter} {b₀ b₁ b b' : Interner}
    {code₁ code : Code} {locals st : List SlotType} (hstores : ∀ slot, .store slot ∉ a.instrs.toList)
    (hcode₁ : a.assemble b₀ = (b₁, .ok code₁))
    (hst : stackEffect code₁ b₁.pool locals Framework.hierarchy = .ok st)
    (hctx : locals[1]? = some (.ref Platform.context)) (hok : (bindParam a method p).2 = .ok ())
    (hcode : (bindParam a method p).1.assemble b = (b', .ok code)) :
    ∃ type, dataType? p.type = some type ∧
      (¬Misnamed p → stackEffect code b'.pool locals Framework.hierarchy = .ok (.of type :: st)) ∧
      (Misnamed p → ∃ text cause,
        stackEffect code b'.pool locals Framework.hierarchy = .error (.malformed text cause)) := by
  have hfault := bindParam_eq_ok.mp hok
  obtain ⟨hinner, ls, heffects⟩ := effects_of_stackEffect hcode₁ hst
  -- The fragment in front stores nothing, so the context is still in its local.
  have hlocal : ls[1]? = some (some (.ref Platform.context)) :=
    Hierarchy.locals_effects hstores heffects (by simp [hctx])
  obtain ⟨type, htype, hleaves⟩ := leaves_bindingCode (r := none) (fun _ he => he) hlocal hfault
  have hyields := hleaves st
  -- The whole is the fragment and then the code of the binding.
  have hwhole : Framework.hierarchy.effects none ⟨[], locals.map some⟩ (bindParam a method p).1.instrs.toList =
      Framework.hierarchy.effects none ⟨st, ls⟩ (bindingCode p).code := by
    rw [bindParam_fst, Assembler.toList_emitAll, Hierarchy.effects_append, heffects]
    rfl
  have hinner' : ∀ i ∈ (bindParam a method p).1.instrs.toList, i.isInner = true ∧ i.suits = true := by
    rw [bindParam_fst, Assembler.toList_emitAll]
    exact List.forall_mem_append.mpr ⟨hinner, isInner_bindingCode⟩
  obtain ⟨hsucceeds, hfails⟩ := stackEffect_assemble hcode hinner'
  refine ⟨type, htype, fun hnamed => ?_, fun hmisnamed => ?_⟩
  · exact hsucceeds _ (hwhole.trans (hyields.ok ((binderReadable_iff hfault).mpr hnamed)))
  · obtain ⟨text, cause, herror⟩ :=
      hyields.malformed fun hreadable => (binderReadable_iff hfault).mp hreadable hmisnamed
    exact ⟨text, cause, hfails _ (hwhole.trans herror)⟩

section

/-- A parameter for the body, of a type whose literal is nested. -/
def shelves : Parameter :=
  { name := "shelves", source := "", binding := .body, nullable := false
    type := .named "util.Map" [.plain Platform.string, .named Platform.list [.plain "app.Book"]] }

def heading : Assembler := Assembler.empty.emit (.string "shelves")

/-- A list of numbers is bound to one value of the type of lists. -/
theorem binding_leaves_value_shelves :
    ∃ b₁ code₁ b' code, heading.assemble .empty = (b₁, .ok code₁) ∧
      stackEffect code₁ b₁.pool [.ref "gen.H", .ref Platform.context] Framework.hierarchy =
        .ok [.ref Platform.string] ∧
      (bindParam heading "fill" shelves).1.assemble .empty = (b', .ok code) ∧
      stackEffect code b'.pool [.ref "gen.H", .ref Platform.context] Framework.hierarchy =
        .ok [.ref "util.Map", .ref Platform.string] := by
  have hassembles : (heading.assemble .empty).2.toBool = true ∧
      ((bindParam heading "fill" shelves).1.assemble .empty).2.toBool = true := by decide +kernel
  rcases hcode₁ : heading.assemble .empty with ⟨b₁, e | code₁⟩
  · simp [hcode₁, Except.toBool] at hassembles
  · rcases hcode : (bindParam heading "fill" shelves).1.assemble .empty with ⟨b', e | code⟩
    · simp [hcode, Except.toBool] at hassembles
    · have hst : stackEffect code₁ b₁.pool [.ref "gen.H", .ref Platform.context] Framework.hierarchy =
          .ok [.ref Platform.string] :=
        (stackEffect_assemble hcode₁ (by decide)).1 _ rfl
      have hstores : ∀ slot, .store slot ∉ heading.instrs.toList := by
        simp [heading, Assembler.empty, Instr.store, Instr.string, Instr.const]
      obtain ⟨type, htype, hnamed, -⟩ := binding_leaves_value hstores hcode₁ hst rfl (by rfl) hcode
      cases htype
      refine ⟨b₁, code₁, b', code, rfl, hst, rfl, hnamed ?_⟩
      rintro ⟨m, name, args, hbinding, -⟩
      cases hbinding

end

/-! ## Refused bindings -/

/-- The types that an upload can be taken as. -/
def uploadTypes : List TypeExpr :=
  [.named Platform.list [.plain Platform.fileUpload], .plain Platform.fileUpload, .plain Platform.filePath, byteArray]

/-- Whether a binding is refused only after code has been written: an upload of a type that it cannot be taken as, or
a body that is an array of void. -/
def RejectedLate (p : Parameter) : Prop :=
  p.binding = .upload ∧ p.type ∉ uploadTypes ∨
    p.binding = .body ∧ dataType? p.type = none ∧ ∃ element, p.type = .array element

/-- The code that a binding leaves when it is refused too late. -/
def leftBehind (p : Parameter) : List (Instr Constant) :=
  match p.binding with
  | .upload => [loadContext, .string p.sourceName]
  | _ => [loadContext, Framework.body.instr]

theorem mem_uploadTypes {t : TypeExpr} : t ∈ uploadTypes ↔ ∃ code, UploadRow t code := by
  constructor
  · intro h
    simp only [uploadTypes, List.mem_cons, List.not_mem_nil, or_false] at h
    rcases h with rfl | rfl | rfl | rfl
    · exact ⟨_, .files⟩
    · exact ⟨_, .file⟩
    · exact ⟨_, .path⟩
    · exact ⟨_, .bytes⟩
  · rintro ⟨code, h⟩
    cases h <;> simp [uploadTypes]

/-- An upload can be taken as nothing else. -/
theorem uploadCode?_eq_none {t : TypeExpr} : uploadCode? t = none ↔ t ∉ uploadTypes := by
  rw [mem_uploadTypes, Option.eq_none_iff_forall_ne_some]
  simp [uploadCode?_eq_some]

/-- The body can be converted to every class. -/
theorem exists_bodyRow (name : String) (args : List TypeExpr) : ∃ code, BodyRow (.named name args) code := by
  by_cases hbody : name = Platform.body
  · rw [hbody]
    exact ⟨_, .body args⟩
  · by_cases hstream : name = Platform.inputStream
    · rw [hstream]
      exact ⟨_, .stream args⟩
    · by_cases htext : TypeExpr.named name args = .plain Platform.string
      · rw [htext]
        exact ⟨_, .text⟩
      · exact ⟨_, .object hbody hstream htext⟩

/-- The body cannot be converted to void and to arrays of void. -/
theorem bodyConversion?_eq_none {t : TypeExpr} :
    bodyConversion? t = none ↔ t = .void ∨ dataType? t = none ∧ ∃ element, t = .array element := by
  cases t with
  | void => exact ⟨fun _ => .inl rfl, fun _ => rfl⟩
  | primitive kind => exact ⟨fun h => (nomatch h), by simp⟩
  | named name args =>
      obtain ⟨code, hrow⟩ := exists_bodyRow name args
      rw [bodyConversion?_eq_some.mpr hrow]
      simp
  | array element =>
      by_cases hbytes : TypeExpr.array element = byteArray
      · rw [hbytes]
        constructor
        · intro h
          cases h
        · rintro (h | ⟨h, -⟩)
          · cases h
          · cases h
      · unfold bodyConversion?
        simp [TypeExpr.isNamed, TypeExpr.className?, hbytes, TypeExpr.plain]

/-- An upload is refused late just for a type that it cannot be taken as. -/
theorem uploadBinding_late {p : Parameter} :
    (uploadBinding p).fault.isSome ∧ (uploadBinding p).code ≠ [] ↔ p.type ∉ uploadTypes := by
  rw [← uploadCode?_eq_none]
  unfold uploadBinding
  simp only
  split
  · next code hcode => simp [BindingCode.supported, hcode]
  · next hcode => simp [hcode]

/-- A body is refused late just for an array that has no descriptor. -/
theorem bodyBinding_late {p : Parameter} : (bodyBinding p).fault.isSome ∧ (bodyBinding p).code ≠ [] ↔
    dataType? p.type = none ∧ ∃ element, p.type = .array element := by
  unfold bodyBinding
  split
  · next hvoid =>
    have htype : p.type = .void := by
      cases ht : p.type <;> simp_all [TypeExpr.isVoid]
    simp [BindingCode.refused, htype]
  · next hvoid =>
    split
    · next hcontext =>
      obtain ⟨args, htype⟩ := isNamed_iff.mp hcontext
      simp [BindingCode.refused, htype]
    · have htype : p.type ≠ .void := fun h => hvoid (by rw [h]; rfl)
      simp only
      cases hcode : bodyConversion? p.type with
      | none => simpa [htype] using bodyConversion?_eq_none.mp hcode
      | some code =>
          have hnot := mt bodyConversion?_eq_none.mpr (by rw [hcode]; simp)
          simpa [BindingCode.supported, htype] using hnot

/-- Bindings of other parts of a request are refused before any code is written. -/
theorem valueBinding_early {source : String} {p : Parameter} (h : (valueBinding source p).fault.isSome) :
    (valueBinding source p).code = [] := by
  unfold valueBinding at h ⊢
  split
  · rfl
  · next c hc => simp [hc, BindingCode.supported] at h

/-- The context is refused before any code is written. -/
theorem contextBinding_early {p : Parameter} (h : (contextBinding p).fault.isSome) :
    (contextBinding p).code = [] := by
  rcases contextBinding_cases p with ⟨code, -, hcode⟩ | ⟨fault, hcode⟩
  · rw [hcode] at h
    cases h
  · rw [hcode]
    rfl

/-- A bound object is refused before any code is written. -/
theorem boundBinding_early {binder : Option MethodName} {p : Parameter}
    (h : (boundBinding binder p).fault.isSome) : (boundBinding binder p).code = [] := by
  rcases boundBinding_cases binder p with ⟨code, -, hcode⟩ | ⟨fault, hcode⟩
  · rw [hcode] at h
    cases h
  · rw [hcode]
    rfl

/-- A parameter is refused late if it is of one of these kinds. -/
theorem bindingCode_late {p : Parameter} :
    (bindingCode p).fault.isSome ∧ (bindingCode p).code ≠ [] ↔ RejectedLate p := by
  unfold bindingCode RejectedLate
  cases hbinding : p.binding with
  | upload => simpa using uploadBinding_late
  | body => simpa using bodyBinding_late
  | context => simpa using contextBinding_early
  | bound binder => simpa using boundBinding_early
  | _ => simpa using valueBinding_early

theorem bindParam_eq_error {a : Assembler} {method : String} {p : Parameter} :
    (∃ e, (bindParam a method p).2 = .error e) ↔ (bindingCode p).fault.isSome := by
  unfold bindParam
  simp only
  split
  · next hfault => simp [hfault]
  · next fault hfault => simp [hfault]

theorem emitAll_eq_self {a : Assembler} {is : List (Instr Constant)} : a.emitAll is = a ↔ is = [] := by
  constructor
  · intro h
    have hlist := congrArg (fun a : Assembler => a.instrs.toList) h
    simpa using hlist
  · rintro rfl
    rfl

/-- What is left of a binding that is refused too late. -/
theorem bindParam_of_rejectedLate {a : Assembler} {method : String} {p : Parameter} (h : RejectedLate p) :
    (bindParam a method p).1 = a.emitAll (leftBehind p) := by
  rw [bindParam_fst]
  congr 1
  rcases h with ⟨hbinding, htype⟩ | ⟨hbinding, htype⟩
  · rw [← uploadCode?_eq_none] at htype
    simp [bindingCode, leftBehind, hbinding, uploadBinding, htype]
  · obtain ⟨hnone, element, helement⟩ := htype
    have hcode : bodyConversion? p.type = none := bodyConversion?_eq_none.mpr (.inr ⟨hnone, element, helement⟩)
    simp only [bindingCode, leftBehind, hbinding, bodyBinding, hcode]
    rw [helement]
    rfl

/-- **The rejections that leave code** are those of uploads of other types and of bodies that are arrays of void: the
binding of a parameter is refused with another code than before exactly for these, and it has then written the code
that comes before the check. -/
theorem late_rejections (a : Assembler) (method : String) (p : Parameter) :
    (∃ e, (bindParam a method p).2 = .error e) ∧ (bindParam a method p).1 ≠ a ↔
      RejectedLate p ∧ (bindParam a method p).1 = a.emitAll (leftBehind p) := by
  have hlate : (∃ e, (bindParam a method p).2 = .error e) ∧ (bindParam a method p).1 ≠ a ↔ RejectedLate p := by
    rw [bindParam_eq_error, bindParam_fst, Ne, emitAll_eq_self]
    exact bindingCode_late
  rw [hlate]
  exact ⟨fun h => ⟨h, bindParam_of_rejectedLate h⟩, And.left⟩

/-- The context and the name of an upload stay behind it, if the upload is to be a number. -/
theorem upload_leaves_name :
    bindParam .empty "save"
        { name := "avatar", source := "", binding := .upload, type := .primitive .int, nullable := false } =
      (⟨#[.load 1, .string "avatar"], #[]⟩,
        .error (.unsupportedBinding "save" "avatar" .upload (.primitive .int) .notAnUpload)) := rfl

end Routecraft.Compile
