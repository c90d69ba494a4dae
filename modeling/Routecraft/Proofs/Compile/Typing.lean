import Routecraft.Proofs.Assembly.Written
import Routecraft.Proofs.Compile.Literals
import Routecraft.Proofs.Compile.Units
import Routecraft.Proofs.Format.Signatures

/-!
# Types of generated code

What the code of types and attributes does to frame types, for every hierarchy that knows the framework's classes.
It leaves one slot of a known type on the stack and the locals as they are. The only thing that can stop it is a
class of an enumeration whose name cannot stand in a descriptor.

* `Yields`: a frame type that there is exactly under a condition.
* `Hierarchy.Leaves`, `Hierarchy.LeavesAll`: code that leaves a slot, and pieces of code that leave one each.
* `leaves_typeCode`, `leaves_attributeCode`: the slots that the code of types and attributes leaves.
* `startUnit_ok`: the constructor of a generated unit is always accepted.
-/

namespace Routecraft.Bytecode

/-! ## Conditions -/

/-- A frame type that there is exactly under a condition; without it, a descriptor cannot be read. -/
structure Yields (fine : Prop) (x : Except StepError FrameType) (g : FrameType) : Prop where
  ok : fine → x = .ok g
  malformed : ¬fine → ∃ text cause, x = .error (.unit (.malformed text cause))

namespace Yields

variable {fine p q : Prop} {x : Except StepError FrameType} {g g' : FrameType}

theorem of_ok (hfine : fine) (hx : x = .ok g) : Yields fine x g := ⟨fun _ => hx, fun hnot => absurd hfine hnot⟩

/-- What a piece of code needs may be put in other words. -/
theorem congr (hx : Yields p x g) (hiff : fine ↔ p) : Yields fine x g :=
  ⟨fun hfine => hx.ok (hiff.mp hfine), fun hnot => hx.malformed fun hp => hnot (hiff.mpr hp)⟩

/-- What comes after a step is reached if the step succeeds. -/
theorem bind (hx : Yields p x g) {k : FrameType → Except StepError FrameType} (hk : Yields q (k g) g')
    (hiff : fine ↔ p ∧ q) : Yields fine (x >>= k) g' := by
  by_cases hp : p
  · rw [hx.ok hp]
    exact hk.congr (by rw [hiff, and_iff_right hp])
  · obtain ⟨text, cause, herror⟩ := hx.malformed hp
    rw [herror]
    exact ⟨fun hfine => absurd (hiff.mp hfine).1 hp, fun _ => ⟨text, cause, rfl⟩⟩

end Yields

namespace Hierarchy

variable {h : Hierarchy} {r : Option DataType} {f : FrameType} {st : List SlotType} {ls : List (Option SlotType)}
  {t u : SlotType}

/-! ## Accepted slots -/

/-- A value of a type may stand where the type is declared. -/
theorem accepts_of (h : Hierarchy) (t : DataType) : h.accepts t (.of t) = true := by
  cases t with
  | object name => exact h.isSubtype_self name
  | array element => exact h.isSubtype_self _
  | boolean | byte | char | short | int | long | float | double => rfl

/-- Any class may stand where the root is declared. -/
theorem accepts_root (h : Hierarchy) (name : String) : h.accepts (.object Platform.object) (.ref name) = true :=
  h.isSubtype_root name

/-! ## Single instructions -/

/-- What an instruction does to a frame is its effect as the verifier has it. -/
theorem effect_of_hasEffect {i : Instr Constant} {flow : Flow} {g : FrameType}
    (hi : Checker.HasEffect ⟨i.ownPool, h, r⟩ f i.alone flow g) : h.effect r f i = .ok g :=
  Checker.after_eq_ok.mpr ⟨flow, hi.step⟩

/-- Loading a local pushes its type. -/
theorem effect_load {slot : UInt8} (ht : ls[slot.toNat]? = some (some t)) :
    h.effect r ⟨st, ls⟩ (.load slot) = .ok ⟨t :: st, ls⟩ :=
  effect_of_hasEffect (.load ht)

theorem effect_load_zero : h.effect r ⟨st, some t :: ls⟩ (.load 0) = .ok ⟨t :: st, some t :: ls⟩ := effect_load rfl

theorem effect_load_one {l : Option SlotType} :
    h.effect r ⟨st, l :: some t :: ls⟩ (.load 1) = .ok ⟨t :: st, l :: some t :: ls⟩ := effect_load rfl

/-- Storing sets the type of a local. -/
theorem effect_store (slot : UInt8) :
    h.effect r ⟨t :: st, ls⟩ (.store slot) = .ok (FrameType.setLocal ⟨st, ls⟩ slot.toNat t) := rfl

theorem effect_pushInt (n : Int32) : h.effect r ⟨st, ls⟩ (.pushInt n) = .ok ⟨.int :: st, ls⟩ := rfl

theorem effect_string (s : String) : h.effect r ⟨st, ls⟩ (.string s) = .ok ⟨.ref Platform.string :: st, ls⟩ := rfl

theorem effect_classOf (t : DataType) :
    h.effect r ⟨st, ls⟩ (.classOf t) = .ok ⟨.ref Platform.classClass :: st, ls⟩ := rfl

theorem effect_dup : h.effect r ⟨t :: st, ls⟩ .dup = .ok ⟨t :: t :: st, ls⟩ := rfl

theorem effect_swap : h.effect r ⟨t :: u :: st, ls⟩ .swap = .ok ⟨u :: t :: st, ls⟩ := rfl

theorem effect_pop : h.effect r ⟨t :: st, ls⟩ .pop = .ok ⟨st, ls⟩ := rfl

theorem effect_newObject (name : String) : h.effect r ⟨st, ls⟩ (.newObject name) = .ok ⟨.raw name :: st, ls⟩ := rfl

theorem effect_checkCast (name : String) (type : DataType) :
    h.effect r ⟨.ref name :: st, ls⟩ (.checkCast type) = .ok ⟨.ref type.className :: st, ls⟩ := rfl

/-- A value of the result type is returned. -/
theorem effect_returnValue {type : DataType} (ht : h.accepts type t = true) :
    h.effect (some type) ⟨t :: st, ls⟩ .returnValue = .ok ⟨st, ls⟩ :=
  effect_of_hasEffect (.returnValue rfl ht)

theorem effect_returnVoid : h.effect none f .returnVoid = .ok f := rfl

/-- A jump takes its condition off the stack. -/
theorem effect_ifFalse (label : UInt16) :
    h.effect r ⟨.int :: st, ls⟩ (.jump .ifFalse label) = .ok ⟨st, ls⟩ := rfl

/-! ## Members -/

theorem dataTypeOf_descriptor {type : DataType} (htype : type.WellFormed) : dataTypeOf type.descriptor = .ok type :=
  dataTypeOf_eq_ok.mpr ⟨htype, rfl⟩

theorem effect_getField {owner name : String} {type : DataType} (htype : type.WellFormed)
    (ht : h.accepts (.object owner) t = true) :
    h.effect r ⟨t :: st, ls⟩ (.getField owner name type) = .ok ⟨.of type :: st, ls⟩ :=
  effect_of_hasEffect (.getField rfl (dataTypeOf_descriptor htype) ht)

/-- A text is no descriptor if its reading fails. -/
theorem naming_eq_error {α : Type} {text : String} {x : Except DescriptorFault α} {e : UnitError}
    (hx : naming text x = .error e) : ∃ cause, e = .malformed text cause := by
  cases x with
  | ok a => cases hx
  | error fault =>
      cases hx
      exact ⟨_, rfl⟩

/-- A static field is read if its type can be; the descriptor is not that of another type. -/
theorem effect_getStatic (owner name : String) (type : DataType) :
    Yields type.WellFormed (h.effect r ⟨st, ls⟩ (.getStatic owner name type)) ⟨.of type :: st, ls⟩ where
  ok htype := effect_of_hasEffect (.getStatic rfl (dataTypeOf_descriptor htype))
  malformed hnot := by
    rcases htype : dataTypeOf type.descriptor with e | other
    · obtain ⟨cause, rfl⟩ := naming_eq_error htype
      refine ⟨type.descriptor, cause, Checker.after_eq_error.mpr ?_⟩
      show (ofUnit (dataTypeOf type.descriptor) >>= _) = _
      rw [htype]
      rfl
    · obtain ⟨hother, hdescriptor⟩ := dataTypeOf_eq_ok.mp htype
      rw [DataType.descriptor, DataType.descriptor, String.ofList_inj] at hdescriptor
      exact absurd (DataType.descriptorChars_inj hdescriptor ▸ hother) hnot

theorem effect_putField {owner name : String} {type : DataType} (htype : type.WellFormed)
    (ht : h.accepts type t = true) (hu : h.accepts (.object owner) u = true) :
    h.effect r ⟨t :: u :: st, ls⟩ (.putField owner name type) = .ok ⟨st, ls⟩ :=
  effect_of_hasEffect (.putField rfl (dataTypeOf_descriptor htype) ht hu)

theorem effect_newArray {element : DataType} (helement : dataTypeOfClass element.className = .ok element) :
    h.effect r ⟨.int :: st, ls⟩ (.newArray element) =
      .ok ⟨.ref (DataType.array element).className :: st, ls⟩ :=
  effect_of_hasEffect (.newArray rfl helement rfl)

/-- An item that may stand where the items are declared is stored. -/
theorem effect_arrayStore {element : DataType} (helement : element.WellFormed) (href : t.isReference = true)
    (ht : h.accepts element t = true) :
    h.effect r ⟨t :: .int :: .ref (DataType.array element).className :: st, ls⟩ .arrayStore = .ok ⟨st, ls⟩ := by
  have hhead : (DataType.array element).className.toList.head? = some '[' := by
    simp [DataType.className, DataType.descriptor, DataType.descriptorChars]
  have harray : (DataType.array element).WellFormed := helement
  exact effect_of_hasEffect (.arrayStore href rfl hhead (dataTypeOf_descriptor harray) ht)

/-! ## Calls -/

/-- A call on an object takes the arguments and the object. -/
theorem effect_ofMethod {owner name : String} {s s' : Signature} {args : List SlotType}
    (hs : signatureOf s.descriptor = .ok s')
    (hargs : List.Forall₂ (fun p t => h.accepts p t = true) s'.params args)
    (ht : h.accepts (.object owner) t = true) :
    h.effect r ⟨args.reverse ++ t :: st, ls⟩ (.invokeVirtual owner name s) =
      .ok (Checker.pushResult ⟨st, ls⟩ s').2 := by
  have hm : (Instr.invokeVirtual owner name s).ownPool.methodAt 0 false = .ok ⟨owner, name, s.descriptor⟩ := rfl
  exact effect_of_hasEffect (.invokeVirtual hm hs hargs ht)

/-- A static call takes arguments that are accepted, and leaves its result. -/
theorem effect_ofStatic {owner name : String} {s s' : Signature} {args : List SlotType}
    (hs : signatureOf s.descriptor = .ok s')
    (hargs : List.Forall₂ (fun p t => h.accepts p t = true) s'.params args) :
    h.effect r ⟨args.reverse ++ st, ls⟩ (.invokeStatic owner name s) = .ok (Checker.pushResult ⟨st, ls⟩ s').2 := by
  have hm : (Instr.invokeStatic owner name s).ownPool.methodAt 0 false = .ok ⟨owner, name, s.descriptor⟩ := rfl
  exact effect_of_hasEffect (.invokeStatic hm hs hargs)

/-- A call on an object, as far as its signature can be read. -/
theorem effect_invokeVirtual (owner name : String) (s : Signature) :
    h.effect r f (.invokeVirtual owner name s) = ofUnit (signatureOf s.descriptor) >>= fun s =>
      f.popArgs h s.params >>= fun f => f.popAccepted h (.object owner) >>= fun f =>
        .ok (Checker.pushResult f s).2 := by
  show (ofUnit (signatureOf s.descriptor) >>= fun s => _).map _ = _
  rcases ofUnit (signatureOf s.descriptor) with e | s
  · rfl
  show (f.popArgs h s.params >>= fun f => _).map _ = (f.popArgs h s.params >>= fun f => _)
  rcases f.popArgs h s.params with e | f
  · rfl
  show (f.popAccepted h (.object owner) >>= fun f => _).map _ = (f.popAccepted h (.object owner) >>= fun f => _)
  rcases f.popAccepted h (.object owner) with e | f <;> rfl

/-- A static call takes its arguments and leaves its result, or fails where the arguments do. -/
theorem effect_invokeStatic (owner name : String) (s : Signature) :
    h.effect r f (.invokeStatic owner name s) = ofUnit (signatureOf s.descriptor) >>= fun s =>
      f.popArgs h s.params >>= fun f => .ok (Checker.pushResult f s).2 := by
  show (ofUnit (signatureOf s.descriptor) >>= fun s => _).map _ = _
  rcases ofUnit (signatureOf s.descriptor) with e | s
  · rfl
  show (f.popArgs h s.params >>= fun f => _).map _ = (f.popArgs h s.params >>= fun f => _)
  rcases f.popArgs h s.params with e | f <;> rfl

/-- A constructor that is called on an object whose constructor has not run initializes it. -/
theorem effect_construct (owner : String) {s : Signature} {args : List SlotType}
    (hs : signatureOf s.descriptor = .ok s) (hresult : s.result = none)
    (hargs : List.Forall₂ (fun p t => h.accepts p t = true) s.params args) :
    h.effect r ⟨args.reverse ++ .raw owner :: st, ls⟩ (.invokeSpecial owner "<init>" s) =
      .ok (FrameType.constructed ⟨st, ls⟩ owner) := by
  have hm : (Instr.invokeSpecial owner "<init>" s).ownPool.methodAt 0 false =
      .ok ⟨owner, "<init>", s.descriptor⟩ := rfl
  have hconstruct : h.effect r ⟨args.reverse ++ .raw owner :: st, ls⟩ (.invokeSpecial owner "<init>" s) =
      .ok (Checker.pushResult (FrameType.constructed ⟨st, ls⟩ owner) s).2 :=
    effect_of_hasEffect (Checker.HasEffect.invokeSpecial (m := ⟨owner, "<init>", s.descriptor⟩) hm hs rfl hargs)
  rw [hconstruct, Checker.pushResult, hresult]

end Hierarchy

/-! ## Code that leaves slots -/

namespace Hierarchy

/-- Code that leaves a slot on the stack, under a condition. -/
def Leaves (h : Hierarchy) (r : Option DataType) (ls : List (Option SlotType)) (fine : Prop)
    (code : List (Instr Constant)) (t : SlotType) : Prop :=
  ∀ st, Yields fine (h.effects r ⟨st, ls⟩ code) ⟨t :: st, ls⟩

/-- Pieces of code that leave an object below a class each, under a condition for all of them. -/
inductive LeavesAll (h : Hierarchy) (r : Option DataType) (ls : List (Option SlotType)) (sup : String) :
    Prop → List (List (Instr Constant)) → Prop
  | nil {fine : Prop} : fine → LeavesAll h r ls sup fine []
  | cons {fine p q : Prop} {name : String} {code : List (Instr Constant)} {codes : List (List (Instr Constant))} :
      (fine ↔ p ∧ q) → h.isSubtype name sup = true → h.Leaves r ls p code (.ref name) →
        LeavesAll h r ls sup q codes → LeavesAll h r ls sup fine (code :: codes)

variable {h : Hierarchy} {r : Option DataType} {ls : List (Option SlotType)} {fine : Prop}
  {codes : List (List (Instr Constant))} {sup : String}

/-- The code that fills an array leaves it on the stack. -/
theorem LeavesAll.storeFrom (hcodes : h.LeavesAll r ls sup fine codes) (hsup : (DataType.object sup).WellFormed)
    (i : Nat) (st : List SlotType) :
    Yields fine
      (h.effects r ⟨.ref (DataType.array (.object sup)).className :: st, ls⟩ (Compile.storeFrom i codes))
      ⟨.ref (DataType.array (.object sup)).className :: st, ls⟩ := by
  induction hcodes generalizing i with
  | nil hfine => exact .of_ok hfine rfl
  | @cons _ _ _ name _ _ hiff hname hcode _ ih =>
      have haccepts : h.accepts (.object sup) (.ref name) = true := hname
      rw [Compile.storeFrom]
      simp only [List.cons_append, effects_cons, effects_append, effect_dup, effect_pushInt, ok_bind]
      refine (hcode _).bind ?_ hiff
      rw [effect_arrayStore hsup rfl haccepts, ok_bind]
      exact ih (i + 1)

/-- The code of an array leaves the array, if the code of its items leaves them. -/
theorem LeavesAll.arrayCode (hcodes : h.LeavesAll r ls sup fine codes) (hsup : (DataType.object sup).WellFormed)
    (hclass : dataTypeOfClass sup = .ok (.object sup)) :
    h.Leaves r ls fine (Compile.arrayCode (.object sup) codes) (.ref (DataType.array (.object sup)).className) := by
  intro st
  have harray : h.effect r ⟨.int :: st, ls⟩ (.newArray (.object sup)) = _ := effect_newArray hclass
  rw [Compile.arrayCode]
  simp only [effects_cons, effect_pushInt, ok_bind, harray]
  exact hcodes.storeFrom hsup 0 st

end Hierarchy

end Routecraft.Bytecode

namespace Routecraft.Compile

open Bytecode Hierarchy

variable {h : Hierarchy} {r : Option DataType} {ls : List (Option SlotType)} {st : List SlotType}

/-! ## Calls of the catalogue -/

/-- A call on an object takes the arguments and the object, and leaves the result. -/
theorem effect_onObject (args : List SlotType) {c : Call} {result : DataType}
    (hc : Framework.OnObject c args.length) (hresult : c.signature.result = some result)
    (hargs : List.Forall₂ (fun p t => h.accepts p t = true) c.signature.params args) :
    h.effect r ⟨args.reverse ++ .ref c.owner :: st, ls⟩ c.instr = .ok ⟨.of result :: st, ls⟩ := by
  have hcall : h.effect r ⟨args.reverse ++ .ref c.owner :: st, ls⟩
      (.invokeVirtual c.owner c.name c.signature) = .ok ⟨.of result :: st, ls⟩ := by
    have howner : h.accepts (.object c.owner) (.ref c.owner) = true := h.accepts_of _
    rw [effect_ofMethod (Framework.signatureOf_of_mem hc.mem) hargs howner, Checker.pushResult, hresult]
    rfl
  unfold Call.instr
  cases hdispatch : c.dispatch
  case static => exact absurd hdispatch hc.dispatch
  all_goals exact hcall

/-- A static call takes the arguments and leaves the result. -/
theorem effect_onClass (args : List SlotType) {c : Call} {result : DataType}
    (hc : Framework.OnClass c args.length) (hresult : c.signature.result = some result)
    (hargs : List.Forall₂ (fun p t => h.accepts p t = true) c.signature.params args) :
    h.effect r ⟨args.reverse ++ st, ls⟩ c.instr = .ok ⟨.of result :: st, ls⟩ := by
  unfold Call.instr
  rw [hc.dispatch]
  show h.effect r _ (.invokeStatic c.owner c.name c.signature) = _
  rw [effect_ofStatic (Framework.signatureOf_of_mem hc.mem) hargs, Checker.pushResult, hresult]
  rfl

theorem effect_onObject₀ {c : Call} {result : DataType} (hc : Framework.OnObject c 0)
    (hresult : c.signature.result = some result) :
    h.effect r ⟨.ref c.owner :: st, ls⟩ c.instr = .ok ⟨.of result :: st, ls⟩ := by
  refine effect_onObject [] hc hresult ?_
  rw [List.eq_nil_of_length_eq_zero hc.params]
  exact .nil

theorem effect_onObject₁ {c : Call} {t : SlotType} {param result : DataType} (hc : Framework.OnObject c 1)
    (hsignature : c.signature = .returning [param] result) (ht : h.accepts param t = true) :
    h.effect r ⟨t :: .ref c.owner :: st, ls⟩ c.instr = .ok ⟨.of result :: st, ls⟩ := by
  refine effect_onObject [t] hc (by rw [hsignature]; rfl) ?_
  rw [hsignature]
  exact .cons ht .nil

theorem effect_onClass₁ {c : Call} {t : SlotType} {param result : DataType} (hc : Framework.OnClass c 1)
    (hsignature : c.signature = .returning [param] result) (ht : h.accepts param t = true) :
    h.effect r ⟨t :: st, ls⟩ c.instr = .ok ⟨.of result :: st, ls⟩ := by
  refine effect_onClass [t] hc (by rw [hsignature]; rfl) ?_
  rw [hsignature]
  exact .cons ht .nil

/-! ## Types -/

/-- The classes of the values that stand for types. -/
def typeClasses : List String := [Platform.classClass, Platform.reified]

/-- The classes of type values are types. -/
theorem isSubtype_type (hedges : ∀ e ∈ Framework.hierarchy.edges, e ∈ h.edges) {name : String}
    (hname : name ∈ typeClasses) : h.isSubtype name Platform.type = true := by
  have hedge : (name, Platform.type) ∈ Framework.hierarchy.edges := by
    rcases List.mem_pair.mp hname with rfl | rfl <;> decide
  exact Hierarchy.isSubtype_iff.mpr (.inr (.inr (.single (hedges _ hedge))))

/-- The code of a class with arguments leaves a reified type. -/
theorem leaves_reified (hedges : ∀ e ∈ Framework.hierarchy.edges, e ∈ h.edges) {codes : List (List (Instr Constant))}
    (hcodes : h.LeavesAll r ls Platform.type True codes) (name : String) :
    h.Leaves r ls True (.classOf (.object name) :: arrayCode (.object Platform.type) codes
      ++ [Framework.reifiedParameterized.instr]) (.ref Platform.reified) := by
  intro st
  have hargs : List.Forall₂ (fun p t => h.accepts p t = true) Framework.reifiedParameterized.signature.params
      [.ref Platform.classClass, .of (.array (.object Platform.type))] :=
    .cons (isSubtype_type hedges (by decide)) (.cons (h.accepts_of _) .nil)
  rw [List.cons_append, Hierarchy.effects_cons, Hierarchy.effect_classOf, ok_bind, Hierarchy.effects_append]
  refine (hcodes.arrayCode (by decide) (by decide) _).bind ?_ and_self_iff.symm
  rw [Hierarchy.effects_cons]
  exact .of_ok trivial (congrArg (· >>= _) (effect_onClass _ Machine.Program.onClass_reifiedParameterized rfl hargs))

/-- The class of a type is left on the stack. -/
theorem leaves_classOf (t : DataType) : h.Leaves r ls True [.classOf t] (.ref Platform.classClass) :=
  fun _ => .of_ok trivial rfl

mutual

/-- **The code of a type** leaves a class or a reified type. -/
theorem leaves_typeCode (hedges : ∀ e ∈ Framework.hierarchy.edges, e ∈ h.edges) (t : TypeExpr) :
    ∃ name ∈ typeClasses, h.Leaves r ls True (typeCode t) (.ref name) := by
  match t with
  | .void | .primitive _ | .array _ | .named _ [] => exact ⟨_, by decide, leaves_classOf _⟩
  | .named name (arg :: args) =>
      rw [typeCode]
      exact ⟨Platform.reified, by decide, leaves_reified hedges (leaves_typeCodes hedges (arg :: args)) name⟩

/-- The code of each type leaves a type. -/
theorem leaves_typeCodes (hedges : ∀ e ∈ Framework.hierarchy.edges, e ∈ h.edges) (ts : List TypeExpr) :
    h.LeavesAll r ls Platform.type True (typeCodes ts) := by
  match ts with
  | [] => exact .nil trivial
  | t :: rest =>
      obtain ⟨name, hname, ht⟩ := leaves_typeCode hedges t
      exact .cons and_self_iff.symm (isSubtype_type hedges hname) ht (leaves_typeCodes hedges rest)

end

/-! ## Attributes -/

mutual

/-- The classes of the constants of enumerations in an attribute. -/
def enumTypes : Attribute → List String
  | .enum type _ => [type]
  | .list items => itemTypes items
  | .map entries => entryTypes entries
  | _ => []

/-- The classes of the constants of enumerations in each of several attributes. -/
def itemTypes : List Attribute → List String
  | [] => []
  | a :: rest => enumTypes a ++ itemTypes rest

/-- The classes of the constants of enumerations in the entries of a map. -/
def entryTypes : List (String × Attribute) → List String
  | [] => []
  | (_, a) :: rest => enumTypes a ++ entryTypes rest

end

/-- Whether all of some class names can stand in a descriptor. -/
def Readable (names : List String) : Prop := ∀ name ∈ names, (DataType.object name).WellFormed

theorem readable_append {names names' : List String} :
    Readable (names ++ names') ↔ Readable names ∧ Readable names' := List.forall_mem_append

theorem readable_nil : Readable [] := fun _ h => absurd h List.not_mem_nil

/-- A value put into its box is left as an object of the class of the box. -/
theorem leaves_boxed (kind : Primitive) {i : Instr Constant}
    (hi : ∀ st, h.effect r ⟨st, ls⟩ i = .ok ⟨.of (Framework.primitive kind) :: st, ls⟩) :
    h.Leaves r ls (Readable []) (boxed kind i) (.ref kind.boxClass) := by
  intro st
  have hbox : h.effect r ⟨.of (Framework.primitive kind) :: st, ls⟩ (Framework.box kind).instr =
      .ok ⟨.of (.object kind.boxClass) :: st, ls⟩ :=
    effect_onClass₁ (Machine.Program.onClass_box kind) rfl (h.accepts_of _)
  refine .of_ok readable_nil ?_
  rw [boxed, Hierarchy.effects_cons, hi, ok_bind, Hierarchy.effects_cons, hbox]
  rfl

/-- The code of a collection leaves it, made of the array of its parts. -/
theorem leaves_collection {fine : Prop} {codes : List (List (Instr Constant))} {c : Call} {name : String}
    (hcodes : h.LeavesAll r ls Platform.object fine codes) (hc : Framework.OnClass c 1)
    (hsignature : c.signature = .returning [.array (.object Platform.object)] (.object name)) :
    h.Leaves r ls fine (arrayCode (.object Platform.object) codes ++ [c.instr]) (.ref name) := by
  intro st
  rw [Hierarchy.effects_append]
  refine (hcodes.arrayCode (by decide) (by decide) st).bind ?_ (and_true fine).symm.to_iff
  rw [Hierarchy.effects_cons]
  exact .of_ok trivial (congrArg (· >>= _) (effect_onClass₁ hc hsignature (h.accepts_of _)))

mutual

/-- **The code of an attribute** leaves a reference, if the classes of its enumerations can be read. -/
theorem leaves_attributeCode (a : Attribute) :
    ∃ name, h.Leaves r ls (Readable (enumTypes a)) (attributeCode a) (.ref name) := by
  match a with
  | .boolean _ => exact ⟨_, leaves_boxed .boolean fun _ => rfl⟩
  | .byte _ => exact ⟨_, leaves_boxed .byte fun _ => rfl⟩
  | .char _ => exact ⟨_, leaves_boxed .char fun _ => rfl⟩
  | .short _ => exact ⟨_, leaves_boxed .short fun _ => rfl⟩
  | .int _ => exact ⟨_, leaves_boxed .int fun _ => rfl⟩
  | .long _ => exact ⟨_, leaves_boxed .long fun _ => rfl⟩
  | .float _ => exact ⟨_, leaves_boxed .float fun _ => rfl⟩
  | .double _ => exact ⟨_, leaves_boxed .double fun _ => rfl⟩
  | .string s => exact ⟨Platform.string, fun _ => .of_ok readable_nil rfl⟩
  | .classRef name => exact ⟨Platform.classClass, fun _ => .of_ok readable_nil rfl⟩
  | .enum type constant =>
      refine ⟨type, fun st => ?_⟩
      rw [attributeCode, Hierarchy.effects_cons]
      refine (Hierarchy.effect_getStatic type constant (.object type)).bind (.of_ok trivial rfl) ?_
      rw [enumTypes, Readable, List.forall_mem_singleton, and_true]
  | .list items =>
      rw [attributeCode]
      exact ⟨_, leaves_collection (leaves_attributeCodes items) Machine.Program.onClass_listOf rfl⟩
  | .map entries =>
      rw [Machine.attributeCode_map]
      exact ⟨_, leaves_collection (leaves_entryCodes entries) Machine.Program.onClass_mapOfEntries rfl⟩

/-- The code of each attribute leaves an object. -/
theorem leaves_attributeCodes (as : List Attribute) :
    h.LeavesAll r ls Platform.object (Readable (itemTypes as)) (attributeCodes as) := by
  match as with
  | [] => exact .nil readable_nil
  | a :: rest =>
      obtain ⟨name, ha⟩ := leaves_attributeCode a
      exact .cons readable_append (h.isSubtype_root name) ha (leaves_attributeCodes rest)

theorem leaves_entryCodes (entries : List (String × Attribute)) :
    h.LeavesAll r ls Platform.object (Readable (entryTypes entries)) (Machine.inTurnCodes (entryCodes entries)) := by
  match entries with
  | [] => exact .nil readable_nil
  | (key, a) :: rest =>
      obtain ⟨name, ha⟩ := leaves_attributeCode a
      have hkey : h.Leaves r ls True [.string key] (.ref Platform.string) := fun _ => .of_ok trivial rfl
      refine .cons (true_and _).symm.to_iff (h.isSubtype_root _) hkey ?_
      exact .cons readable_append (h.isSubtype_root name) ha (leaves_entryCodes rest)

end

/-! ## Constructors -/

/-- A draft with a constructor, and with the provider's field as its only constant. -/
structure Started (unit : String) (h : Hierarchy) (interface : String) (d : Draft) : Prop where
  name : d.name = unit
  hierarchy : d.hierarchy = classesOf h unit interface
  room : d.constants.pool.size ≤ 1

/-- The code of the constructor passes the verifier. -/
theorem effects_constructor (h : Hierarchy) (unit : String) :
    h.effects none (.entry unit [.object Platform.provider])
      ([.load 0, .load 1, .putField unit Framework.providerField (.object Platform.provider)] ++ [.returnVoid]) =
      .ok (.entry unit [.object Platform.provider]) := by
  have hput {st : List SlotType} {ls : List (Option SlotType)} :
      h.effect none ⟨.ref Platform.provider :: .ref unit :: st, ls⟩
        (.putField unit Framework.providerField (.object Platform.provider)) = .ok ⟨st, ls⟩ :=
    effect_putField (by decide) (h.accepts_of _) (h.accepts_of (.object unit))
  simp only [FrameType.entry, List.map_cons, List.cons_append, List.nil_append, effects_cons, effects_nil,
    effect_load_zero, effect_load_one, ok_bind]
  rw [show SlotType.of (.object Platform.provider) = .ref Platform.provider from rfl, hput, ok_bind,
    effect_returnVoid, ok_bind]

/-- **The constructor of a generated unit is accepted.** -/
theorem startUnit_ok (unit : String) (role : Role) (h : Hierarchy) (interface : String) :
    ∃ d, startUnit unit role h interface = .ok d ∧ Started unit h interface d := by
  let d₀ : Draft := (((Draft.new unit role).withHierarchy h).implement interface).addField Framework.providerField
    (.object Platform.provider)
  have hinstrs : (constructorCode unit).instrs.toList =
      [.load 0, .load 1, .putField unit Framework.providerField (.object Platform.provider)] ++ [.returnVoid] := by
    simp [constructorCode, Assembler.empty]
  have hsize : (constructorCode unit).size = 4 := by
    rw [Assembler.size, ← Array.length_toList, hinstrs]
    rfl
  have hcount : Assembler.constantCount (constructorCode unit).instrs.toList = 1 := by
    rw [hinstrs]
    rfl
  have hroom : d₀.constants.pool.size = 0 := rfl
  have hverdict := Draft.addMethod_of_straight (d := d₀) (s := Framework.constructorSignature)
    Framework.constructorName hinstrs (by simp [Instr.isStraight, Instr.load, Instr.putField, ConstOp.takes])
    ⟨rfl, rfl⟩ (by omega) (by rw [hcount, hroom]; decide) (by decide)
  obtain ⟨d, hd, hpool⟩ := hverdict.1 _ (by
    rw [hinstrs]
    exact effects_constructor d₀.hierarchy unit)
  obtain ⟨-, init, hparts, -⟩ := Draft.addMethod_eq_ok hd
  refine ⟨d, ?_, by rw [hparts]; rfl, by rw [hparts]; rfl, by omega⟩
  unfold startUnit addMethod
  simp only
  rw [hd]

end Routecraft.Compile
