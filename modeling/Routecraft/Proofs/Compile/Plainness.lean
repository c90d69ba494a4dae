import Routecraft.Proofs.Compile.BindingTable
import Routecraft.Proofs.Compile.Calls
import Routecraft.Proofs.Execution.Straight

/-!
# Plain code

The code of types, attributes and bindings has no jumps, makes no objects of units, and calls only methods of the
catalogue and the binders of parameters.

* `Instr.IsCatalogued`, `Catalogued`: instructions that call only methods of the catalogue, and code of only such.
* `Instr.IsPlain`, `Plain`: instructions that call no others on objects.
* `catalogued_typeCode`, `catalogued_attributeCode`, `bindingCode_calls`: what the generated code calls.
* `Program.tame_of_plain`: what plain code calls on objects.
-/

namespace Routecraft.Compile

open Bytecode

/-- Whether an instruction makes an object of a unit. -/
def Instr.makesObject : Instr Constant → Bool
  | .onConst .newObject _ => true
  | _ => false

def Instr.namesMethod : Instr Constant → Bool
  | .onConst _ (.method _) | .onConst _ (.interfaceMethod _) => true
  | _ => false

/-- An instruction behind which control goes on. It makes no object, and if it names a method, it is a call of the
catalogue. -/
structure Instr.IsCatalogued (i : Instr Constant) : Prop where
  straight : i.isStraight = true
  makes : Instr.makesObject i = false
  calls : Instr.namesMethod i = true → ∃ c ∈ Framework.catalogue, i = c.instr

/-- Code of catalogued instructions. -/
def Catalogued (code : List (Instr Constant)) : Prop := ∀ i ∈ code, Instr.IsCatalogued i

def Instr.CallsBinder (p : Parameter) (i : Instr Constant) : Prop :=
  ∃ m type, p.binding = .bound (some m) ∧ dataType? p.type = some type ∧
    i = .invokeStatic m.owner m.name (.returning [.object Platform.context] type)

/-- An instruction behind which control goes on. It makes no object, and what it calls on one is in the
catalogue. -/
structure Instr.IsPlain (i : Instr Constant) : Prop where
  straight : i.isStraight = true
  makes : Instr.makesObject i = false
  calls : ∀ m, i.callee? = some m → ∃ c ∈ Framework.catalogue, m = ⟨c.owner, c.name, c.signature.descriptor⟩

/-- Code of plain instructions. -/
def Plain (code : List (Instr Constant)) : Prop := ∀ i ∈ code, Instr.IsPlain i

/-- What is in the catalogue is plain. -/
theorem Instr.IsCatalogued.isPlain {i : Instr Constant} (hi : Instr.IsCatalogued i) : Instr.IsPlain i where
  straight := hi.straight
  makes := hi.makes
  calls m hm := by
    have hnames : Instr.namesMethod i = true := by
      unfold Instr.callee? at hm
      split at hm <;> first | rfl | cases hm
    obtain ⟨c, hc, rfl⟩ := hi.calls hnames
    refine ⟨c, hc, ?_⟩
    unfold Call.instr at hm
    split at hm <;> cases hm <;> rfl

/-- The call of a binder is no call on an object. -/
theorem Instr.CallsBinder.isPlain {p : Parameter} {i : Instr Constant} (hi : Instr.CallsBinder p i) :
    Instr.IsPlain i := by
  obtain ⟨m, type, -, -, rfl⟩ := hi
  exact ⟨rfl, rfl, nofun⟩

theorem catalogued_nil : Catalogued [] := by
  intro i hi
  simp at hi

theorem catalogued_cons {i : Instr Constant} {code : List (Instr Constant)} (hi : Instr.IsCatalogued i)
    (hcode : Catalogued code) : Catalogued (i :: code) := by
  intro j hj
  rcases List.mem_cons.mp hj with rfl | hj
  · exact hi
  · exact hcode j hj

/-- Code in two catalogued pieces is catalogued. -/
theorem catalogued_append {code code' : List (Instr Constant)} (h : Catalogued code) (h' : Catalogued code') :
    Catalogued (code ++ code') := by
  intro i hi
  rcases List.mem_append.mp hi with hi | hi
  · exact h i hi
  · exact h' i hi

theorem catalogued_singleton {i : Instr Constant} (hi : Instr.IsCatalogued i) : Catalogued [i] :=
  catalogued_cons hi catalogued_nil

/-! ## Single instructions -/

/-- An instruction that names no method and makes no object. -/
theorem isCatalogued_of_simple {i : Instr Constant} (hstraight : i.isStraight = true)
    (hmakes : Instr.makesObject i = false) (hnames : Instr.namesMethod i = false) : Instr.IsCatalogued i := by
  refine ⟨hstraight, hmakes, ?_⟩
  intro h
  rw [hnames] at h
  cases h

theorem isCatalogued_call {c : Call} (hc : c ∈ Framework.catalogue) : Instr.IsCatalogued c.instr := by
  refine ⟨?_, ?_, fun _ => ⟨c, hc, rfl⟩⟩ <;> (unfold Call.instr; cases c.dispatch <;> rfl)

theorem isCatalogued_load (slot : UInt8) : Instr.IsCatalogued (.load slot) := isCatalogued_of_simple rfl rfl rfl

theorem isCatalogued_string (s : String) : Instr.IsCatalogued (.string s) := isCatalogued_of_simple rfl rfl rfl

theorem isCatalogued_classOf (t : DataType) : Instr.IsCatalogued (.classOf t) := isCatalogued_of_simple rfl rfl rfl

theorem isCatalogued_pushInt (n : Int32) : Instr.IsCatalogued (.pushInt n) := isCatalogued_of_simple rfl rfl rfl

theorem isCatalogued_checkCast (t : DataType) : Instr.IsCatalogued (.checkCast t) := isCatalogued_of_simple rfl rfl rfl

/-! ## Types and attributes -/

/-- Storing items calls what their code does, and nothing else. -/
theorem catalogued_storeFrom {codes : List (List (Instr Constant))} (h : ∀ code ∈ codes, Catalogued code) (i : Nat) :
    Catalogued (storeFrom i codes) := by
  induction codes generalizing i with
  | nil => exact catalogued_nil
  | cons code codes ih =>
      obtain ⟨hcode, hcodes⟩ := List.forall_mem_cons.mp h
      apply catalogued_cons (isCatalogued_of_simple rfl rfl rfl)
      apply catalogued_cons (isCatalogued_pushInt _)
      apply catalogued_append hcode
      exact catalogued_cons (isCatalogued_of_simple rfl rfl rfl) (ih hcodes (i + 1))

theorem catalogued_arrayCode {codes : List (List (Instr Constant))} (h : ∀ code ∈ codes, Catalogued code)
    (element : DataType) : Catalogued (arrayCode element codes) := by
  apply catalogued_cons (isCatalogued_pushInt _)
  exact catalogued_cons (isCatalogued_of_simple rfl rfl rfl) (catalogued_storeFrom h 0)

/-- Making a reified type calls what the code of its arguments does, and the framework. -/
theorem catalogued_reified {codes : List (List (Instr Constant))} (h : ∀ code ∈ codes, Catalogued code)
    (name : String) : Catalogued (.classOf (.object name) :: arrayCode (.object Platform.type) codes
      ++ [Framework.reifiedParameterized.instr]) := by
  apply catalogued_append
  · exact catalogued_cons (isCatalogued_classOf _) (catalogued_arrayCode h _)
  · exact catalogued_singleton (isCatalogued_call (by decide))

mutual

/-- The code of every type is catalogued. -/
theorem catalogued_typeCode (t : TypeExpr) : Catalogued (typeCode t) := by
  match t with
  | .void | .primitive _ | .array _ | .named _ [] => exact catalogued_singleton (isCatalogued_classOf _)
  | .named name (arg :: args) =>
      rw [typeCode]
      exact catalogued_reified (catalogued_typeCodes (arg :: args)) name

theorem catalogued_typeCodes (ts : List TypeExpr) : ∀ code ∈ typeCodes ts, Catalogued code := by
  match ts with
  | [] => simp [typeCodes]
  | t :: rest => exact List.forall_mem_cons.mpr ⟨catalogued_typeCode t, catalogued_typeCodes rest⟩

end

/-- A value put into its box is catalogued if its instruction is. -/
theorem catalogued_boxed (kind : Primitive) {i : Instr Constant} (hi : Instr.IsCatalogued i) :
    Catalogued (boxed kind i) :=
  catalogued_cons hi (catalogued_singleton (isCatalogued_call (Framework.box_mem kind)))

theorem catalogued_storeEntriesFrom {entries : List (String × List (Instr Constant))}
    (h : ∀ e ∈ entries, Catalogued e.2) (i : Nat) : Catalogued (storeEntriesFrom i entries) := by
  induction entries generalizing i with
  | nil => exact catalogued_nil
  | cons e entries ih =>
      obtain ⟨he, hentries⟩ := List.forall_mem_cons.mp h
      apply catalogued_cons (isCatalogued_of_simple rfl rfl rfl)
      apply catalogued_cons (isCatalogued_pushInt _)
      apply catalogued_cons (isCatalogued_string _)
      apply catalogued_cons (isCatalogued_of_simple rfl rfl rfl)
      apply catalogued_cons (isCatalogued_of_simple rfl rfl rfl)
      apply catalogued_cons (isCatalogued_pushInt _)
      apply catalogued_append he
      exact catalogued_cons (isCatalogued_of_simple rfl rfl rfl) (ih hentries (i + 2))

mutual

/-- The code of every attribute is catalogued. -/
theorem catalogued_attributeCode (a : Attribute) : Catalogued (attributeCode a) := by
  match a with
  | .boolean _ | .byte _ | .char _ | .short _ | .int _ => exact catalogued_boxed _ (isCatalogued_pushInt _)
  | .long _ | .float _ | .double _ => exact catalogued_boxed _ (isCatalogued_of_simple rfl rfl rfl)
  | .string s => exact catalogued_singleton (isCatalogued_string s)
  | .classRef name => exact catalogued_singleton (isCatalogued_classOf _)
  | .enum type constant => exact catalogued_singleton (isCatalogued_of_simple rfl rfl rfl)
  | .list items =>
      rw [attributeCode]
      apply catalogued_append (catalogued_arrayCode (catalogued_attributeCodes items) _)
      exact catalogued_singleton (isCatalogued_call (by decide))
  | .map entries =>
      rw [attributeCode]
      apply catalogued_append
      · apply catalogued_cons (isCatalogued_pushInt _)
        apply catalogued_cons (isCatalogued_of_simple rfl rfl rfl)
        exact catalogued_storeEntriesFrom (catalogued_entryCodes entries) 0
      · exact catalogued_singleton (isCatalogued_call (by decide))

theorem catalogued_attributeCodes (as : List Attribute) : ∀ code ∈ attributeCodes as, Catalogued code := by
  match as with
  | [] => simp [attributeCodes]
  | a :: rest => exact List.forall_mem_cons.mpr ⟨catalogued_attributeCode a, catalogued_attributeCodes rest⟩

theorem catalogued_entryCodes (entries : List (String × Attribute)) : ∀ e ∈ entryCodes entries, Catalogued e.2 := by
  match entries with
  | [] => simp [entryCodes]
  | (key, a) :: rest => exact List.forall_mem_cons.mpr ⟨catalogued_attributeCode a, catalogued_entryCodes rest⟩

end

/-! ## Bindings -/

/-- Each conversion is catalogued. -/
theorem catalogued_conversionCode (nullable : Bool) (c : Conversion) : Catalogued (c.code nullable) := by
  cases c with
  | text =>
      apply catalogued_singleton
      apply isCatalogued_call
      cases nullable <;> decide
  | primitive kind => exact catalogued_singleton (isCatalogued_call (Framework.valuePrimitive_mem kind))
  | «class» type =>
      apply catalogued_cons (isCatalogued_classOf _)
      apply catalogued_cons _ (catalogued_singleton (isCatalogued_checkCast _))
      apply isCatalogued_call
      cases nullable <;> decide
  | optional element =>
      exact catalogued_cons (isCatalogued_classOf _) (catalogued_singleton (isCatalogued_call (by decide)))
  | list element =>
      exact catalogued_cons (isCatalogued_classOf _) (catalogued_singleton (isCatalogued_call (by decide)))
  | set element =>
      exact catalogued_cons (isCatalogued_classOf _) (catalogued_singleton (isCatalogued_call (by decide)))

theorem catalogued_unbox (kind : Primitive) : Catalogued [(Framework.unbox kind).instr] :=
  catalogued_singleton (isCatalogued_call (Framework.unbox_mem kind))

theorem BodyRow.catalogued {t : TypeExpr} {code : List (Instr Constant)} (h : BodyRow t code) : Catalogued code := by
  have hto : Instr.IsCatalogued Framework.bodyTo.instr := isCatalogued_call (by decide)
  cases h with
  | body args => exact catalogued_nil
  | bytes => exact catalogued_singleton (isCatalogued_call (by decide))
  | stream args => exact catalogued_singleton (isCatalogued_call (by decide))
  | text => exact catalogued_singleton (isCatalogued_call (by decide))
  | primitive kind =>
      apply catalogued_cons (isCatalogued_classOf _)
      apply catalogued_cons hto
      exact catalogued_cons (isCatalogued_checkCast _) (catalogued_unbox kind)
  | object =>
      apply catalogued_append (catalogued_typeCode _)
      exact catalogued_cons hto (catalogued_singleton (isCatalogued_checkCast _))
  | array =>
      apply catalogued_cons (isCatalogued_classOf _)
      exact catalogued_cons hto (catalogued_singleton (isCatalogued_checkCast _))

theorem UploadRow.catalogued {t : TypeExpr} {code : List (Instr Constant)} (h : UploadRow t code) :
    Catalogued code := by
  have hfile : Instr.IsCatalogued Framework.file.instr := isCatalogued_call (by decide)
  cases h with
  | files => exact catalogued_singleton (isCatalogued_call (by decide))
  | file => exact catalogued_singleton hfile
  | path => exact catalogued_cons hfile (catalogued_singleton (isCatalogued_call (by decide)))
  | bytes => exact catalogued_cons hfile (catalogued_singleton (isCatalogued_call (by decide)))

theorem ContextRow.catalogued {t : TypeExpr} {code : List (Instr Constant)} (h : ContextRow t code) :
    Catalogued code := by
  have hrequire (type : DataType) {rest : List (Instr Constant)} (hrest : Catalogued rest) :
      Catalogued (loadContext :: .classOf type :: Framework.require.instr :: rest) := by
    apply catalogued_cons (isCatalogued_load _)
    apply catalogued_cons (isCatalogued_classOf _)
    exact catalogued_cons (isCatalogued_call (by decide)) hrest
  cases h with
  | context args => exact catalogued_singleton (isCatalogued_load _)
  | optional element => exact hrequire _ (catalogued_singleton (isCatalogued_call (by decide)))
  | primitive kind => exact hrequire _ (catalogued_cons (isCatalogued_checkCast _) (catalogued_unbox kind))
  | object => exact hrequire _ (catalogued_singleton (isCatalogued_checkCast _))
  | array => exact hrequire _ (catalogued_singleton (isCatalogued_checkCast _))

/-- The code of a bound parameter may call the binder. -/
theorem BoundRow.calls {binder : Option MethodName} {p : Parameter} {code : List (Instr Constant)}
    (hbinding : p.binding = .bound binder) (h : BoundRow binder p.type code) :
    ∀ i ∈ code, Instr.IsCatalogued i ∨ Instr.CallsBinder p i := by
  generalize htype : p.type = t at h
  cases h with
  | binder m name args =>
      refine List.forall_mem_cons.mpr ⟨.inl (isCatalogued_load _), List.forall_mem_singleton.mpr (.inr ?_)⟩
      exact ⟨m, .object name, hbinding, by rw [htype]; rfl, rfl⟩
  | context name args =>
      intro i hi
      refine .inl (catalogued_cons (isCatalogued_load _) (catalogued_cons (isCatalogued_classOf _) ?_) i hi)
      exact catalogued_cons (isCatalogued_call (by decide)) (catalogued_singleton (isCatalogued_checkCast _))

/-- Code that binds a parameter calls only the catalogue and the binder of the parameter. -/
theorem Binds.calls {p : Parameter} {code : List (Instr Constant)} (h : Binds p code) :
    ∀ i ∈ code, Instr.IsCatalogued i ∨ Instr.CallsBinder p i := by
  have hcatalogued {is : List (Instr Constant)} (his : Catalogued is) :
      ∀ i ∈ is, Instr.IsCatalogued i ∨ Instr.CallsBinder p i := fun i hi => .inl (his i hi)
  cases h with
  | value hsource _ =>
      refine hcatalogued (catalogued_append ?_ (catalogued_conversionCode p.nullable _))
      apply catalogued_cons (isCatalogued_load _)
      apply catalogued_cons (isCatalogued_string _)
      exact catalogued_singleton (isCatalogued_call (Framework.mem_sources_of_lookup hsource))
  | body _ hrow =>
      refine hcatalogued (catalogued_append ?_ hrow.catalogued)
      exact catalogued_cons (isCatalogued_load _) (catalogued_singleton (isCatalogued_call (by decide)))
  | upload _ hrow =>
      refine hcatalogued (catalogued_append ?_ hrow.catalogued)
      exact catalogued_cons (isCatalogued_load _) (catalogued_singleton (isCatalogued_string _))
  | context _ hrow => exact hcatalogued hrow.catalogued
  | bound hbinding hrow => exact hrow.calls hbinding

/-- The code that was written when a parameter was refused is catalogued. -/
theorem Refuses.catalogued {p : Parameter} {code : List (Instr Constant)} (h : Refuses p code) :
    Catalogued code := by
  cases h with
  | early => exact catalogued_nil
  | body => exact catalogued_cons (isCatalogued_load _) (catalogued_singleton (isCatalogued_call (by decide)))
  | upload => exact catalogued_cons (isCatalogued_load _) (catalogued_singleton (isCatalogued_string _))

/-- **The code of a binding** calls methods of the catalogue and the binder of the parameter. -/
theorem bindingCode_calls (p : Parameter) :
    ∀ i ∈ (bindingCode p).code, Instr.IsCatalogued i ∨ Instr.CallsBinder p i := by
  rcases bindingCode_code_cases p with hbinds | hrefuses
  · exact hbinds.calls
  · exact fun i hi => .inl (hrefuses.catalogued i hi)

end Routecraft.Compile

namespace Routecraft.Machine

open Bytecode Compile

/-- What plain code calls on objects is not a method of a unit, or else its result is kept. -/
theorem Program.tame_of_plain {p : Program} {slack : Prop} {i : Instr Constant} (hi : Instr.IsPlain i)
    (hquiet : ¬slack → ∀ c ∈ Framework.catalogue, p.Quiet c.name) : p.Tame slack i := by
  intro m hm
  obtain ⟨c, hc, rfl⟩ := hi.calls m hm
  by_cases hslack : slack
  · refine .inr ⟨hslack, ?_⟩
    intro s hs
    rw [Framework.signatureOf_of_mem hc] at hs
    cases hs
    exact (Framework.catalogue_answers c hc).2
  · exact .inl (hquiet hslack c hc)

end Routecraft.Machine
