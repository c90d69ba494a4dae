import Routecraft.Proofs.Compile.Arguments
import Routecraft.Proofs.Compile.Units
import Routecraft.Proofs.Execution.Alike

/-!
# Code that is gentle to what it works on

The code that takes the arguments of a handler from the request changes nothing that was there before. Apart from the
literals of types, which fill arrays of their own, no instruction of it writes anything, and what it calls on objects
only reads.

* `Instr.IsGentle`, `Gentle`: such instructions, and code of them and of literals.
* `Gentle.bindingCode`: the code of a parameter.
* `Gentle.beforeCall`: the code of a handler before the call of the method.
-/

namespace Routecraft.Machine

open Bytecode Compile

/-- An instruction that writes to no array and no object. What it calls on objects are methods of the framework that
have nothing to do with responses and routes. -/
structure Instr.IsGentle (i : Instr Constant) : Prop where
  arrays : i ≠ .arrayStore
  objects : ∀ c, i ≠ .onConst .putField c ∧ i ≠ .onConst .newObject c
  calls : ∀ m, i.callee? = some m → ∃ c ∈ Framework.catalogue, m.name = c.name ∧ c.name ∉ statefulNames

/-- Code of gentle instructions and literals of types. -/
inductive Gentle : List (Instr Constant) → Prop
  | nil : Gentle []
  | cons {i : Instr Constant} {is : List (Instr Constant)} : Instr.IsGentle i → Gentle is → Gentle (i :: is)
  | literal (t : TypeExpr) {is : List (Instr Constant)} : Gentle is → Gentle (typeCode t ++ is)

/-- Taking a value out of its box changes no state. -/
theorem unboxName_not_mem (kind : Primitive) : Framework.unboxName kind ∉ statefulNames := by
  cases kind <;> decide

namespace Gentle

variable {is js : List (Instr Constant)}

/-- Code in two gentle pieces is gentle. -/
theorem append (h : Gentle is) (hjs : Gentle js) : Gentle (is ++ js) := by
  induction h with
  | nil => exact hjs
  | cons hi _ ih => exact .cons hi ih
  | literal t _ ih =>
      rw [List.append_assoc]
      exact .literal t ih

/-- An instruction that calls nothing on an object and writes nowhere. -/
theorem simple {i : Instr Constant} (hcallee : i.callee? = none) (harrays : i ≠ .arrayStore)
    (hobjects : ∀ c, i ≠ .onConst .putField c ∧ i ≠ .onConst .newObject c) (h : Gentle is) : Gentle (i :: is) :=
  .cons ⟨harrays, hobjects, fun m hm => by rw [hcallee] at hm; cases hm⟩ h

theorem load (slot : UInt8) (h : Gentle is) : Gentle (.load slot :: is) :=
  .simple rfl nofun (fun _ => ⟨nofun, nofun⟩) h

theorem const (c : Constant) (h : Gentle is) : Gentle (.const c :: is) :=
  .simple rfl nofun (fun _ => ⟨nofun, nofun⟩) h

theorem checkCast (type : DataType) (h : Gentle is) : Gentle (.checkCast type :: is) :=
  .simple rfl nofun (fun _ => ⟨nofun, nofun⟩) h

/-- A call of the framework that has nothing to do with responses and routes. -/
theorem call {c : Call} (hc : c ∈ Framework.catalogue) (hname : c.name ∉ statefulNames) (h : Gentle is) :
    Gentle (c.instr :: is) := by
  refine .cons ?_ h
  unfold Call.instr
  cases c.dispatch
  all_goals refine ⟨nofun, fun _ => ⟨nofun, nofun⟩, fun m hm => ?_⟩
  all_goals cases hm
  all_goals exact ⟨c, hc, rfl, hname⟩

/-- No conversion calls for more than it reads. -/
theorem conversion (nullable : Bool) (c : Conversion) : Gentle (c.code nullable) := by
  cases c with
  | text =>
      cases nullable
      · exact .call (c := Framework.valueText false) (by decide) (by decide) .nil
      · exact .call (c := Framework.valueText true) (by decide) (by decide) .nil
  | primitive kind => exact .call (Framework.valuePrimitive_mem kind) (unboxName_not_mem kind) .nil
  | «class» type =>
      refine .const _ ?_
      cases nullable
      · exact .call (c := Framework.valueTo false) (by decide) (by decide) (.checkCast _ .nil)
      · exact .call (c := Framework.valueTo true) (by decide) (by decide) (.checkCast _ .nil)
  | optional element => exact .const _ (.call (by decide) (by decide) .nil)
  | list element => exact .const _ (.call (by decide) (by decide) .nil)
  | set element => exact .const _ (.call (by decide) (by decide) .nil)

theorem bodyRow {t : TypeExpr} {code : List (Instr Constant)} (h : BodyRow t code) : Gentle code := by
  have hto (type : DataType) (is : List (Instr Constant)) (his : Gentle is) :
      Gentle (Framework.bodyTo.instr :: .checkCast type :: is) :=
    .call (by decide) (by decide) (.checkCast type his)
  cases h with
  | body args => exact .nil
  | bytes => exact .call (by decide) (by decide) .nil
  | stream args => exact .call (by decide) (by decide) .nil
  | text => exact .call (by decide) (by decide) .nil
  | primitive kind =>
      refine .const _ (hto _ _ ?_)
      exact .call (Framework.unbox_mem kind) (unboxName_not_mem kind) .nil
  | object => exact .literal _ (hto _ _ .nil)
  | array => exact .const _ (hto _ _ .nil)

theorem uploadRow {t : TypeExpr} {code : List (Instr Constant)} (h : UploadRow t code) : Gentle code := by
  have hfile (is : List (Instr Constant)) (his : Gentle is) : Gentle (Framework.file.instr :: is) :=
    .call (by decide) (by decide) his
  cases h with
  | files => exact .call (by decide) (by decide) .nil
  | file => exact hfile _ .nil
  | path => exact hfile _ (.call (by decide) (by decide) .nil)
  | bytes => exact hfile _ (.call (by decide) (by decide) .nil)

theorem contextRow {t : TypeExpr} {code : List (Instr Constant)} (h : ContextRow t code) : Gentle code := by
  have hrequire (type : DataType) (is : List (Instr Constant)) (his : Gentle is) :
      Gentle (loadContext :: .classOf type :: Framework.require.instr :: is) :=
    .load _ (.const _ (.call (by decide) (by decide) his))
  cases h with
  | context args => exact .load _ .nil
  | optional element => exact hrequire _ _ (.call (by decide) (by decide) .nil)
  | primitive kind =>
      refine hrequire _ _ (.checkCast _ ?_)
      exact .call (Framework.unbox_mem kind) (unboxName_not_mem kind) .nil
  | object => exact hrequire _ _ (.checkCast _ .nil)
  | array => exact hrequire _ _ (.checkCast _ .nil)

theorem boundRow {binder : Option MethodName} {t : TypeExpr} {code : List (Instr Constant)}
    (h : BoundRow binder t code) : Gentle code := by
  cases h with
  | binder m name args => exact .load _ (.simple rfl nofun (fun _ => ⟨nofun, nofun⟩) .nil)
  | context name args => exact .load _ (.const _ (.call (by decide) (by decide) (.checkCast _ .nil)))

/-- Code that binds a parameter is gentle. -/
theorem binds {q : Parameter} {code : List (Instr Constant)} (h : Binds q code) : Gentle code := by
  cases h with
  | @value c hsource _ =>
      have hname : q.binding.name ∉ statefulNames := by
        have hnames : ∀ source ∈ Framework.sources, source ∉ statefulNames := by decide
        exact hnames _ hsource
      exact .load _ (.const _ (.call (Framework.mem_sources_of_lookup hsource) hname (conversion q.nullable c)))
  | body _ hrow => exact .load _ (.call (by decide) (by decide) (bodyRow hrow))
  | upload _ hrow => exact .load _ (.const _ (uploadRow hrow))
  | context _ hrow => exact contextRow hrow
  | bound _ hrow => exact boundRow hrow

/-- So is the code that was written when a parameter was refused. -/
theorem refuses {q : Parameter} {code : List (Instr Constant)} (h : Refuses q code) : Gentle code := by
  cases h with
  | early => exact .nil
  | body => exact .load _ (.call (by decide) (by decide) .nil)
  | upload => exact .load _ (.const _ .nil)

/-- The code of a binding is gentle in any case. -/
theorem bindingCode (q : Parameter) : Gentle (bindingCode q).code := by
  rcases bindingCode_code_cases q with hbinds | hrefuses
  · exact binds hbinds
  · exact refuses hrefuses

/-- **The code before the call of the method** of an endpoint. -/
theorem beforeCall (unit : String) (e : Endpoint) : Gentle (callCode unit e).dropLast := by
  have hbindings (qs : List Parameter) : Gentle (qs.flatMap fun q => (Compile.bindingCode q).code) := by
    induction qs with
    | nil => exact .nil
    | cons q qs ih =>
        rw [List.flatMap_cons]
        exact .append (bindingCode q) ih
  unfold callCode
  rw [List.dropLast_concat]
  refine .append ?_ (hbindings e.params)
  refine .load _ (.simple rfl nofun (fun _ => ⟨nofun, nofun⟩) ?_)
  exact .call (by decide) (by decide) (.checkCast _ .nil)

end Gentle

end Routecraft.Machine
