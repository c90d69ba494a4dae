import Routecraft.Proofs.Compile.Bindings

/-!
# Code of types and attributes

The code of a type or an attribute is nested like what it is for: an array of the parts is filled with the code of
each part. Wherever it is written, it adds one reference to the stack. While an array is filled, the array and the
place in it lie below the part at hand, so the effect is known for every stack below.

* `stackEffect_emitAll`: code that leaves a slot, behind other code.
* `literals_leave_reference`: what the code of types and attributes adds to the stack.
-/

namespace Routecraft.Compile

open Bytecode

section

variable {h : Hierarchy} {a : Assembler} {b₀ b₁ : Interner} {code₁ : Code} {locals st : List SlotType}

/-- Behind a fragment with an effect there are locals, in which code that leaves a slot adds it to the stack of the
fragment. -/
theorem stackEffect_emitAll (hcode₁ : a.assemble b₀ = (b₁, .ok code₁))
    (hst : stackEffect code₁ b₁.pool locals h = .ok st) :
    ∃ ls, ∀ {is : List (Instr Constant)} {fine : Prop} {t : SlotType} {b b' : Interner} {code : Code},
      Catalogued is → h.Leaves none ls fine is t → (a.emitAll is).assemble b = (b', .ok code) →
      (fine → stackEffect code b'.pool locals h = .ok (t :: st)) ∧
        (¬fine → ∃ text cause, stackEffect code b'.pool locals h = .error (.malformed text cause)) := by
  obtain ⟨hinner, ls, heffects⟩ := effects_of_stackEffect hcode₁ hst
  refine ⟨ls, fun {is fine t b b' code} his hleaves hcode => ?_⟩
  -- The constants get other places in the pool, but what is written down of the fragment has the same effects.
  have hwhole : h.effects none ⟨[], locals.map some⟩ (a.emitAll is).instrs.toList = h.effects none ⟨st, ls⟩ is := by
    rw [Assembler.toList_emitAll, Hierarchy.effects_append, heffects]
    rfl
  have hinner' : ∀ i ∈ (a.emitAll is).instrs.toList, i.isInner = true ∧ i.suits = true := by
    rw [Assembler.toList_emitAll]
    exact List.forall_mem_append.mpr ⟨hinner, fun i hi => (his i hi).isInner⟩
  obtain ⟨hsucceeds, hfails⟩ := stackEffect_assemble hcode hinner'
  have hyields := hleaves st
  refine ⟨fun hfine => hsucceeds _ (hwhole.trans (hyields.ok hfine)), fun hnot => ?_⟩
  obtain ⟨text, cause, herror⟩ := hyields.malformed hnot
  exact ⟨text, cause, hfails _ (hwhole.trans herror)⟩

/-- Names are readable if none is empty or holds a semicolon. -/
theorem readable_iff {names : List String} :
    Readable names ↔ ¬∃ name ∈ names, name = "" ∨ ';' ∈ name.toList := by
  simp only [Readable, wellFormed_object, not_exists, not_and]

/-- **The code of types and attributes leaves one reference.** Whatever fragment it is written behind, if this one has
an effect, the code of a type adds a class or a reified type, both of which may stand for a type. The code of an
attribute adds an object too, unless a descriptor cannot be read; and that is so exactly if the attribute has a
constant of an enumeration in it, at any depth, whose class is unnamed or has a semicolon in its name. -/
theorem literals_leave_reference (hedges : ∀ e ∈ Framework.hierarchy.edges, e ∈ h.edges)
    (hcode₁ : a.assemble b₀ = (b₁, .ok code₁)) (hst : stackEffect code₁ b₁.pool locals h = .ok st) :
    (∀ t b b' code, (a.emitAll (typeCode t)).assemble b = (b', .ok code) →
      ∃ name ∈ [Platform.classClass, Platform.reified],
        Framework.hierarchy.accepts (.object Platform.type) (.ref name) = true ∧
        stackEffect code b'.pool locals h = .ok (.ref name :: st)) ∧
    ∀ v b b' code, (a.emitAll (attributeCode v)).assemble b = (b', .ok code) →
      ((¬∃ type ∈ enumTypes v, type = "" ∨ ';' ∈ type.toList) →
        ∃ name, stackEffect code b'.pool locals h = .ok (.ref name :: st)) ∧
      ((∃ type ∈ enumTypes v, type = "" ∨ ';' ∈ type.toList) →
        ∃ text cause, stackEffect code b'.pool locals h = .error (.malformed text cause)) := by
  obtain ⟨ls, hadds⟩ := stackEffect_emitAll hcode₁ hst
  constructor
  · intro t b b' code hcode
    obtain ⟨name, hname, hleaves⟩ := leaves_typeCode hedges t
    have htype : Framework.hierarchy.isSubtype name Platform.type = true := isSubtype_type (fun _ he => he) hname
    exact ⟨name, hname, htype, (hadds (catalogued_typeCode t) hleaves hcode).1 trivial⟩
  · intro v b b' code hcode
    obtain ⟨name, hleaves⟩ := leaves_attributeCode v
    obtain ⟨hleft, hmalformed⟩ := hadds (catalogued_attributeCode v) hleaves hcode
    rw [readable_iff] at hleft hmalformed
    exact ⟨fun hread => ⟨name, hleft hread⟩, fun hmisnamed => hmalformed (not_not.mpr hmisnamed)⟩

end

section

/-- An attribute with a constant of an enumeration in it whose class cannot stand in a descriptor. -/
def visits : Attribute := .list [.map [("by", .classRef "app.User"), ("at", .list [.enum "app;At" "NOON"])]]

theorem literals_leave_reference_heading :
    ∃ b₁ code₁ b₂ code₂, (heading.emitAll (typeCode shelves.type)).assemble .empty = (b₁, .ok code₁) ∧
      (heading.emitAll (attributeCode visits)).assemble .empty = (b₂, .ok code₂) ∧
      (∃ name ∈ [Platform.classClass, Platform.reified],
        stackEffect code₁ b₁.pool [] Framework.hierarchy = .ok [.ref name, .ref Platform.string]) ∧
      ∃ text cause, stackEffect code₂ b₂.pool [] Framework.hierarchy = .error (.malformed text cause) := by
  have hassembles : (heading.assemble .empty).2.toBool = true ∧
      ((heading.emitAll (typeCode shelves.type)).assemble .empty).2.toBool = true ∧
      ((heading.emitAll (attributeCode visits)).assemble .empty).2.toBool = true := by decide +kernel
  rcases hcode : heading.assemble .empty with ⟨b, e | code⟩
  · simp [hcode, Except.toBool] at hassembles
  rcases hcode₁ : (heading.emitAll (typeCode shelves.type)).assemble .empty with ⟨b₁, e | code₁⟩
  · simp [hcode₁, Except.toBool] at hassembles
  rcases hcode₂ : (heading.emitAll (attributeCode visits)).assemble .empty with ⟨b₂, e | code₂⟩
  · simp [hcode₂, Except.toBool] at hassembles
  have hst : stackEffect code b.pool [] Framework.hierarchy = .ok [.ref Platform.string] :=
    (stackEffect_assemble hcode (by decide)).1 _ rfl
  obtain ⟨htypes, hattributes⟩ := literals_leave_reference (fun _ he => he) hcode hst
  obtain ⟨name, hname, -, htype⟩ := htypes _ _ _ _ hcode₁
  exact ⟨b₁, code₁, b₂, code₂, rfl, rfl, ⟨name, hname, htype⟩,
    (hattributes _ _ _ _ hcode₂).2 ⟨"app;At", by decide, .inr (by decide)⟩⟩

end

end Routecraft.Compile
