import Routecraft.Proofs.Compile.Gentle
import Routecraft.Proofs.Execution.Repeats

/-!
# Gentle code does alike

A literal of a type fills arrays, so its instructions do alike only where the array is known to be new, and the item
stored to refer to nothing. This is followed along the code.

* `Program.Repeats`: code that does alike, as far as it is run.
* `Mark`, `Builds`: what is known of the operands where a literal is built.
* `Alike.builds`: the code of literals.
* `Program.Steady`, `Gentle.repeats`: gentle code.
-/

namespace Routecraft.Machine

open Bytecode Compile Store

variable {p : Program} {S s s' : Store} {σ : Renaming} {x : Nat} {o : Operands}

/-- Code that does alike on any stores and operands, as far as it is run. -/
def Program.Repeats (p : Program) (S : Store) (is : List (Instr Constant)) : Prop :=
  ∀ (σ : Renaming) (x : Nat) (s s' : Store) (o : Operands) (b : Nat), Twins S σ x s s' → s.HasOperands o →
    AlikeOperands S σ x s s' (p.effects (is.take b) o) (p.effects (is.take b) (o.rename σ))

namespace Program.Repeats

variable {is js : List (Instr Constant)} {i : Instr Constant}

theorem nil (p : Program) (S : Store) : p.Repeats S [] := by
  intro σ x s s' o b h ho
  rw [List.take_nil]
  exact .operands h ho

/-- Code in two pieces repeats itself if both do. -/
theorem append (h : p.Repeats S is) (h' : p.Repeats S js) : p.Repeats S (is ++ js) := by
  intro σ x s s' o b hs ho
  rw [List.take_append, effects_append, effects_append]
  exact .bind (h σ x s s' o b hs ho) fun o t t' ht _ ho => h' σ x t t' o _ ht ho

/-- A mild instruction repeats itself. -/
theorem single (hp : p.Pure S) (hi : Instr.IsMild p i) : p.Repeats S [i] := by
  intro σ x s s' o b h ho
  cases b with
  | zero => exact .operands h ho
  | succ b =>
      rw [List.take_succ_cons, List.take_nil, effects_cons, effects_cons]
      exact .bind (.effect h hp hi ho) fun o t t' ht _ ho => .operands ht ho

theorem cons (hp : p.Pure S) (hi : Instr.IsMild p i) (h : p.Repeats S is) : p.Repeats S (i :: is) :=
  (single hp hi).append h

end Program.Repeats

/-! ## Literals -/

/-- What is known of an operand: it refers to nothing, or it is an array that is new. -/
inductive Mark where
  | plain
  | new

/-- A value is as it is marked, in runs since the store `S`. -/
def Mark.Fits (S : Store) : Mark → Value → Prop
  | plain, v => v.refs = []
  | new, v => ∃ className number, v = .array className number ∧ S.arrays.size ≤ number

/-- The operands on top are as they are marked. -/
def Mark.FitsAll (S : Store) : List Mark → List Value → Prop
  | [], _ => True
  | _ :: _, [] => False
  | k :: ks, v :: vs => k.Fits S v ∧ FitsAll S ks vs

/-- What an instruction makes of what is known of the operands on top, where a value is built out of constants in new
arrays. -/
inductive Mark.Step : Instr Constant → List Mark → List Mark → Prop
  | const (c : Constant) (ks : List Mark) : Step (.const c) ks (.plain :: ks)
  | pushInt (n : Int32) (ks : List Mark) : Step (.pushInt n) ks (.plain :: ks)
  | newArray (type : DataType) (k : Mark) (ks : List Mark) : Step (.newArray type) (k :: ks) (.new :: ks)
  | dup (k : Mark) (ks : List Mark) : Step .dup (k :: ks) (k :: k :: ks)
  | arrayStore (k : Mark) (ks : List Mark) : Step .arrayStore (.plain :: k :: .new :: ks) ks
  | reified (ks : List Mark) : Step Framework.reifiedParameterized.instr (.new :: .plain :: ks) (.plain :: ks)

/-- Code that builds a value, by what is known of the operands on top before and after. -/
inductive Builds : List (Instr Constant) → List Mark → List Mark → Prop
  | nil {ks : List Mark} : Builds [] ks ks
  | cons {i : Instr Constant} {is : List (Instr Constant)} {ks ks' ks'' : List Mark} :
      Mark.Step i ks ks' → Builds is ks' ks'' → Builds (i :: is) ks ks''

/-- Code in two pieces builds what the second builds on the first. -/
theorem Builds.append {is js : List (Instr Constant)} {ks ks' ks'' : List Mark} (h : Builds is ks ks')
    (h' : Builds js ks' ks'') : Builds (is ++ js) ks ks'' := by
  induction h with
  | nil => exact h'
  | cons hstep _ ih => exact .cons hstep (ih h')

/-- Items are stored into a new array. -/
theorem builds_storeFrom {codes : List (List (Instr Constant))}
    (h : ∀ code ∈ codes, ∀ ks, Builds code ks (.plain :: ks)) (i : Nat) (ks : List Mark) :
    Builds (storeFrom i codes) (.new :: ks) (.new :: ks) := by
  induction codes generalizing i with
  | nil => exact .nil
  | cons code codes ih =>
      obtain ⟨hcode, hcodes⟩ := List.forall_mem_cons.mp h
      refine .cons (.dup .new ks) (.cons (.pushInt _ _) ((hcode _).append ?_))
      exact .cons (.arrayStore .plain (.new :: ks)) (ih hcodes (i + 1))

/-- The code of a reified type builds it, if the code of its arguments does. -/
theorem builds_reified {codes : List (List (Instr Constant))}
    (h : ∀ code ∈ codes, ∀ ks, Builds code ks (.plain :: ks)) (name : String) (ks : List Mark) :
    Builds (.classOf (.object name) :: arrayCode (.object Platform.type) codes
      ++ [Framework.reifiedParameterized.instr]) ks (.plain :: ks) := by
  have harray : Builds (arrayCode (.object Platform.type) codes) (.plain :: ks) (.new :: .plain :: ks) :=
    .cons (.pushInt _ _) (.cons (.newArray _ .plain _) (builds_storeFrom h 0 _))
  exact .cons (.const _ ks) (harray.append (.cons (.reified ks) .nil))

mutual

/-- The code of a type builds its value. -/
theorem builds_typeCode (t : TypeExpr) (ks : List Mark) : Builds (typeCode t) ks (.plain :: ks) := by
  match t with
  | .void | .primitive _ | .array _ | .named _ [] => exact .cons (.const _ ks) .nil
  | .named name (arg :: args) =>
      rw [typeCode]
      exact builds_reified (builds_typeCodes (arg :: args)) name ks

/-- The code of each type in a list builds one value. -/
theorem builds_typeCodes (ts : List TypeExpr) : ∀ code ∈ typeCodes ts, ∀ ks, Builds code ks (.plain :: ks) := by
  match ts with
  | [] => exact List.forall_mem_nil _
  | t :: rest => exact List.forall_mem_cons.mpr ⟨builds_typeCode t, builds_typeCodes rest⟩

end

/-! ### What literals do -/

/-- Operands of which something is known. -/
structure Operands.Marked (S : Store) (ks : List Mark) (o : Operands) (s : Store) : Prop where
  has : s.HasOperands o
  fits : Mark.FitsAll S ks o.stack

namespace Alike

variable {ks ks' : List Mark}

/-- Pushing a value that fits its mark goes alike on both stores. -/
theorem push_marked (h : Twins S σ x s s') (ho : o.Marked S ks s) {v : Value} (hv : s.Has v) {k : Mark}
    (hk : k.Fits S v) :
    Alike S σ x s s' (Operands.rename σ) (Operands.Marked S (k :: ks)) (Pure.pure (o.push v))
      (Pure.pure ((o.rename σ).push (v.rename σ))) :=
  pure h ⟨ho.has.push hv, hk, ho.fits⟩

/-- Making an array goes alike on both stores, and the array is marked as new. -/
theorem newArray_marked (type : DataType) {k : Mark} (h : Twins S σ x s s') (ho : o.Marked S (k :: ks) s) :
    Alike S σ x s s' (Operands.rename σ) (Operands.Marked S (.new :: ks)) (p.effect (.newArray type) o)
      (p.effect (.newArray type) (o.rename σ)) := by
  obtain ⟨ls, _ | ⟨v, st⟩⟩ := o
  · exact ho.fits.elim
  · have hrest : s.HasOperands ⟨ls, st⟩ := ⟨ho.has.locals, (List.forall_mem_cons.mp ho.has.stack).2⟩
    have hv : s.Has v := ho.has.stack v List.mem_cons_self
    simp only [Program.effect, Program.constEffect, Instr.newArray, Operands.rename_mk, List.map_cons,
      Operands.pop_mk_cons, pure_bind]
    refine bind (orUnitFault h _) fun _ t t' ht hle _ => ?_
    refine bind (asInt ht) fun n u u' hu hle' _ => ?_
    dsimp only [id]
    split
    · exact throw hu _
    · refine bind (newArray hu _ _) fun w y y' hy hle'' hw => ?_
      have hrest := ((hrest.mono hle).mono hle').mono hle''
      exact push_marked (k := .new) hy ⟨hrest, ho.fits.2⟩ hw.2 ⟨_, _, hw.1, hu.since.arrays_le⟩

/-- What is stored refers to nothing, and is stored into an array that is new. -/
theorem arrayStore_marked {k : Mark} (h : Twins S σ x s s') (ho : o.Marked S (.plain :: k :: .new :: ks) s) :
    Alike S σ x s s' (Operands.rename σ) (Operands.Marked S ks) (p.effect .arrayStore o)
      (p.effect .arrayStore (o.rename σ)) := by
  obtain ⟨ls, _ | ⟨v, _ | ⟨index, _ | ⟨target, st⟩⟩⟩⟩ := o
  · exact ho.fits.elim
  · exact ho.fits.2.elim
  · exact ho.fits.2.2.elim
  · obtain ⟨hv, -, ⟨className, number, rfl, hnumber⟩, hfits⟩ := ho.fits
    obtain ⟨-, hindex, htarget, hstack⟩ : s.Has v ∧ s.Has index ∧ s.Has (.array className number) ∧
        ∀ w ∈ st, s.Has w := by simpa using ho.has.stack
    simp only [Program.effect, Instr.arrayStore, Program.arrayStoreEffect, Operands.rename_mk, List.map_cons,
      Operands.pop_mk_cons, pure_bind, Value.rename]
    refine bind (asInt h) fun n t t' ht hle _ => get ?_
    dsimp only [id]
    rw [ht.renames.size_items]
    split
    · rw [Value.rename_of_refs hv]
      refine bind (modify (ht.setItem hnumber hv _) (t.below_setItem _ _ _)) fun _ u u' hu hle' _ => ?_
      have hrest : s.HasOperands ⟨ls, st⟩ := ⟨ho.has.locals, hstack⟩
      exact pure (r := Operands.rename σ) hu ⟨(hrest.mono hle).mono hle', hfits⟩
    · exact throw ht _

/-- The arguments are taken from a new array, so they refer to nothing. -/
theorem reified_marked (hp : p.Unshadowed) (h : Twins S σ x s s') (ho : o.Marked S (.new :: .plain :: ks) s) :
    Alike S σ x s s' (Operands.rename σ) (Operands.Marked S (.plain :: ks))
      (p.effect Framework.reifiedParameterized.instr o)
      (p.effect Framework.reifiedParameterized.instr (o.rename σ)) := by
  obtain ⟨ls, _ | ⟨w, _ | ⟨v, st⟩⟩⟩ := o
  · exact ho.fits.elim
  · exact ho.fits.2.elim
  · obtain ⟨⟨className, number, rfl, hnumber⟩, hv, hfits⟩ := ho.fits
    obtain ⟨-, hbase, hstack⟩ : s.Has (.array className number) ∧ s.Has v ∧ ∀ w ∈ st, s.Has w := by
      simpa using ho.has.stack
    have hrest : s.HasOperands ⟨ls, st⟩ := ⟨ho.has.locals, hstack⟩
    have hcall : Framework.OnClass Framework.reifiedParameterized 2 := ⟨by decide, rfl, rfl⟩
    have hreified (base items : Value) : Machine.callFramework Framework.reifiedParameterized.owner
        Framework.reifiedParameterized.name [base, items] =
          base.asClass >>= fun name => items.asArray >>= fun vs => Pure.pure (.reified name vs) := rfl
    simp only [Operands.rename_mk, List.map_cons, Program.effect_onClass₂ hp hcall, hreified, bind_assoc, pure_bind]
    refine bind (asClass h) fun name t t' ht hle _ => get ?_
    have hfresh : ∀ w ∈ t.items number, w.refs = [] := ht.since.fresh number hnumber
    have hitems : t'.items (σ.array number) = t.items number :=
      (ht.renames.items number).trans (Value.map_eq_self fun w hw => Value.rename_of_refs (hfresh w hw))
    rw [hitems]
    have hplain : (Value.reified name (t.items number)).refs = [] := Value.refs_list.mpr hfresh
    have hpush := push_marked (k := .plain) ht ⟨hrest.mono hle, hfits⟩ (has_of_refs hplain) hplain
    rw [Value.rename_of_refs hplain] at hpush
    exact hpush

/-- Each step that a mark allows goes alike on both stores. -/
theorem step_marked (hp : p.Unshadowed) {i : Instr Constant} (hstep : Mark.Step i ks ks') (h : Twins S σ x s s')
    (ho : o.Marked S ks s) :
    Alike S σ x s s' (Operands.rename σ) (Operands.Marked S ks') (p.effect i o) (p.effect i (o.rename σ)) := by
  cases hstep with
  | const c ks =>
      refine bind (constantValue h c) fun v t t' ht hle hv => ?_
      exact push_marked ht ⟨ho.has.mono hle, ho.fits⟩ (has_of_refs hv) (k := .plain) hv
  | pushInt n ks => exact push_marked h ho (has_of_refs rfl) (k := .plain) rfl
  | newArray type k ks => exact newArray_marked type h ho
  | dup k ks =>
      obtain ⟨ls, _ | ⟨v, st⟩⟩ := o
      · exact ho.fits.elim
      · exact push_marked h ho (ho.has.stack v List.mem_cons_self) ho.fits.1
  | arrayStore k ks => exact arrayStore_marked h ho
  | reified ks => exact reified_marked hp h ho

/-- **Code that builds a value** does alike as far as it is run, and leaves what it is to leave if it is run to its
end. -/
theorem builds (hp : p.Unshadowed) {is : List (Instr Constant)} (hbuilds : Builds is ks ks') (b : Nat)
    (h : Twins S σ x s s') (ho : o.Marked S ks s) :
    AlikeOperands S σ x s s' (p.effects (is.take b) o) (p.effects (is.take b) (o.rename σ)) := by
  induction hbuilds generalizing b s s' o with
  | nil =>
      rw [List.take_nil]
      exact operands h ho.has
  | cons hstep _ ih =>
      cases b with
      | zero => exact operands h ho.has
      | succ b =>
          rw [List.take_succ_cons, Program.effects_cons, Program.effects_cons]
          exact bind (step_marked hp hstep h ho) fun o t t' ht _ ho => ih b ht ho

end Alike

/-! ## Gentle code -/

/-- A program in which generated code calls what it means to: no unit has a method named like one of the framework, no
static method of the application stands in place of one of the framework, and the code of the application is functions
of the arguments. -/
structure Program.Steady (p : Program) (S : Store) : Prop where
  pure : p.Pure S
  unshadowed : p.Unshadowed
  quiet : ∀ c ∈ Framework.catalogue, p.Quiet c.name

/-- What is steady on a store is so on one that has grown. -/
theorem Program.Steady.mono {t : Store} (h : p.Steady S) (hle : S.Below t) : p.Steady t :=
  ⟨h.pure.mono hle, h.unshadowed, h.quiet⟩

/-- **Gentle code** does alike, as far as it is run. -/
theorem Gentle.repeats {is : List (Instr Constant)} (hp : p.Steady S) (h : Gentle is) : p.Repeats S is := by
  induction h with
  | nil => exact .nil p S
  | cons hi _ ih =>
      refine .cons hp.pure ⟨hi.arrays, hi.objects, fun m hm => ?_⟩ ih
      obtain ⟨c, hc, hname, hstateful⟩ := hi.calls m hm
      rw [hname]
      exact ⟨hp.quiet c hc, hstateful⟩
  | literal t _ ih =>
      refine .append (fun σ x s s' o b hs ho => ?_) ih
      exact .builds hp.unshadowed (builds_typeCode t []) b hs ⟨ho, trivial⟩

end Routecraft.Machine
