import Mathlib.Data.List.Forall2
import Routecraft.Bytecode.Draft
import Routecraft.Proofs.Assembly.Pools
import Routecraft.Proofs.Verification.Transfer

/-!
# Assembled code

Assembled code is the code that was written down, instruction by instruction: a constant stands in the pool
under the index that replaces it, and a jump goes to the place of its label. Code without jumps is reached
in one way only, and so is code whose only jump skips over a return.

* `Instr.Resolves`: an instruction and the one that it was written down as.
* `Assembler.assemble_resolves`: what assembling gives.
* `Instr.isStraight`: an instruction behind which control goes on, with a constant of the right kind.
* `Code.singleEntry_of_straight`, `Code.singleEntry_of_branch`: how control comes to assembled code.
-/

namespace Routecraft.Bytecode

/-- An instruction of assembled code, and the one that it was written down as. -/
inductive Instr.Resolves (pool : Pool) (labels : Array (Option UInt16)) :
    Instr UInt16 → Instr Constant → Prop
  | bare (op : BareOp) : Resolves pool labels (.bare op) (.bare op)
  | onLocal (op : LocalOp) (slot : UInt8) : Resolves pool labels (.onLocal op slot) (.onLocal op slot)
  | pushInt (n : Int32) : Resolves pool labels (.pushInt n) (.pushInt n)
  | onConst (op : ConstOp) {k : UInt16} {c : Constant} : pool.get k = .ok c →
      Resolves pool labels (.onConst op k) (.onConst op c)
  | jump (op : JumpOp) {label place : UInt16} : labels[label.toNat]? = some (some place) →
      Resolves pool labels (.jump op place) (.jump op label)

/-- Code that is resolved in a pool stays so when constants are added. -/
theorem Instr.Resolves.extend {pool pool' : Pool} {labels : Array (Option UInt16)} {i : Instr UInt16}
    {i' : Instr Constant} (h : Instr.Resolves pool labels i i') (hpool : pool.Extends pool') :
    Instr.Resolves pool' labels i i' := by
  cases h with
  | bare op => exact .bare op
  | onLocal op slot => exact .onLocal op slot
  | pushInt n => exact .pushInt n
  | onConst op hk => exact .onConst op (hpool.get hk)
  | jump op hlabel => exact .jump op hlabel

/-! ## Assembling -/

namespace Assembler

variable {labels : Array (Option UInt16)} {b b' : Interner}

/-- Assembling adds constants to the pool, and what it writes down can be resolved there. -/
theorem assembleInstr_resolves {i : Instr Constant} {i' : Instr UInt16}
    (h : assembleInstr labels b i = (b', .ok i')) :
    b.pool.Extends b'.pool ∧ Instr.Resolves b'.pool labels i' i := by
  rcases i with op | ⟨op, slot⟩ | n | ⟨op, c⟩ | ⟨op, label⟩
  · cases h
    exact ⟨.refl _, .bare op⟩
  · cases h
    exact ⟨.refl _, .onLocal op slot⟩
  · cases h
    exact ⟨.refl _, .pushInt n⟩
  · rw [assembleInstr] at h
    rcases hintern : b.intern c with ⟨b'', e | k⟩
    · simp [hintern] at h
    · rw [hintern] at h
      cases h
      obtain ⟨hextends, hget⟩ := Interner.intern_get hintern
      exact ⟨hextends, .onConst op hget⟩
  · rw [assembleInstr] at h
    split at h
    · next place hplace =>
      cases h
      exact ⟨.refl _, .jump op hplace⟩
    · simp at h

/-- What is assembled onto code before it leaves that code as it is. -/
theorem assembleOnto_resolves {is : List (Instr Constant)} {done code : Code}
    (h : assembleOnto labels done b is = (b', .ok code)) :
    b.pool.Extends b'.pool ∧ ∃ new, code.toList = done.toList ++ new ∧
      List.Forall₂ (Instr.Resolves b'.pool labels) new is := by
  induction is generalizing done b with
  | nil =>
      cases h
      exact ⟨.refl _, [], by simp, .nil⟩
  | cons i is ih =>
      rw [assembleOnto] at h
      rcases hi : assembleInstr labels b i with ⟨b₁, e | i'⟩
      · simp [hi] at h
      · rw [hi] at h
        obtain ⟨hextends, hresolves⟩ := assembleInstr_resolves hi
        obtain ⟨hextends', new, hnew, hall⟩ := ih h
        refine ⟨hextends.trans hextends', i' :: new, by simpa using hnew, .cons ?_ hall⟩
        exact hresolves.extend hextends'

/-- **Assembled code is what was written down.** -/
theorem assemble_resolves {a : Assembler} {code : Code} (h : a.assemble b = (b', .ok code)) :
    code.size < 65536 ∧ b.pool.Extends b'.pool ∧
      List.Forall₂ (Instr.Resolves b'.pool a.labels) code.toList a.instrs.toList := by
  rw [assemble] at h
  split at h
  · next hsize =>
    obtain ⟨hextends, new, hnew, hall⟩ := assembleOnto_resolves h
    obtain rfl : code.toList = new := by simpa using hnew
    have hlength : code.size = a.size := by simpa [Assembler.size] using hall.length_eq
    exact ⟨hlength ▸ hsize, hextends, hall⟩
  · simp at h

@[simp] theorem toList_emit (a : Assembler) (i : Instr Constant) :
    (a.emit i).instrs.toList = a.instrs.toList ++ [i] := by
  simp [emit]

@[simp] theorem labels_emit (a : Assembler) (i : Instr Constant) : (a.emit i).labels = a.labels := rfl

@[simp] theorem toList_emitAll (a : Assembler) (is : List (Instr Constant)) :
    (a.emitAll is).instrs.toList = a.instrs.toList ++ is := by
  rw [emitAll]
  induction is generalizing a with
  | nil => simp
  | cons i is ih => simp [ih]

@[simp] theorem labels_emitAll (a : Assembler) (is : List (Instr Constant)) :
    (a.emitAll is).labels = a.labels := by
  rw [emitAll]
  induction is generalizing a with
  | nil => rfl
  | cons i is ih => rw [List.foldl_cons, ih, labels_emit]

end Assembler

/-! ## Straight code -/

/-- Whether an operation takes constants of the kind of this one. -/
def ConstOp.takes : ConstOp → Constant → Bool
  | loadConst, .int _ | loadConst, .long _ | loadConst, .float _ | loadConst, .double _ => true
  | loadConst, .string _ | loadConst, .classRef _ => true
  | getField, .field _ | putField, .field _ | getStatic, .field _ => true
  | invokeVirtual, .method _ | invokeStatic, .method _ | invokeSpecial, .method _ => true
  | invokeInterface, .interfaceMethod _ => true
  | newObject, .classRef _ | newArray, .classRef _ | checkCast, .classRef _ => true
  | _, _ => false

/-- Whether control goes on behind an instruction, and its constant is of the kind that it takes. -/
def Instr.isStraight : Instr Constant → Bool
  | .bare .returnVoid => false
  | .bare .returnValue => false
  | .onConst op c => op.takes c
  | .jump _ _ => false
  | _ => true

/-- Control goes on behind a straight instruction. -/
theorem Instr.Resolves.targets {pool : Pool} {labels : Array (Option UInt16)} {i : Instr UInt16}
    {i' : Instr Constant} (h : Instr.Resolves pool labels i i') (hstraight : i'.isStraight) (q : Nat) :
    i.targets q = [q + 1] := by
  cases h with
  | bare op => cases op <;> first | rfl | simp [isStraight] at hstraight
  | onLocal op slot => rfl
  | pushInt n => rfl
  | onConst op hk => rfl
  | jump op hlabel => simp [isStraight] at hstraight

/-- Control goes nowhere but to the next instruction. -/
def Instr.GoesOn (i : Instr UInt16) : Prop := ∀ q, ∀ t ∈ i.targets q, t = q + 1

/-- Whether control goes on behind an instruction, or ends with it. -/
def Instr.staysInLine (i : Instr Constant) : Bool := i.isStraight || i.endsBlock && i.target?.isNone

theorem Instr.Resolves.goesOn {pool : Pool} {labels : Array (Option UInt16)} {i : Instr UInt16}
    {i' : Instr Constant} (h : Instr.Resolves pool labels i i') (hline : i'.staysInLine) : i.GoesOn := by
  intro q t ht
  cases h with
  | bare op => cases op <;> simp_all [Instr.targets]
  | onLocal op slot => simpa [Instr.targets] using ht
  | pushInt n => simpa [Instr.targets] using ht
  | onConst op hk => simpa [Instr.targets] using ht
  | jump op hlabel => simp [staysInLine, isStraight, target?] at hline

namespace Code

variable {code : Code}

/-- The instruction at a place is the one that was written down there. -/
theorem resolves_at {pool : Pool} {labels : Array (Option UInt16)} {is : List (Instr Constant)}
    (h : List.Forall₂ (Instr.Resolves pool labels) code.toList is) {q : Nat} {i : Instr UInt16}
    (hi : code[q]? = some i) : ∃ i', is[q]? = some i' ∧ Instr.Resolves pool labels i i' := by
  obtain ⟨hlength, hall⟩ := List.forall₂_iff_get.mp h
  obtain ⟨hq, rfl⟩ := Array.getElem?_eq_some_iff.mp hi
  have hq' : q < is.length := by rw [← hlength, Array.length_toList]; exact hq
  refine ⟨is[q], List.getElem?_eq_getElem hq', ?_⟩
  exact hall q (by rw [Array.length_toList]; exact hq) hq'

/-- Each instruction that was written down stands at its place. -/
theorem resolved_at {pool : Pool} {labels : Array (Option UInt16)} {is : List (Instr Constant)}
    (h : List.Forall₂ (Instr.Resolves pool labels) code.toList is) {q : Nat} {i' : Instr Constant}
    (hi' : is[q]? = some i') : ∃ i, code[q]? = some i ∧ Instr.Resolves pool labels i i' := by
  obtain ⟨hlength, hall⟩ := List.forall₂_iff_get.mp h
  obtain ⟨hq, rfl⟩ := List.getElem?_eq_some_iff.mp hi'
  have hq' : q < code.size := by rw [← Array.length_toList, hlength]; exact hq
  refine ⟨code[q], Array.getElem?_eq_getElem hq', ?_⟩
  exact hall q (by rw [Array.length_toList]; exact hq') hq

theorem nodup_targets {i : Instr UInt16} {q : Nat} (h : i.GoesOn) : (i.targets q).Nodup := by
  rcases i with op | _ | _ | _ | ⟨op, target⟩
  · cases op <;> simp [Instr.targets]
  · simp [Instr.targets]
  · simp [Instr.targets]
  · simp [Instr.targets]
  · cases op
    case goto => simp [Instr.targets]
    case ifFalse =>
      -- A jump would go to the next instruction at every place.
      have h₀ := h 0 target.toNat (by simp [Instr.targets])
      have h₁ := h 1 target.toNat (by simp [Instr.targets])
      omega

/-- Code in which control only goes on is reached in one way. -/
theorem singleEntry_of_goesOn (h : ∀ {q : Nat} {i : Instr UInt16}, code[q]? = some i → i.GoesOn) :
    code.SingleEntry where
  first hi ht := by
    have := h hi _ _ ht
    omega
  once hi hi' ht ht' := by
    have := h hi _ _ ht
    have := h hi' _ _ ht'
    omega
  nodup hi := nodup_targets (h hi)

/-- Code that was written down without jumps is reached in one way. -/
theorem singleEntry_of_line {pool : Pool} {labels : Array (Option UInt16)} {is : List (Instr Constant)}
    (h : List.Forall₂ (Instr.Resolves pool labels) code.toList is) (hline : ∀ i ∈ is, i.staysInLine) :
    code.SingleEntry := by
  apply singleEntry_of_goesOn
  intro q i hi
  obtain ⟨i', hi', hresolves⟩ := resolves_at h hi
  exact hresolves.goesOn (hline i' (List.mem_of_getElem? hi'))

/-- Code whose only jump skips over two instructions, of which the second is a return, is reached in one
way. -/
theorem singleEntry_of_branch {q₀ : Nat} {target : UInt16}
    (hjump : code[q₀]? = some (.jump .ifFalse target)) (htarget : target.toNat = q₀ + 3)
    (hreturn : code[q₀ + 2]? = some (.bare .returnValue))
    (h : ∀ {q : Nat} {i : Instr UInt16}, code[q]? = some i → q ≠ q₀ → i.GoesOn) : code.SingleEntry := by
  have htargets : ∀ {q t : Nat} {i : Instr UInt16}, code[q]? = some i → t ∈ i.targets q →
      q = q₀ ∧ t = q₀ + 3 ∨ q ≠ q₀ + 2 ∧ t = q + 1 := by
    intro q t i hi ht
    by_cases hq : q = q₀
    · subst hq
      obtain rfl := Option.some.inj (hi.symm.trans hjump)
      simp only [Instr.targets, List.mem_cons, List.not_mem_nil, or_false, htarget] at ht
      omega
    · refine .inr ⟨?_, h hi hq q t ht⟩
      rintro rfl
      obtain rfl := Option.some.inj (hi.symm.trans hreturn)
      simp [Instr.targets] at ht
  refine ⟨?_, ?_, ?_⟩
  · intro q i hi ht
    have := htargets hi ht
    omega
  · intro q q' t i i' hi hi' ht ht'
    have := htargets hi ht
    have := htargets hi' ht'
    omega
  · intro q i hi
    by_cases hq : q = q₀
    · subst hq
      obtain rfl := Option.some.inj (hi.symm.trans hjump)
      simp [Instr.targets, htarget]
    · exact nodup_targets (h hi hq)

end Code

end Routecraft.Bytecode
