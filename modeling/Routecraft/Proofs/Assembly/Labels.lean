import Mathlib.Data.List.Induction
import Routecraft.Proofs.Assembly.Assembling

/-!
# Labels

Code is written down by calls on an assembler, and a jump goes to where its label was bound last. A label is known
by its number, in the order in which an assembler makes them; the numbers have 16 bits, and the last of them stands
for all labels that come later.

* `Assembler.Call`, `Assembler.written`: calls, and the code that they write down.
* `Assembler.Share`: labels that have the same number.
* `Assembler.labels_written`: where a label is bound.
* `Assembler.assembled_as_called`: what assembling makes of the calls.
-/

namespace Routecraft.Bytecode.Assembler

/-- A call on an assembler. A label is told by how many were made before it. -/
inductive Call where
  | emit (i : Instr Constant) (plain : i.target? = none)
  | newLabel
  | bind (label : Nat)
  | jump (op : JumpOp) (label : Nat)

/-- The label that an assembler makes when it has made `n` labels. -/
def nthLabel (n : Nat) : Label := ⟨saturate16 n⟩

def perform (a : Assembler) : Call → Assembler
  | .emit i _ => a.emit i
  | .newLabel => a.newLabel.2
  | .bind n => a.bind (nthLabel n)
  | .jump op n => a.jump op (nthLabel n)

/-- The code that calls write down. -/
def written (calls : List Call) : Assembler := calls.foldl perform .empty

def Call.instr? : Call → Option (Instr Constant)
  | .emit i _ => some i
  | .jump op n => some (.jump op (nthLabel n).number)
  | .newLabel | .bind _ => none

/-- The calls that write an instruction down, in order. -/
def emitted (calls : List Call) : List Call := calls.filter (·.instr?.isSome)

/-- How many labels are made by calls. -/
def labelCount (calls : List Call) : Nat := calls.countP fun | .newLabel => true | _ => false

/-- Whether two labels have the same number, which all labels share that do not have one of their own. -/
def Share (m n : Nat) : Prop := m = n ∨ 65535 ≤ m ∧ 65535 ≤ n

/-- Whether a label, or one that shares its number, is bound last where `place` instructions are written down. -/
def BoundLast (calls : List Call) (n place : Nat) : Prop :=
  ∃ before m after, calls = before ++ .bind m :: after ∧ Share m n ∧
    (∀ m', .bind m' ∈ after → ¬Share m' n) ∧ (emitted before).length = place

/-- What becomes of the instruction that a call writes down. -/
inductive Becomes (pool : Pool) (calls : List Call) : Instr UInt16 → Call → Prop
  | emit {i : Instr UInt16} {i' : Instr Constant} {plain : i'.target? = none} :
      Instr.Resolves pool #[] i i' → Becomes pool calls i (.emit i' plain)
  | jump (op : JumpOp) {n : Nat} {place : UInt16} :
      BoundLast calls n place.toNat → Becomes pool calls (.jump op place) (.jump op n)

variable {calls : List Call} {m n : Nat}

/-! ## Numbers of labels -/

/-- Labels share a place if they have the same number. -/
theorem share_iff : Share m n ↔ (nthLabel m).number.toNat = (nthLabel n).number.toNat := by
  rw [nthLabel, nthLabel, toNat_saturate16, toNat_saturate16, Share]
  omega

/-! ## What is written down -/

/-- What one more call writes down comes behind what was there. -/
theorem written_concat (calls : List Call) (c : Call) : written (calls ++ [c]) = (written calls).perform c := by
  simp [written]

/-- The calls write down their instructions, in order. -/
theorem toList_written (calls : List Call) : (written calls).instrs.toList = calls.filterMap Call.instr? := by
  induction calls using List.reverseRecOn with
  | nil => rfl
  | append_singleton calls c ih =>
      rw [written_concat, List.filterMap_append, ← ih]
      cases c with
      | emit i plain => simp [perform, Call.instr?]
      | newLabel => simp [perform, newLabel, Call.instr?]
      | bind n => simp [perform, bind, Call.instr?]
      | jump op n => simp [perform, jump, Call.instr?]

/-- As many calls are noted as instructions were written down. -/
theorem length_emitted (calls : List Call) : (emitted calls).length = (written calls).size := by
  rw [size, ← Array.length_toList, toList_written, List.length_filterMap_eq_countP, emitted,
    List.countP_eq_length_filter]

/-- As many labels are known as were made. -/
theorem size_labels_written (calls : List Call) : (written calls).labels.size = labelCount calls := by
  induction calls using List.reverseRecOn with
  | nil => rfl
  | append_singleton calls c ih =>
      rw [written_concat, labelCount, List.countP_append, ← labelCount, ← ih]
      cases c with
      | emit i plain => simp [perform, emit]
      | newLabel => simp [perform, newLabel]
      | bind n => simp [perform, bind]
      | jump op n => simp [perform, jump, emit]

/-- Labels are made in the order of their numbers. -/
theorem newLabel_written (calls : List Call) : (written calls).newLabel.1 = nthLabel (labelCount calls) := by
  rw [← size_labels_written]
  rfl

/-- **A label that has a place** got it where it was bound last. -/
theorem labels_written {k : Nat} {place : UInt16} (h : (written calls).labels[k]? = some (some place)) :
    ∃ before m after, calls = before ++ .bind m :: after ∧ (nthLabel m).number.toNat = k ∧
      (∀ m', .bind m' ∈ after → (nthLabel m').number.toNat ≠ k) ∧ place = saturate16 (emitted before).length := by
  induction calls using List.reverseRecOn with
  | nil => simp [written, empty] at h
  | append_singleton calls c ih =>
      rw [written_concat] at h
      -- The last call may bind a label of this number; otherwise the label has its place from before.
      by_cases hbind : ∃ n, c = .bind n ∧ (nthLabel n).number.toNat = k
      · obtain ⟨n, rfl, hk⟩ := hbind
        refine ⟨calls, n, [], rfl, hk, by simp, ?_⟩
        simp only [perform, bind, hk, Array.getElem?_setIfInBounds, if_true] at h
        split at h
        · rw [length_emitted]
          simpa using h.symm
        · cases h
      · have hold : (written calls).labels[k]? = some (some place) := by
          cases c with
          | emit i plain => exact h
          | newLabel =>
              simp only [perform, newLabel, Array.getElem?_push] at h
              split at h
              · cases h
              · exact h
          | bind n =>
              simp only [perform, bind, Array.getElem?_setIfInBounds] at h
              split at h
              · next hk => exact absurd ⟨n, rfl, hk⟩ hbind
              · exact h
          | jump op n => exact h
        obtain ⟨before, m, after, rfl, hm, hafter, hplace⟩ := ih hold
        refine ⟨before, m, after ++ [c], by simp, hm, ?_, hplace⟩
        intro m' hm'
        rcases List.mem_append.mp hm' with hm' | hm'
        · exact hafter m' hm'
        · intro hk
          exact hbind ⟨m', (List.mem_singleton.mp hm').symm, hk⟩

/-! ## What is assembled -/

theorem forall₂_emitted {R : Instr UInt16 → Instr Constant → Prop} {is : List (Instr UInt16)}
    (h : List.Forall₂ R is (calls.filterMap Call.instr?)) :
    List.Forall₂ (fun i c => ∃ i', c.instr? = some i' ∧ R i i') is (emitted calls) := by
  induction calls generalizing is with
  | nil =>
      cases h
      exact .nil
  | cons c calls ih =>
      cases hc : c.instr? with
      | none =>
          rw [List.filterMap_cons_none hc] at h
          rw [emitted, List.filter_cons_of_neg (by simp [hc])]
          exact ih h
      | some i' =>
          rw [List.filterMap_cons_some hc] at h
          rw [emitted, List.filter_cons_of_pos (by simp [hc])]
          cases h with
          | cons hi hrest => exact .cons ⟨i', hc, hi⟩ (ih hrest)

/-- The places of labels are not cut off in code that is short enough. -/
theorem boundLast_of_labels {place : UInt16} (hsize : (written calls).size < 65536)
    (h : (written calls).labels[(nthLabel n).number.toNat]? = some (some place)) : BoundLast calls n place.toNat := by
  obtain ⟨before, m, after, rfl, hm, hafter, rfl⟩ := labels_written h
  refine ⟨before, m, after, rfl, share_iff.mpr hm, fun m' hm' hshare => hafter m' hm' (share_iff.mp hshare), ?_⟩
  have hlength : (emitted before).length ≤ (emitted (before ++ .bind m :: after)).length := by
    rw [emitted, emitted, List.filter_append, List.length_append]
    exact Nat.le_add_right _ _
  rw [length_emitted (before ++ _)] at hlength
  rw [toNat_saturate16]
  omega

/-- What an instruction resolves to is what its call stands for. -/
theorem becomes_of_resolves {pool : Pool} {i : Instr UInt16} {i' : Instr Constant} {c : Call}
    (hsize : (written calls).size < 65536) (hc : c.instr? = some i')
    (h : Instr.Resolves pool (written calls).labels i i') : Becomes pool calls i c := by
  cases c with
  | emit j plain =>
      obtain rfl := Option.some.inj hc
      apply Becomes.emit
      cases h with
      | bare op => exact .bare op
      | onLocal op slot => exact .onLocal op slot
      | pushInt k => exact .pushInt k
      | onConst op hk => exact .onConst op hk
      | jump op hlabel => cases plain
  | jump op n =>
      obtain rfl := Option.some.inj hc
      cases h with
      | jump op hlabel => exact .jump op (boundLast_of_labels hsize hlabel)
  | newLabel => cases hc
  | bind n => cases hc

/-- **Assembled code is as it was called for.** Each instruction stands for a call, with its constant in the pool,
and each jump goes to where its label was bound last; code with a label that is never bound is not assembled. Only
labels that share a number take each other's place, which the first 65536 labels of an assembler do not. -/
theorem assembled_as_called (calls : List Call) (b : Interner) :
    (∀ b' code, (written calls).assemble b = (b', .ok code) →
      List.Forall₂ (Becomes b'.pool calls) code.toList (emitted calls)) ∧
    (∀ op n, .jump op n ∈ calls → (∀ m, .bind m ∈ calls → ¬Share m n) →
      ∃ b' e, (written calls).assemble b = (b', .error e)) ∧
    (written calls).newLabel.1 = nthLabel (labelCount calls) ∧
    ∀ m n, m < 65536 → n < 65536 → (Share m n ↔ m = n) := by
  have hcode : ∀ b' code, (written calls).assemble b = (b', .ok code) →
      List.Forall₂ (Becomes b'.pool calls) code.toList (emitted calls) := by
    intro b' code h
    obtain ⟨hsize, -, hresolves⟩ := assemble_resolves h
    have hlength : code.size = (written calls).size := by simpa [size] using hresolves.length_eq
    rw [toList_written] at hresolves
    apply (forall₂_emitted hresolves).imp
    rintro i c ⟨i', hc, hi⟩
    exact becomes_of_resolves (hlength ▸ hsize) hc hi
  refine ⟨hcode, ?_, newLabel_written calls, ?_⟩
  · intro op n hjump hunbound
    rcases h : (written calls).assemble b with ⟨b', e | code⟩
    · exact ⟨b', e, rfl⟩
    · -- The code would have an instruction for the jump, and so a place for its label.
      have hmem : Call.jump op n ∈ emitted calls := List.mem_filter.mpr ⟨hjump, rfl⟩
      obtain ⟨i, -, hi⟩ := exists_left_of_mem (hcode b' code h) hmem
      cases hi with
      | jump op hbound =>
          obtain ⟨before, m, after, rfl, hshare, -⟩ := hbound
          exact absurd hshare (hunbound m (by simp))
  · intro m n hm hn
    unfold Share
    omega

/-! ## Too many labels -/

theorem written_newLabels (n : Nat) : written (List.replicate n .newLabel) = ⟨#[], Array.replicate n none⟩ := by
  induction n with
  | zero => rfl
  | succ n ih =>
      rw [List.replicate_succ', written_concat, ih]
      simp [perform, newLabel, Array.replicate_succ]

/-- Calls that make one label more than there are numbers. The last two labels are bound at different places, and
the jump is to the first of them. -/
def crowded : List Call :=
  List.replicate 65537 .newLabel ++
    [.bind 65535, .emit .null rfl, .bind 65536, .emit .pop rfl, .jump .goto 65535]

/-- After so many labels the last two share a place, and a jump to the one goes where the other is. -/
theorem written_crowded : ∃ labels : Array (Option UInt16), labels[65535]? = some (some 1) ∧
    written crowded = ⟨#[.null, .pop, .jump .goto 65535], labels⟩ := by
  have hrest (labels : Array (Option UInt16)) :
      [.bind 65535, .emit .null rfl, .bind 65536, .emit .pop rfl, .jump .goto 65535].foldl perform ⟨#[], labels⟩ =
        ⟨#[.null, .pop, .jump .goto 65535], (labels.setIfInBounds 65535 (some 0)).setIfInBounds 65535 (some 1)⟩ :=
    rfl
  refine ⟨((Array.replicate 65537 none).setIfInBounds 65535 (some 0)).setIfInBounds 65535 (some 1), ?_, ?_⟩
  · rw [Array.getElem?_setIfInBounds, if_pos rfl, if_pos]
    rw [Array.size_setIfInBounds, Array.size_replicate]
    omega
  · rw [crowded, written, List.foldl_append, ← written, written_newLabels, hrest]

/-- **The last two labels are confused**: one of them is bound in front of all instructions, and never again, but
the jump to it goes to where the other one is bound. -/
theorem crowded_confused :
    (∃ before after, crowded = before ++ .bind 65535 :: after ∧ emitted before = [] ∧ .bind 65535 ∉ after) ∧
    (written crowded).assemble .empty = (.empty, .ok #[.bare .pushNull, .bare .pop, .jump .goto 1]) := by
  constructor
  · refine ⟨_, _, rfl, ?_, by simp⟩
    rw [emitted, List.filter_replicate]
    rfl
  · obtain ⟨labels, hplace, hwritten⟩ := written_crowded
    rw [hwritten, assemble, if_pos (by simp [size])]
    simp [assembleOnto, assembleInstr, Instr.null, Instr.pop, hplace]

end Routecraft.Bytecode.Assembler
