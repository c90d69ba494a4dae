import Mathlib.Data.Finset.Card
import Mathlib.Data.Set.Finite.Lattice
import Mathlib.Logic.Relation
import Mathlib.Order.OrderIsoNat
import Routecraft.Proofs.Execution.Renaming

/-!
# Texts of values

A value is written out with all that is in its arrays, and in the arrays in these. This comes to an end unless it leads
from array to array for ever, which it does once an array is within itself. Among finitely many arrays a text that has
an end has it within as many levels as there are arrays; so the depth to which texts are written out says nothing.

* `Value.isSome_displayWith`: a value has a text if all arrays in it do.
* `Store.Inner`: an array is in another one.
* `Store.isSome_display?`: **a value has a text** if there is no endless way into its arrays.
* `Store.display?_eq_some`, `Store.display?_eq_none`: **the depth is no bound**.
* `Store.display?_eq_none_iff`: **a value has no text** if it leads to an array within itself, and only then.
* `Store.Layered`, `Store.Renames.display?`: if no array is within itself, renamed values have the same text.
-/

namespace Routecraft.Machine

/-! ## Values -/

section

variable {α β : Type} {f g : α → Option β} {xs : List α}

/-- Texts are there for all of a list if there is one for each. -/
theorem isSome_mapM : (xs.mapM f).isSome ↔ ∀ x ∈ xs, (f x).isSome := by
  induction xs with
  | nil => simp
  | cons x xs ih =>
      rw [List.mapM_cons, List.forall_mem_cons, ← ih]
      cases f x <;> cases xs.mapM f <;> simp

/-- Only the values on the items of a list matter. -/
theorem mapM_congr_left (h : ∀ x ∈ xs, f x = g x) : xs.mapM f = xs.mapM g := by
  induction xs with
  | nil => rfl
  | cons x xs ih =>
      obtain ⟨hx, hxs⟩ := List.forall_mem_cons.mp h
      rw [List.mapM_cons, List.mapM_cons, hx, ih hxs]

end

namespace Value

variable {σ : Renaming} {texts texts' : Nat → Option String} {v : Value}

attribute [local simp] refs refsOfItems refsOfEntries refsOfFields rename displayWith

theorem displayItems_eq (texts : Nat → Option String) (vs : List Value) :
    displayItems texts vs = vs.mapM (displayWith texts) := by
  induction vs with
  | nil => rfl
  | cons v vs ih => rw [displayItems, ih, List.mapM_cons]

def displayEntry (texts : Nat → Option String) (e : Value × Value) : Option String := do
  return (← e.1.displayWith texts) ++ "=" ++ (← e.2.displayWith texts)

theorem displayEntries_eq (texts : Nat → Option String) (vs : List (Value × Value)) :
    displayEntries texts vs = vs.mapM (displayEntry texts) := by
  induction vs with
  | nil => rfl
  | cons e vs ih =>
      rw [displayEntries, ih, List.mapM_cons]
      unfold displayEntry
      cases e.1.displayWith texts <;> cases e.2.displayWith texts <;> rfl

theorem displayFields_eq (texts : Nat → Option String) (vs : List (String × Value)) :
    displayFields texts vs = vs.mapM fun e => (e.2.displayWith texts).map (e.1 ++ "=" ++ ·) := by
  induction vs with
  | nil => rfl
  | cons e vs ih =>
      rw [displayFields, ih, List.mapM_cons]
      cases e.2.displayWith texts <;> rfl

/-- The text of a renamed value, if its arrays have the texts that they had. -/
theorem displayWith_rename (h : ∀ n, .array n ∈ v.refs → texts' (σ.array n) = texts n) :
    (v.rename σ).displayWith texts' = v.displayWith texts := by
  have hitems {vs : List Value}
      (ih : ∀ v ∈ vs, (∀ n, .array n ∈ v.refs → texts' (σ.array n) = texts n) →
        (v.rename σ).displayWith texts' = v.displayWith texts)
      (h : ∀ n, .array n ∈ refsOfItems vs → texts' (σ.array n) = texts n) :
      displayItems texts' (renameItems σ vs) = displayItems texts vs := by
    rw [renameItems_eq, displayItems_eq, displayItems_eq, List.mapM_map]
    exact mapM_congr_left fun v hv => ih v hv fun n hn => h n (mem_refsOfItems.mpr ⟨v, hv, hn⟩)
  induction v using induct with
  | atom v hv =>
      cases v with
      | optional content => cases content <;> simp_all [isAtom]
      | array className number => exact h number (by simp)
      | _ => simp_all [isAtom]
  | boxed kind v ih => rw [rename, displayWith, displayWith, ih h]
  | reified base args ih => rw [rename, displayWith, displayWith, hitems ih h]
  | list items ih => rw [rename, displayWith, displayWith, hitems ih h]
  | set items ih => rw [rename, displayWith, displayWith, hitems ih h]
  | map entries ih =>
      rw [rename, displayWith, displayWith, renameEntries_eq, displayEntries_eq, displayEntries_eq, List.mapM_map]
      refine congrArg _ (mapM_congr_left fun e he => ?_)
      have hmem (n : Nat) (hn : .array n ∈ e.1.refs ∨ .array n ∈ e.2.refs) : texts' (σ.array n) = texts n :=
        h n (mem_refsOfEntries.mpr ⟨e, he, hn⟩)
      show displayEntry texts' (e.1.rename σ, e.2.rename σ) = displayEntry texts e
      unfold displayEntry
      rw [(ih e he).1 fun n hn => hmem n (.inl hn), (ih e he).2 fun n hn => hmem n (.inr hn)]
  | optional v ih => rw [rename, displayWith, displayWith, ih h]
  | record className fields ih =>
      rw [rename, displayWith, displayWith, renameFields_eq, displayFields_eq, displayFields_eq, List.mapM_map]
      refine congrArg _ (mapM_congr_left fun e he => ?_)
      show ((e.2.rename σ).displayWith texts').map _ = _
      rw [ih e he fun n hn => h n (mem_refsOfFields.mpr ⟨e, he, hn⟩)]

/-- The text of a value depends on the texts of the arrays in it alone. -/
theorem displayWith_congr (h : ∀ n, .array n ∈ v.refs → texts' n = texts n) :
    v.displayWith texts' = v.displayWith texts := by
  have hsame : v.rename ⟨0, 0, 0, 0⟩ = v := rename_eq_self fun r _ => by cases r <;> rfl
  have hrename : (v.rename ⟨0, 0, 0, 0⟩).displayWith texts' = v.displayWith texts := displayWith_rename h
  rwa [hsame] at hrename

/-- **A value has a text** if all arrays in it do. -/
theorem isSome_displayWith : (v.displayWith texts).isSome ↔ ∀ n, .array n ∈ v.refs → (texts n).isSome := by
  have hitems {vs : List Value}
      (ih : ∀ v ∈ vs, ((v.displayWith texts).isSome ↔ ∀ n, .array n ∈ v.refs → (texts n).isSome)) :
      (displayItems texts vs).isSome ↔ ∀ n, .array n ∈ refsOfItems vs → (texts n).isSome := by
    rw [displayItems_eq, isSome_mapM]
    constructor
    · intro h n hn
      obtain ⟨v, hv, hn⟩ := mem_refsOfItems.mp hn
      exact (ih v hv).mp (h v hv) n hn
    · intro h v hv
      exact (ih v hv).mpr fun n hn => h n (mem_refsOfItems.mpr ⟨v, hv, hn⟩)
  induction v using induct with
  | atom v hv =>
      cases v with
      | optional content => cases content <;> simp_all [isAtom]
      | _ => simp_all [isAtom]
  | boxed kind v ih => exact ih
  | reified base args ih => simpa using hitems ih
  | list items ih => simpa using hitems ih
  | set items ih => simpa using hitems ih
  | map entries ih =>
      rw [displayWith, Option.isSome_map, displayEntries_eq, isSome_mapM]
      -- A key and a value have both to be written.
      have hentry (e : Value × Value) (he : e ∈ entries) : (displayEntry texts e).isSome ↔
          ∀ n, .array n ∈ e.1.refs ∨ .array n ∈ e.2.refs → (texts n).isSome := by
        simp only [or_imp, forall_and, ← (ih e he).1, ← (ih e he).2]
        unfold displayEntry
        cases e.1.displayWith texts <;> cases e.2.displayWith texts <;> simp
      constructor
      · intro h n hn
        obtain ⟨e, he, hn⟩ := mem_refsOfEntries.mp hn
        exact (hentry e he).mp (h e he) n hn
      · intro h e he
        exact (hentry e he).mpr fun n hn => h n (mem_refsOfEntries.mpr ⟨e, he, hn⟩)
  | optional v ih => simpa using ih
  | record className fields ih =>
      rw [displayWith, Option.isSome_map, displayFields_eq, isSome_mapM]
      constructor
      · intro h n hn
        obtain ⟨e, he, hn⟩ := mem_refsOfFields.mp hn
        exact (ih e he).mp (by simpa using h e he) n hn
      · intro h e he
        rw [Option.isSome_map]
        exact (ih e he).mpr fun n hn => h n (mem_refsOfFields.mpr ⟨e, he, hn⟩)

/-- Arrays that keep their texts let a value keep its own. -/
theorem displayWith_mono (h : ∀ n text, texts n = some text → texts' n = some text) {text : String}
    (hv : v.displayWith texts = some text) : v.displayWith texts' = some text := by
  have harrays := isSome_displayWith.mp (Option.isSome_of_eq_some hv)
  rw [← hv]
  apply displayWith_congr
  intro n hn
  obtain ⟨part, hpart⟩ := Option.isSome_iff_exists.mp (harrays n hn)
  rw [h n part hpart, hpart]

end Value

/-! ## Arrays -/

namespace Store

variable {s s' : Store} {σ : Renaming} {v : Value} {depth : Nat} {text : String}

/-- The array `m` is in the array `n`. -/
def Inner (s : Store) (m n : Nat) : Prop := ∃ v ∈ s.items n, .array m ∈ v.refs

/-- The text of an array, if the arrays in it end within one level less than a depth. -/
def arrayWithin (s : Store) : (depth : Nat) → Nat → Option String
  | 0, _ => none
  | depth + 1, n => ((s.items n).mapM (s.displayWithin depth)).map Value.displayArray

/-- The text within a depth is made from those of the arrays within it. -/
theorem displayWithin_eq (s : Store) (depth : Nat) (v : Value) :
    s.displayWithin depth v = v.displayWith (s.arrayWithin depth) := by
  cases depth <;> rfl

/-- A value has a text within a depth if each array in it has one. -/
theorem isSome_displayWithin :
    (s.displayWithin depth v).isSome ↔ ∀ n, .array n ∈ v.refs → (s.arrayWithin depth n).isSome := by
  rw [displayWithin_eq, Value.isSome_displayWith]

/-- **One level of arrays**: an array has a text if the arrays in it have one at the next lower depth. -/
theorem isSome_arrayWithin_succ {n : Nat} :
    (s.arrayWithin (depth + 1) n).isSome ↔ ∀ m, s.Inner m n → (s.arrayWithin depth m).isSome := by
  simp only [arrayWithin, Option.isSome_map, isSome_mapM, isSome_displayWithin]
  constructor
  · rintro h m ⟨v, hv, hm⟩
    exact h v hv m hm
  · intro h v hv m hm
    exact h m ⟨v, hv, hm⟩

/-- What is complete at a depth is the same at every larger one. -/
theorem displayWithin_of_le {depth' : Nat} (hle : depth ≤ depth') (h : s.displayWithin depth v = some text) :
    s.displayWithin depth' v = some text := by
  induction depth generalizing depth' v text with
  | zero =>
      rw [displayWithin_eq] at h ⊢
      apply Value.displayWith_mono _ h
      intro n part hpart
      cases hpart
  | succ depth ih =>
      obtain ⟨depth', rfl⟩ := Nat.exists_eq_add_of_le' (Nat.lt_of_lt_of_le (Nat.succ_pos _) hle)
      rw [displayWithin_eq] at h ⊢
      refine Value.displayWith_mono (fun n part hpart => ?_) h
      show ((s.items n).mapM (s.displayWithin depth')).map Value.displayArray = some part
      -- Each item has a text at the lower depth, which it keeps.
      have hitems : ∀ w ∈ s.items n, (s.displayWithin depth w).isSome := by
        apply isSome_mapM.mp
        rw [← Option.isSome_map]
        exact Option.isSome_of_eq_some hpart
      rw [← hpart]
      refine congrArg _ (mapM_congr_left fun w hw => ?_)
      obtain ⟨inner, hinner⟩ := Option.isSome_iff_exists.mp (hitems w hw)
      rw [hinner]
      exact ih (Nat.le_of_succ_le_succ hle) hinner

/-- An array that has a text within a depth has one within any larger depth. -/
theorem isSome_arrayWithin_mono {depth' n : Nat} (hle : depth ≤ depth') (h : (s.arrayWithin depth n).isSome) :
    (s.arrayWithin depth' n).isSome := by
  have htext : ∀ d, s.displayWithin d (.array "" n) = s.arrayWithin d n := fun d => displayWithin_eq s d _
  rw [← htext] at h ⊢
  obtain ⟨text, h⟩ := Option.isSome_iff_exists.mp h
  exact Option.isSome_of_eq_some (displayWithin_of_le hle h)

/-! ## Enough depth -/

/-- The arrays that end within a depth. -/
def endingWithin (s : Store) (depth : Nat) : Finset Nat :=
  (Finset.range s.arrays.size).filter fun n => (s.arrayWithin depth n).isSome

/-- With each level more arrays end, until no further level makes a difference. -/
theorem stable_or_card_le (s : Store) (depth : Nat) :
    (∀ n, (s.arrayWithin (depth + 2) n).isSome → (s.arrayWithin (depth + 1) n).isSome) ∨
      depth < (s.endingWithin (depth + 2)).card := by
  by_cases hstable : ∀ n, (s.arrayWithin (depth + 2) n).isSome → (s.arrayWithin (depth + 1) n).isSome
  · exact .inl hstable
  · right
    push Not at hstable
    obtain ⟨n, hn, hnot⟩ := hstable
    -- A number without an array ends at once.
    have hlt : n < s.arrays.size := by
      by_contra hge
      apply hnot
      apply isSome_arrayWithin_succ.mpr
      rintro m ⟨v, hv, -⟩
      simp [items, Nat.not_lt.mp hge] at hv
    have hsub : s.endingWithin (depth + 1) ⊂ s.endingWithin (depth + 2) := by
      rw [Finset.ssubset_iff_of_subset]
      · exact ⟨n, by simp [endingWithin, hlt, hn], by simp [endingWithin, hnot]⟩
      · intro m hm
        simp only [endingWithin, Finset.mem_filter] at hm ⊢
        exact ⟨hm.1, isSome_arrayWithin_mono (Nat.le_succ _) hm.2⟩
    have hcard := Finset.card_lt_card hsub
    cases depth with
    | zero => omega
    | succ depth =>
        rcases stable_or_card_le s depth with hstable | hle
        · refine absurd (isSome_arrayWithin_succ.mpr fun m hm => ?_) hnot
          exact hstable m (isSome_arrayWithin_succ.mp hn m hm)
        · exact Nat.lt_of_le_of_lt hle hcard

/-- **There are no more levels than arrays.** -/
theorem isSome_arrayWithin_of_acc {n : Nat} (h : Acc s.Inner n) : (s.arrayWithin (s.arrays.size + 1) n).isSome := by
  have hstable : ∀ n, (s.arrayWithin (s.arrays.size + 2) n).isSome → (s.arrayWithin (s.arrays.size + 1) n).isSome := by
    refine (stable_or_card_le s s.arrays.size).resolve_right ?_
    have hcard : (s.endingWithin (s.arrays.size + 2)).card ≤ s.arrays.size := by
      rw [← Finset.card_range s.arrays.size]
      exact Finset.card_filter_le _ _
    omega
  induction h with
  | intro n _ ih =>
      apply hstable
      exact isSome_arrayWithin_succ.mpr ih

/-- Below an array that has a text there is no endless chain of arrays. -/
theorem acc_of_isSome {n : Nat} (h : (s.arrayWithin depth n).isSome) : Acc s.Inner n := by
  induction depth generalizing n with
  | zero => cases h
  | succ depth ih => exact ⟨n, fun m hm => ih (isSome_arrayWithin_succ.mp h m hm)⟩

/-- The depth is at least the count of the arrays, and one. -/
theorem succ_size_le_displayDepth (s : Store) : s.arrays.size + 1 ≤ s.displayDepth :=
  Nat.succ_le_succ (Nat.le_mul_of_pos_left _ (by decide))

/-- **A value has a text** unless there is an endless way into its arrays. -/
theorem isSome_display? : (s.display? v).isSome ↔ ∀ n, .array n ∈ v.refs → Acc s.Inner n := by
  unfold display?
  rw [isSome_displayWithin]
  constructor
  · intro h n hn
    exact acc_of_isSome (h n hn)
  · intro h n hn
    exact isSome_arrayWithin_mono s.succ_size_le_displayDepth (isSome_arrayWithin_of_acc (h n hn))

/-- **The depth is no bound** for texts: those that are complete at any depth at all are all there are. -/
theorem display?_eq_some : s.display? v = some text ↔ ∃ depth, s.displayWithin depth v = some text := by
  constructor
  · intro h
    exact ⟨s.displayDepth, h⟩
  · rintro ⟨depth, h⟩
    have hsome : (s.display? v).isSome := by
      rw [isSome_display?]
      intro n hn
      exact acc_of_isSome (isSome_displayWithin.mp (Option.isSome_of_eq_some h) n hn)
    obtain ⟨text', h'⟩ := Option.isSome_iff_exists.mp hsome
    have hmax := displayWithin_of_le (Nat.le_max_left depth s.displayDepth) h
    rw [displayWithin_of_le (Nat.le_max_right depth s.displayDepth) h'] at hmax
    rw [h', hmax]

/-- A value without a text is not written out to its end at any depth. -/
theorem display?_eq_none : s.display? v = none ↔ ∀ depth, s.displayWithin depth v = none := by
  simp only [Option.eq_none_iff_forall_ne_some, ne_eq, display?_eq_some]
  constructor
  · intro h depth text htext
    exact h text ⟨depth, htext⟩
  · rintro h text ⟨depth, htext⟩
    exact h depth text htext

/-! ## Arrays within themselves -/

/-- A value leads to an array that is within itself. -/
def Looped (s : Store) (v : Value) : Prop :=
  ∃ m n, .array m ∈ v.refs ∧ Relation.ReflTransGen s.Inner n m ∧ Relation.TransGen s.Inner n n

/-- A value that refers to nothing is not looped. -/
theorem not_looped_of_refs (h : v.refs = []) : ¬s.Looped v := by
  rintro ⟨m, -, hm, -⟩
  rw [h] at hm
  cases hm

/-- Which values lead to arrays within themselves depends on the arrays alone. -/
theorem Looped.congr (hlooped : s.Looped v) (h : s'.arrays = s.arrays) : s'.Looped v := by
  have hinner : s'.Inner = s.Inner := by
    funext m n
    rw [Inner, Inner, items, items, h]
  unfold Looped at hlooped ⊢
  rwa [hinner]

/-- An array from which there is an endless way leads to one within itself, as there are only so many arrays. -/
theorem exists_inner_self {m : Nat} (h : ¬Acc s.Inner m) :
    ∃ n, Relation.ReflTransGen s.Inner n m ∧ Relation.TransGen s.Inner n n := by
  obtain ⟨chain, rfl, hchain⟩ := not_acc_iff_exists_descending_chain.mp h
  have hlt : ∀ i, chain i ∈ Set.Iio s.arrays.size := by
    intro i
    by_contra hge
    obtain ⟨v, hv, -⟩ := hchain i
    simp [items, Set.notMem_Iio.mp hge] at hv
  have hdown : ∀ i j, i < j → Relation.TransGen s.Inner (chain j) (chain i) := by
    intro i j hij
    induction hij with
    | refl => exact .single (hchain i)
    | step _ ih => exact .head (hchain _) ih
  obtain ⟨i, j, hij, heq⟩ := (Set.finite_Iio s.arrays.size).exists_lt_map_eq_of_forall_mem hlt
  refine ⟨chain i, ?_, ?_⟩
  · rcases Nat.eq_zero_or_pos i with rfl | hpos
    · exact .refl
    · exact (hdown 0 i hpos).to_reflTransGen
  · have hself := hdown i j hij
    rwa [← heq] at hself

/-- An array below which no chain is endless is not below itself. -/
theorem not_inner_self_of_acc {n : Nat} (h : Acc s.Inner n) : ¬Relation.TransGen s.Inner n n := by
  intro hn
  have hacc : Acc (Relation.TransGen s.Inner) n := acc_transGen_iff.mpr h
  clear h
  induction hacc with
  | intro n _ ih => exact ih n hn hn

/-- **A value has no text** exactly if it leads to an array within itself. -/
theorem display?_eq_none_iff : s.display? v = none ↔ s.Looped v := by
  rw [← Option.not_isSome_iff_eq_none, isSome_display?]
  constructor
  · intro h
    push Not at h
    obtain ⟨m, hm, hacc⟩ := h
    obtain ⟨n, hnm, hn⟩ := exists_inner_self hacc
    exact ⟨m, n, hm, hnm, hn⟩
  · rintro ⟨m, n, hm, hnm, hn⟩ h
    have hacc : Acc s.Inner n := by
      clear hn
      induction hnm using Relation.ReflTransGen.head_induction_on with
      | refl => exact h m hm
      | head hstep _ ih => exact ih.inv hstep
    exact not_inner_self_of_acc hacc hn

/-- No array is within itself: the arrays have ranks below their count, and an array refers only to those of smaller
rank. -/
def Layered (s : Store) : Prop :=
  ∃ rank : Nat → Nat, (∀ n < s.arrays.size, rank n < s.arrays.size) ∧
    ∀ n, ∀ v ∈ s.items n, ∀ m, .array m ∈ v.refs → rank m < rank n

/-- If no array is within itself, all values have texts. -/
theorem Layered.isSome_display? (h : s.Layered) (v : Value) : (s.display? v).isSome := by
  obtain ⟨rank, -, hrank⟩ := h
  rw [Store.isSome_display?]
  have hlt : ∀ m n, s.Inner m n → rank m < rank n := fun m n ⟨v, hv, hm⟩ => hrank n v hv m hm
  exact fun n _ => (Subrelation.wf (hlt _ _) (measure rank).wf).apply n

/-- Renamed values have the same text within a depth. -/
theorem Renames.displayWithin (h : s.Renames σ s') (depth : Nat) (v : Value) :
    s'.displayWithin depth (v.rename σ) = s.displayWithin depth v := by
  induction depth generalizing v with
  | zero => exact Value.displayWith_rename fun _ _ => rfl
  | succ depth ih =>
      refine Value.displayWith_rename fun n _ => ?_
      rw [h.items, List.mapM_map]
      exact congrArg _ (mapM_congr_left fun w _ => ih w)

/-- **Renamed values have the same text.** -/
theorem Renames.display? (h : s.Renames σ s') (hlayered : s.Layered) (v : Value) :
    s'.display? (v.rename σ) = s.display? v := by
  obtain ⟨text, htext⟩ := Option.isSome_iff_exists.mp (hlayered.isSome_display? v)
  rw [htext, display?_eq_some]
  exact ⟨s.displayDepth, (h.displayWithin _ v).trans htext⟩

end Store

end Routecraft.Machine
