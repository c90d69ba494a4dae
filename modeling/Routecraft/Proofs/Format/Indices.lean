import Mathlib.Data.List.Nodup
import Routecraft.Bytecode.Encoding
import Routecraft.Proofs.Assembly.Pools

/-!
# The indices of constants

A constant that has been entered keeps its index, whatever is entered behind it. Whether it is in the pool is told by
the index of places and not by the pool itself, so all rests on the two going together: of a constant that stands in
the pool more than once, as it may in a pool that was read, the index has the first place. This is what an `Interner`
consists of, and each constant that is entered or read keeps it so. What is left to show is what it means for the
indices that are handed out.

* `Interner.read`, `Interner.read_pool`: a pool that was read may be added to.
* `Interner.internEach`: entering constants one after the other, whether there is room for them or not.
* `Interner.extends_internEach`: the pool is left at the front of the longer one.
* `Interner.get_internEach`: a constant is found at its index from then on.
* `Interner.nodup_internEach`: what is entered into a pool without repetitions repeats nothing.
* `Interner.indices_stable`: all of it together.
-/

namespace Routecraft.Bytecode.Interner

variable {b b' : Interner} {c : Constant}

/-! ## Pools that are read -/

/-- Reads so many constants behind those of a pool, whether the pool holds them or not. -/
def readOnto : (count : Nat) → (b : Interner) → Reader Interner
  | 0, b, bytes => .ok (b, bytes)
  | count + 1, b, bytes =>
    match Constant.read bytes with
    | .ok (c, rest) =>
      if h : b.pool.size < poolLimit then readOnto count (b.append c h) rest
      else .error (.tableOverflow "constant pool")
    | .error e => .error e

/-- Reads a pool that may be added to. -/
def read : Reader Interner := fun bytes => do
  let (count, bytes) ← read16 "constant pool count" bytes
  readOnto count.toNat .empty bytes

/-- Entries are read on behind those that were read before. -/
theorem readOnto_constants {count : Nat} (hcount : b.pool.size + count ≤ poolLimit) {done : List Constant}
    (hdone : b.pool.toList = done.reverse) (bytes : List UInt8) :
    (readOnto count b bytes).map (fun (b, rest) => (b.pool.toList, rest)) =
      readManyOnto Constant.read count done bytes := by
  induction count generalizing b done bytes with
  | zero => rw [readOnto, readManyOnto, ← hdone]; rfl
  | succ count ih =>
      rw [readOnto, readManyOnto]
      rcases Constant.read bytes with e | ⟨c, rest⟩
      · rfl
      · have hroom : b.pool.size < poolLimit := by omega
        have hlist : (b.append c hroom).pool.toList = (c :: done).reverse := by
          rw [List.reverse_cons, ← hdone]
          exact Pool.toList_push _ _
        have hsize : (b.append c hroom).pool.size = b.pool.size + 1 := Pool.size_push _ _
        simp only [hroom, dif_pos]
        exact ih (by omega) hlist rest

/-- **Every pool that can be read can be read so that it may be added to**, and with the same errors if it cannot. -/
theorem read_pool (bytes : List UInt8) :
    (Interner.read bytes).map (fun (b, rest) => (b.pool, rest)) = Pool.read bytes := by
  unfold Interner.read Pool.read
  rcases read16 "constant pool count" bytes with e | ⟨count, rest⟩
  · rfl
  · have hcount : empty.pool.size + count.toNat ≤ poolLimit := by
      have := count.toNat_lt
      show 0 + count.toNat ≤ 65536
      omega
    have hconstants : (readOnto count.toNat .empty rest).map (fun (b, rest) => (b.pool.toList, rest)) =
        readManyOnto Constant.read count.toNat [] rest := readOnto_constants hcount rfl rest
    show (readOnto count.toNat .empty rest).map _ = (readManyOnto Constant.read count.toNat [] rest >>= _)
    rw [← hconstants]
    rcases readOnto count.toNat .empty rest with e | ⟨b, rest'⟩
    · rfl
    · rfl

/-- A pool that can be read is that of an interner. -/
theorem exists_read {p : Pool} {bytes rest : List UInt8} (h : Pool.read bytes = .ok (p, rest)) :
    ∃ b : Interner, Interner.read bytes = .ok (b, rest) ∧ b.pool = p := by
  rw [← read_pool] at h
  rcases hread : Interner.read bytes with e | ⟨b, rest'⟩
  · rw [hread] at h
    cases h
  · rw [hread] at h
    cases h
    exact ⟨b, rfl, rfl⟩

/-! ## Entering one constant -/

/-- Interning a constant never puts it in twice. -/
theorem nodup_intern (hb : b.pool.toList.Nodup) (c : Constant) : (b.intern c).1.pool.toList.Nodup := by
  rcases b.intern_cases c with ⟨-, i, h, -⟩ | ⟨hnew, b', i, h, -, hlist⟩ | ⟨-, -, h⟩
  · rw [h]
    exact hb
  · rw [h, hlist, ← List.concat_eq_append]
    exact hb.concat hnew
  · rw [h]
    exact hb

/-- A constant that cannot be entered is new to a full pool, which stays as it was. -/
theorem intern_eq_error {e : UnitError} (h : (b.intern c).2 = .error e) :
    (b.intern c).1 = b ∧ c ∉ b.pool.toList ∧ b.pool.size = poolLimit := by
  rcases b.intern_cases c with ⟨-, i, hc, -⟩ | ⟨-, b', i, hc, -⟩ | ⟨hnew, hfull, hc⟩
  · rw [hc] at h
    cases h
  · rw [hc] at h
    cases h
  · rw [hc]
    exact ⟨rfl, hnew, hfull⟩

/-! ## Entering one constant after the other -/

/-- Enters constants one after the other, and goes on if there is no room for one. -/
def internEach (b : Interner) (cs : List Constant) : Interner := cs.foldl (fun b c => (b.intern c).1) b

/-- Interning adds to the pool. -/
theorem extends_internEach (b : Interner) (cs : List Constant) : b.pool.Extends (b.internEach cs).pool := by
  induction cs generalizing b with
  | nil => exact .refl _
  | cons c cs ih => exact (b.intern_extends c).trans (ih _)

/-- Interning constants never puts one in twice. -/
theorem nodup_internEach (hb : b.pool.toList.Nodup) (cs : List Constant) : (b.internEach cs).pool.toList.Nodup := by
  induction cs generalizing b with
  | nil => exact hb
  | cons c cs ih => exact ih (nodup_intern hb c)

/-- A constant that was entered is found at its index, whatever is entered behind it. -/
theorem get_internEach {i : UInt16} (h : (b.intern c).2 = .ok i) (later : List Constant) :
    ((b.intern c).1.internEach later).pool.get i = .ok c := by
  obtain ⟨-, hget⟩ := intern_get (show b.intern c = ((b.intern c).1, .ok i) from Prod.ext rfl h)
  exact (extends_internEach _ later).get hget

/-- **The indices of constants are stable.** Whatever pool is added to, be it one that was read or one that constants
have been entered into, a constant that is entered is at the index that it was told, whatever is entered later. One that
the pool holds is told the place where it first stands, and nothing changes, also if there is no room left. A new one
goes to the end, and nothing else does. It finds no room only if all places are taken, and the pool stays as it was. So
a pool that has come about by entering constants alone holds each of them once. -/
theorem indices_stable :
    (∀ bytes p rest, Pool.read bytes = .ok (p, rest) →
      ∃ b : Interner, Interner.read bytes = .ok (b, rest) ∧ b.pool = p) ∧
    (∀ (b : Interner) (c : Constant),
      (∀ i, (b.intern c).2 = .ok i → ∀ later, ((b.intern c).1.internEach later).pool.get i = .ok c) ∧
      (c ∈ b.pool.toList → ∃ i, b.intern c = (b, .ok i) ∧ i.toNat = b.pool.toList.idxOf c) ∧
      (c ∉ b.pool.toList → b.pool.size < poolLimit →
        ∃ b' i, b.intern c = (b', .ok i) ∧ i.toNat = b.pool.size ∧ b'.pool.toList = b.pool.toList ++ [c]) ∧
      (∀ e, (b.intern c).2 = .error e → (b.intern c).1 = b ∧ c ∉ b.pool.toList ∧ b.pool.size = poolLimit)) ∧
    ∀ cs, (empty.internEach cs).pool.toList.Nodup := by
  refine ⟨fun _ _ _ => exists_read, fun b c => ⟨fun _ => get_internEach, ?_, ?_, fun _ => intern_eq_error⟩,
    nodup_internEach List.nodup_nil⟩
  · intro hmem
    rcases b.intern_cases c with ⟨-, h⟩ | ⟨hnew, -⟩ | ⟨hnew, -⟩
    · exact h
    · exact absurd hmem hnew
    · exact absurd hmem hnew
  · intro hnew hroom
    rcases b.intern_cases c with ⟨hmem, -⟩ | ⟨-, h⟩ | ⟨-, hfull, -⟩
    · exact absurd hmem hnew
    · exact h
    · exact absurd hfull (Nat.ne_of_lt hroom)

/-- A pool that was read may hold a number twice; to enter it again tells the first of its places. -/
example : (Interner.read [0, 2, 1, 0, 0, 0, 7, 1, 0, 0, 0, 7]).toOption.map (fun (b, _) =>
    ((b.intern (.int 7)).2, (b.intern (.int 7)).1.pool.size)) = some (.ok 0, 2) := by
  decide +kernel

end Routecraft.Bytecode.Interner
