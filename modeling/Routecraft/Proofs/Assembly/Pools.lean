import Routecraft.Bytecode.Pool
import Routecraft.Proofs.Outcome

/-!
# Constants at their places

A pool that is added to keeps its constants where they are, so whatever was looked up in it is found in the
longer pool too.

* `Pool.Extends`: the longer pool.
* `Pool.classAt_eq_ok`, `Pool.fieldAt_eq_ok`, `Pool.methodAt_eq_ok`: constants of a kind.
* `Interner.intern_cases`: what may come of entering a constant.
* `Interner.intern_get`: an entered constant is at its place.
-/

namespace Routecraft.Bytecode

namespace Pool

variable {p q r : Pool} {k : UInt16} {c : Constant}

/-- The constant at an index is the one at this place of the list. -/
theorem get_eq_ok : p.get k = .ok c ↔ p.toList[k.toNat]? = some c := by
  rw [get, toList, Array.getElem?_toList]
  cases p.entries[k.toNat]? <;> simp

theorem classAt_eq_ok {name : String} : p.classAt k = .ok name ↔ p.get k = .ok (.classRef name) := by
  rw [classAt, bind_eq_ok]
  constructor
  · rintro ⟨c, hc, h⟩
    cases c <;> simp_all
  · intro h
    exact ⟨_, h, rfl⟩

theorem fieldAt_eq_ok {m : Member} : p.fieldAt k = .ok m ↔ p.get k = .ok (.field m) := by
  rw [fieldAt, bind_eq_ok]
  constructor
  · rintro ⟨c, hc, h⟩
    cases c <;> simp_all
  · intro h
    exact ⟨_, h, rfl⟩

theorem methodAt_eq_ok {m : Member} {ofInterface : Bool} :
    p.methodAt k ofInterface = .ok m ↔
      p.get k = .ok (if ofInterface then .interfaceMethod m else .method m) := by
  rw [methodAt, bind_eq_ok]
  constructor
  · rintro ⟨c, hc, h⟩
    cases ofInterface <;> cases c <;> simp_all
  · intro h
    refine ⟨_, h, ?_⟩
    cases ofInterface <;> rfl

/-! ## Longer pools -/

/-- The second pool begins with the first one. -/
def Extends (p q : Pool) : Prop := p.toList <+: q.toList

theorem Extends.refl (p : Pool) : p.Extends p := List.prefix_refl _

theorem Extends.trans (hpq : p.Extends q) (hqr : q.Extends r) : p.Extends r :=
  List.IsPrefix.trans hpq hqr

theorem Extends.size_le (h : p.Extends q) : p.size ≤ q.size := by
  simpa using List.IsPrefix.length_le h

/-- Constants keep their indices when others are added behind them. -/
theorem Extends.get (h : p.Extends q) (hget : p.get k = .ok c) : q.get k = .ok c := by
  rw [get_eq_ok] at hget ⊢
  obtain ⟨rest, hrest⟩ := h
  rw [← hrest, List.getElem?_append_left (List.getElem?_eq_some_iff.mp hget).1]
  exact hget

theorem Extends.classAt {name : String} (h : p.Extends q) (hname : p.classAt k = .ok name) :
    q.classAt k = .ok name :=
  classAt_eq_ok.mpr (h.get (classAt_eq_ok.mp hname))

theorem Extends.fieldAt {m : Member} (h : p.Extends q) (hm : p.fieldAt k = .ok m) :
    q.fieldAt k = .ok m :=
  fieldAt_eq_ok.mpr (h.get (fieldAt_eq_ok.mp hm))

theorem Extends.methodAt {m : Member} {ofInterface : Bool} (h : p.Extends q)
    (hm : p.methodAt k ofInterface = .ok m) : q.methodAt k ofInterface = .ok m :=
  methodAt_eq_ok.mpr (h.get (methodAt_eq_ok.mp hm))

end Pool

/-! ## Entering constants -/

/-- A constant that is new finds no place in a full pool. -/
theorem Interner.intern_of_full {b : Interner} {c : Constant} (hc : c ∉ b.pool.toList)
    (hfull : ¬b.pool.size < poolLimit) : b.intern c = (b, .error (.tableOverflow "constant pool")) := by
  have hnone : b.places[c]? = none := by
    rw [b.places_eq]
    simpa using hc
  simp [intern, hnone, hfull]

/-- What may come of entering a constant: it stands in the pool, it goes to the end, or there is no room for it. -/
theorem Interner.intern_cases (b : Interner) (c : Constant) :
    (c ∈ b.pool.toList ∧ ∃ i, b.intern c = (b, .ok i) ∧ i.toNat = b.pool.toList.idxOf c) ∨
      (c ∉ b.pool.toList ∧ ∃ b' i, b.intern c = (b', .ok i) ∧ i.toNat = b.pool.size ∧
        b'.pool.toList = b.pool.toList ++ [c]) ∨
      (c ∉ b.pool.toList ∧ b.pool.size = poolLimit ∧ b.intern c = (b, .error (.tableOverflow "constant pool"))) := by
  have hsize := b.size_le
  by_cases hmem : c ∈ b.pool.toList
  · refine .inl ⟨hmem, _, intern_of_mem hmem, ?_⟩
    have hlt : b.pool.toList.idxOf c < b.pool.toList.length := List.idxOf_lt_length_of_mem hmem
    rw [Pool.length_toList] at hlt
    exact UInt16.toNat_ofNat_of_lt' (Nat.lt_of_lt_of_le hlt hsize)
  · by_cases hroom : b.pool.size < poolLimit
    · exact .inr (.inl ⟨hmem, _, _, intern_of_not_mem hmem hroom, UInt16.toNat_ofNat_of_lt' hroom,
        Pool.toList_push _ _⟩)
    · exact .inr (.inr ⟨hmem, by omega, intern_of_full hmem hroom⟩)

/-- An entered constant is at its place, and the others keep theirs. -/
theorem Interner.intern_get {b b' : Interner} {c : Constant} {k : UInt16}
    (h : b.intern c = (b', .ok k)) : b.pool.Extends b'.pool ∧ b'.pool.get k = .ok c := by
  rcases b.intern_cases c with ⟨hmem, i, hi, hplace⟩ | ⟨-, b₁, i, hi, hplace, hlist⟩ | ⟨-, -, hfull⟩
  · rw [hi] at h
    cases h
    refine ⟨.refl _, Pool.get_eq_ok.mpr ?_⟩
    rw [hplace, List.getElem?_eq_getElem (List.idxOf_lt_length_of_mem hmem), List.getElem_idxOf]
  · rw [hi] at h
    cases h
    refine ⟨⟨[c], hlist.symm⟩, Pool.get_eq_ok.mpr ?_⟩
    rw [hplace, hlist, ← Pool.length_toList]
    simp
  · rw [hfull] at h
    cases h

/-- Entering a constant leaves the pool at the front, whatever comes of it. -/
theorem Interner.intern_extends (b : Interner) (c : Constant) : b.pool.Extends (b.intern c).1.pool := by
  rcases b.intern_cases c with ⟨-, i, h, -⟩ | ⟨-, b', i, h, -, hlist⟩ | ⟨-, -, h⟩
  · rw [h]
    exact .refl _
  · rw [h]
    exact ⟨[c], hlist.symm⟩
  · rw [h]
    exact .refl _

end Routecraft.Bytecode
