import Mathlib.Data.Finset.Card
import Routecraft.Proofs.Format.Indices
import Routecraft.Proofs.Format.RoundTrip

/-!
# The limits of constant pools

Constants are entered into a pool as long as the place of the next one has 16 bits, and a pool is written as long as
the count of its constants has. So a pool takes one constant more than can be written: one with 65536 constants has
no bytes, and every smaller one is read back from its bytes, with each constant at the place where it was entered.

* `Constant.Fits`: constants whose texts are short enough.
* `Interner.internAll`: entering one constant after the other.
* `Interner.internAll_eq_ok`, `Interner.internAll_ok`: where the entered constants are, and how many can be entered.
* `Pool.encode_ok`, `Pool.encode_of_full`: the pools that can be written.
* `Interner.written_unless_full`: the pools that come from entering constants.
-/

namespace Routecraft

/-- The bytes of a text are as many as its size. -/
theorem Text.length_utf8 (s : String) : (utf8 s).length = s.utf8ByteSize := by
  simp [utf8]

namespace Bytecode

/-! ## Constants that can be written -/

/-- Whether the texts of a constant have at most 65535 bytes. -/
def Constant.Fits (c : Constant) : Prop := ∀ s ∈ c.texts, s.utf8ByteSize ≤ 65535

instance (c : Constant) : Decidable c.Fits := inferInstanceAs (Decidable (∀ s ∈ c.texts, s.utf8ByteSize ≤ 65535))

/-- A text that is short enough can be written. -/
theorem textBytes_ok {s : String} (h : s.utf8ByteSize ≤ 65535) : ∃ part, textBytes s = .ok part := by
  refine ⟨_, if_pos ?_⟩
  rw [Text.length_utf8]
  omega

/-- A member with short texts can be written. -/
theorem Member.encode_ok {m : Member} (h : ∀ s ∈ [m.owner, m.name, m.descriptor], s.utf8ByteSize ≤ 65535) :
    ∃ part, m.encode = .ok part := by
  obtain ⟨owner, howner⟩ := textBytes_ok (h m.owner (by simp))
  obtain ⟨name, hname⟩ := textBytes_ok (h m.name (by simp))
  obtain ⟨descriptor, hdescriptor⟩ := textBytes_ok (h m.descriptor (by simp))
  rw [Member.encode, howner, hname, hdescriptor]
  exact ⟨_, rfl⟩

/-- A constant that fits can be written. -/
theorem Constant.encode_ok {c : Constant} (h : c.Fits) : ∃ part, c.encode = .ok part := by
  have hcontent : ∃ content, c.content = .ok content := by
    cases c with
    | int n | long n | float n | double n => exact ⟨_, rfl⟩
    | string s | classRef s => exact textBytes_ok (h s (List.mem_singleton.mpr rfl))
    | field m | method m | interfaceMethod m => exact Member.encode_ok h
  obtain ⟨content, hcontent⟩ := hcontent
  exact ⟨_, encode_eq_ok.mpr ⟨content, hcontent, rfl⟩⟩

/-- A list can be written if its items can. -/
theorem concatBytes_ok {α : Type} {bytesOf : α → Except UnitError (List UInt8)} {xs : List α}
    (h : ∀ x ∈ xs, ∃ part, bytesOf x = .ok part) : ∃ part, concatBytes bytesOf xs = .ok part := by
  induction xs with
  | nil => exact ⟨[], rfl⟩
  | cons x xs ih =>
      obtain ⟨⟨p, hp⟩, hxs⟩ := List.forall_mem_cons.mp h
      obtain ⟨ps, hps⟩ := ih hxs
      exact ⟨_, concatBytes_cons_eq_ok.mpr ⟨p, ps, hp, hps, rfl⟩⟩

/-! ## Entering constants -/

namespace Interner

variable {b b' : Interner} {c : Constant} {cs : List Constant} {places : List UInt16}

/-- Enters constants one after the other, and tells their places. -/
def internAll (b : Interner) : List Constant → Except UnitError (Interner × List UInt16)
  | [] => .ok (b, [])
  | c :: rest =>
    match b.intern c with
    | (b, .ok place) => (b.internAll rest).map fun (b, places) => (b, place :: places)
    | (_, .error e) => .error e

/-- What entering a constant does to the constants of a pool without repetitions. -/
theorem intern_eq_ok {place : UInt16} (h : b.intern c = (b', .ok place)) (hb : b.pool.toList.Nodup) :
    b'.pool.toList.Nodup ∧ b'.pool.toList.toFinset = insert c b.pool.toList.toFinset := by
  have hnodup := nodup_intern hb c
  rw [h] at hnodup
  refine ⟨hnodup, ?_⟩
  rcases b.intern_cases c with ⟨hc, i, hi, -⟩ | ⟨-, b₁, i, hi, -, hlist⟩ | ⟨-, -, hfull⟩
  · rw [hi] at h
    cases h
    exact (Finset.insert_eq_of_mem (List.mem_toFinset.mpr hc)).symm
  · rw [hi] at h
    cases h
    rw [hlist, List.toFinset_append, Finset.union_comm]
    rfl
  · rw [hfull] at h
    cases h

/-- Interning a list is to intern its first constant and then the rest. -/
theorem internAll_cons_eq_ok :
    b.internAll (c :: cs) = .ok (b', places) ↔
      ∃ b₁ place rest, b.intern c = (b₁, .ok place) ∧ b₁.internAll cs = .ok (b', rest) ∧ places = place :: rest := by
  rw [internAll]
  constructor
  · intro h
    rcases hc : b.intern c with ⟨b₁, e | place⟩
    · simp [hc] at h
    · rcases hrest : b₁.internAll cs with e | ⟨b₂, rest⟩
      · simp [hc, hrest, Except.map] at h
      · obtain ⟨rfl, rfl⟩ : b₂ = b' ∧ place :: rest = places := by simpa [hc, hrest, Except.map] using h
        exact ⟨b₁, place, rest, rfl, hrest, rfl⟩
  · rintro ⟨b₁, place, rest, hc, hrest, rfl⟩
    simp [hc, hrest, Except.map]

/-- **Entered constants** are all the constants that come into a pool, each of them once, and stand at their places. -/
theorem internAll_eq_ok (h : b.internAll cs = .ok (b', places)) (hb : b.pool.toList.Nodup) :
    b.pool.Extends b'.pool ∧ b'.pool.toList.Nodup ∧
      b'.pool.toList.toFinset = b.pool.toList.toFinset ∪ cs.toFinset ∧
      List.Forall₂ (fun c place => b'.pool.get place = .ok c) cs places := by
  induction cs generalizing b places with
  | nil =>
      cases h
      exact ⟨.refl _, hb, by simp, .nil⟩
  | cons c cs ih =>
      obtain ⟨b₁, place, rest, hc, hrest, rfl⟩ := internAll_cons_eq_ok.mp h
      obtain ⟨hextends, hget⟩ := intern_get hc
      obtain ⟨hnodup, hset⟩ := intern_eq_ok hc hb
      obtain ⟨hextends', hnodup', hset', hplaces⟩ := ih hrest hnodup
      refine ⟨hextends.trans hextends', hnodup', ?_, .cons (hextends'.get hget) hplaces⟩
      rw [hset', hset, List.toFinset_cons, Finset.insert_union, Finset.union_insert]

/-- Constants can be entered as long as they are no more than there are places, however often each of them comes. -/
theorem internAll_ok (hb : b.pool.toList.Nodup) (h : (b.pool.toList.toFinset ∪ cs.toFinset).card ≤ poolLimit) :
    ∃ b' places, b.internAll cs = .ok (b', places) := by
  induction cs generalizing b with
  | nil => exact ⟨b, [], rfl⟩
  | cons c cs ih =>
      rw [List.toFinset_cons, Finset.union_insert, ← Finset.insert_union] at h
      obtain ⟨b₁, place, hc⟩ : ∃ b₁ place, b.intern c = (b₁, .ok place) := by
        rcases b.intern_cases c with ⟨-, place, hc, -⟩ | ⟨-, b₁, place, hc, -⟩ | ⟨hmem, hfull, -⟩
        · exact ⟨b, place, hc⟩
        · exact ⟨b₁, place, hc⟩
        · -- The constants of the pool and the new one are among those that are counted.
          have hle := Nat.le_trans (Finset.card_le_card Finset.subset_union_left) h
          rw [Finset.card_insert_of_notMem (by simpa using hmem), List.toFinset_card_of_nodup hb,
            Pool.length_toList] at hle
          exact absurd hfull (Nat.ne_of_lt hle)
      obtain ⟨hnodup, hset⟩ := intern_eq_ok hc hb
      obtain ⟨b', rest, hrest⟩ := ih hnodup (by rwa [hset])
      exact ⟨b', _, internAll_cons_eq_ok.mpr ⟨b₁, place, rest, hc, hrest, rfl⟩⟩

/-- What is entered into the pool without constants. -/
theorem internAll_empty_eq_ok (h : empty.internAll cs = .ok (b, places)) :
    b.pool.size = cs.toFinset.card ∧ (∀ c, c ∈ b.pool.toList ↔ c ∈ cs) ∧
      List.Forall₂ (fun c place => b.pool.get place = .ok c) cs places := by
  obtain ⟨-, hnodup, hset, hplaces⟩ := internAll_eq_ok h List.nodup_nil
  have hset : b.pool.toList.toFinset = cs.toFinset := by
    rw [hset]
    exact Finset.empty_union _
  refine ⟨?_, ?_, hplaces⟩
  · rw [← hset, List.toFinset_card_of_nodup hnodup, Pool.length_toList]
  · intro c
    rw [← List.mem_toFinset, hset, List.mem_toFinset]

/-- Constants can be interned into an empty pool if no more than the limit are different. -/
theorem internAll_empty_isOk_iff :
    (∃ b places, empty.internAll cs = .ok (b, places)) ↔ cs.toFinset.card ≤ poolLimit := by
  constructor
  · rintro ⟨b, places, h⟩
    rw [← (internAll_empty_eq_ok h).1]
    exact b.size_le
  · intro h
    refine internAll_ok (b := empty) List.nodup_nil ?_
    rwa [show empty.pool.toList.toFinset = ∅ from rfl, Finset.empty_union]

end Interner

/-! ## Pools that can be written -/

/-- A pool of short constants is written and read back if the count of its constants has 16 bits. -/
theorem Pool.encode_ok {p : Pool} (hsize : p.size < 65536) (hfits : ∀ c ∈ p.toList, c.Fits) :
    ∃ bytes, p.encode = .ok bytes ∧ ∀ rest, Pool.read (bytes ++ rest) = .ok (p, rest) := by
  obtain ⟨constants, hconstants⟩ := concatBytes_ok fun c hc => Constant.encode_ok (hfits c hc)
  have hcount : countBytes "constant pool" p.size = .ok (bigEndian 2 p.size) := countBytes_eq_ok.mpr ⟨hsize, rfl⟩
  have hbytes : p.encode = .ok (bigEndian 2 p.size ++ constants) := by
    rw [encode, hcount, hconstants]
    rfl
  refine ⟨_, hbytes, fun rest => ?_⟩
  exact (Pool.read_reads _ p rest).mpr ⟨trivial, _, hbytes, rfl⟩

/-- A pool whose places are all taken is not written, whatever its constants are. -/
theorem Pool.encode_of_full {p : Pool} (hsize : p.size = 65536) :
    p.encode = .error (.tableOverflow "constant pool") := by
  rw [encode, hsize]
  rfl

namespace Interner

/-- **Entered constants are written and read back unless they fill the pool.** Constants that are short enough can be
entered, each as often as one likes, if there are at most 65536 of them. Each is then at the place that it was told,
and the pool is written and read back if there are at most 65535; with all of the 65536 places taken, it is not. -/
theorem written_unless_full (cs : List Constant) (hfits : ∀ c ∈ cs, c.Fits) :
    ((∃ b places, empty.internAll cs = .ok (b, places)) ↔ cs.toFinset.card ≤ 65536) ∧
      ∀ b places, empty.internAll cs = .ok (b, places) →
        List.Forall₂ (fun c place => b.pool.get place = .ok c) cs places ∧
        (cs.toFinset.card ≤ 65535 →
          ∃ bytes, b.pool.encode = .ok bytes ∧ ∀ rest, Pool.read (bytes ++ rest) = .ok (b.pool, rest)) ∧
        (cs.toFinset.card = 65536 → b.pool.encode = .error (.tableOverflow "constant pool")) := by
  refine ⟨internAll_empty_isOk_iff, ?_⟩
  intro b places h
  obtain ⟨hsize, hmem, hplaces⟩ := internAll_empty_eq_ok h
  refine ⟨hplaces, ?_, ?_⟩
  · intro hcard
    apply Pool.encode_ok
    · rw [hsize]
      exact Nat.lt_succ_of_le hcard
    · intro c hc
      exact hfits c ((hmem c).mp hc)
  · intro hcard
    exact Pool.encode_of_full (hsize.trans hcard)

theorem written_unless_full_three :
    ∃ b places, empty.internAll [.string "GET", .classRef "lang.Object", .string "GET"] = .ok (b, places) ∧
      ∃ bytes, b.pool.encode = .ok bytes ∧ ∀ rest, Pool.read (bytes ++ rest) = .ok (b.pool, rest) := by
  obtain ⟨hentered, hwritten⟩ :=
    written_unless_full [.string "GET", .classRef "lang.Object", .string "GET"] (by decide)
  obtain ⟨b, places, h⟩ := hentered.mpr (by decide)
  exact ⟨b, places, h, (hwritten b places h).2.1 (by decide)⟩

/-- A different number for each of the places of a pool. -/
def everyPlace : List Constant := (List.range 65536).map fun n => .int (Int32.ofNat n)

/-- There are as many places as numbers of two bytes. -/
theorem card_everyPlace : everyPlace.toFinset.card = 65536 := by
  have hnodup : everyPlace.Nodup := by
    refine List.Nodup.map_on ?_ List.nodup_range
    intro m hm n hn h
    rw [List.mem_range] at hm hn
    have hint : (Int32.ofNat m).toInt = (Int32.ofNat n).toInt := congrArg Int32.toInt (Constant.int.inj h)
    rw [Int32.toInt_ofNat_of_lt (by omega), Int32.toInt_ofNat_of_lt (by omega)] at hint
    omega
  rw [List.toFinset_card_of_nodup hnodup, everyPlace, List.length_map, List.length_range]

/-- A pool can be filled with numbers, which have no texts at all, and cannot be written then. -/
theorem everyPlace_unwritten :
    (∀ c ∈ everyPlace, c.Fits) ∧
      ∃ b places, empty.internAll everyPlace = .ok (b, places) ∧
        b.pool.encode = .error (.tableOverflow "constant pool") := by
  constructor
  · intro c hc
    obtain ⟨n, -, rfl⟩ := List.mem_map.mp hc
    exact List.forall_mem_nil _
  · obtain ⟨b, places, h⟩ := internAll_empty_isOk_iff.mpr (Nat.le_of_eq card_everyPlace)
    refine ⟨b, places, h, Pool.encode_of_full ?_⟩
    exact (internAll_empty_eq_ok h).1.trans card_everyPlace

end Interner

end Bytecode

end Routecraft
