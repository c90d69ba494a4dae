import Mathlib.Algebra.Ring.Nat
import Mathlib.Data.List.Induction
import Routecraft.Bytecode.Bytes
import Routecraft.Proofs.Format.Descriptors

/-!
# What readers take

A reader answers for a writer if it takes exactly what the writer writes: the value that it returns is the
one whose bytes stood in front of the rest. The parts of the format that every value can be written as are
described by plain equations, the others by `Reads`.

* `take_eq_ok`, `read8_eq_ok`, `read16_eq_ok`, `read32_eq_ok`, `read64_eq_ok`: bytes and numbers.
* `readText_reads`: texts behind their length.
* `Reads.many`, `Reads.table`: sequences of parts, and tables behind their count.
-/

namespace Routecraft.Bytecode

/-! ## Bytes -/

/-- Bytes are taken from the front, as many as asked for. -/
theorem takeOnto_eq_ok {part : String} {count : Nat} {taken before bytes rest : List UInt8} :
    takeOnto part count before bytes = .ok (taken, rest) ↔
      ∃ new, new.length = count ∧ taken = before.reverse ++ new ∧ bytes = new ++ rest := by
  induction count generalizing before bytes with
  | zero =>
      rw [takeOnto]
      constructor
      · intro h
        obtain ⟨rfl, rfl⟩ : before.reverse = taken ∧ bytes = rest := by simpa using h
        exact ⟨[], by simp⟩
      · rintro ⟨new, hnew, rfl, rfl⟩
        rw [List.length_eq_zero_iff.mp hnew]
        simp
  | succ count ih =>
      cases bytes with
      | nil =>
          simp only [takeOnto, reduceCtorEq, false_iff]
          rintro ⟨new, hnew, -, hbytes⟩
          rw [(List.append_eq_nil_iff.mp hbytes.symm).1] at hnew
          simp at hnew
      | cons b bytes =>
          rw [takeOnto, ih]
          constructor
          · rintro ⟨new, hnew, rfl, rfl⟩
            exact ⟨b :: new, by simp [hnew], by simp, rfl⟩
          · rintro ⟨new, hnew, rfl, hbytes⟩
            obtain ⟨c, new, rfl⟩ := List.exists_cons_of_length_eq_add_one hnew
            obtain ⟨rfl, rfl⟩ : b = c ∧ bytes = new ++ rest := by simpa using hbytes
            exact ⟨new, by simpa using hnew, by simp, rfl⟩

/-- The bytes taken are those in front of the rest. -/
theorem take_eq_ok {part : String} {count : Nat} {taken bytes rest : List UInt8} :
    take part count bytes = .ok (taken, rest) ↔ taken.length = count ∧ bytes = taken ++ rest := by
  rw [take, takeOnto_eq_ok]
  constructor
  · rintro ⟨new, hnew, rfl, rfl⟩
    exact ⟨hnew, rfl⟩
  · rintro ⟨hlength, rfl⟩
    exact ⟨taken, hlength, rfl, rfl⟩

/-! ## Numbers -/

/-- A number of some bytes is below the bound for them. -/
theorem ofBigEndian_lt (bytes : List UInt8) : ofBigEndian bytes < 256 ^ bytes.length := by
  induction bytes using List.reverseRecOn with
  | nil => simp [ofBigEndian]
  | append_singleton bytes b ih =>
      have hb : b.toNat < 256 := UInt8.toNat_lt b
      rw [ofBigEndian_append_singleton, List.length_append, List.length_singleton, Nat.pow_succ]
      omega

/-- The bytes of the number that bytes stand for are these bytes. -/
theorem bigEndian_ofBigEndian (bytes : List UInt8) :
    bigEndian bytes.length (ofBigEndian bytes) = bytes := by
  induction bytes using List.reverseRecOn with
  | nil => rfl
  | append_singleton bytes b ih =>
      have hb : b.toNat < 256 := UInt8.toNat_lt b
      have hdiv : (ofBigEndian bytes * 256 + b.toNat) / 256 = ofBigEndian bytes := by omega
      have hlast : UInt8.ofNat (ofBigEndian bytes * 256 + b.toNat) = b := by
        apply UInt8.toNat.inj
        rw [UInt8.toNat_ofNat']
        omega
      rw [List.length_append, List.length_singleton, bigEndian, ofBigEndian_append_singleton, hdiv,
        hlast, ih]

/-- A number that fits into its bytes is read back. -/
theorem ofBigEndian_bigEndian_of_lt {count n : Nat} (h : n < 256 ^ count) :
    ofBigEndian (bigEndian count n) = n := by
  rw [ofBigEndian_bigEndian]
  exact Nat.mod_eq_of_lt h

/-- The number read is the one whose bytes stand in front of the rest. -/
theorem readNat_eq_ok {part : String} {count n : Nat} {bytes rest : List UInt8} :
    readNat part count bytes = .ok (n, rest) ↔
      n < 256 ^ count ∧ bytes = bigEndian count n ++ rest := by
  simp only [readNat, bind_eq_ok, Prod.exists, take_eq_ok, Except.ok.injEq, Prod.mk.injEq]
  constructor
  · rintro ⟨taken, rest', ⟨rfl, rfl⟩, rfl, rfl⟩
    exact ⟨ofBigEndian_lt taken, by rw [bigEndian_ofBigEndian]⟩
  · rintro ⟨hn, rfl⟩
    exact ⟨_, _, ⟨length_bigEndian count n, rfl⟩, ofBigEndian_bigEndian_of_lt hn, rfl⟩

/-- A byte is read from the front. -/
theorem read8_eq_ok {part : String} {n : UInt8} {bytes rest : List UInt8} :
    read8 part bytes = .ok (n, rest) ↔ bytes = n :: rest := by
  simp only [read8, bind_eq_ok, Prod.exists, readNat_eq_ok, Except.ok.injEq, Prod.mk.injEq]
  constructor
  · rintro ⟨m, rest', ⟨-, rfl⟩, rfl, rfl⟩
    rfl
  · rintro rfl
    have hn : n.toNat < 256 ^ 1 := UInt8.toNat_lt n
    exact ⟨n.toNat, rest, ⟨hn, by simp [bigEndian]⟩, by simp, rfl⟩

theorem read16_eq_ok {part : String} {n : UInt16} {bytes rest : List UInt8} :
    read16 part bytes = .ok (n, rest) ↔ bytes = bytes16 n ++ rest := by
  simp only [read16, bind_eq_ok, Prod.exists, readNat_eq_ok, Except.ok.injEq, Prod.mk.injEq]
  constructor
  · rintro ⟨m, rest', ⟨hm, rfl⟩, rfl, rfl⟩
    rw [bytes16, UInt16.toNat_ofNat_of_lt' hm]
  · rintro rfl
    exact ⟨n.toNat, rest, ⟨UInt16.toNat_lt n, rfl⟩, by simp, rfl⟩

theorem read32_eq_ok {part : String} {n : UInt32} {bytes rest : List UInt8} :
    read32 part bytes = .ok (n, rest) ↔ bytes = bytes32 n ++ rest := by
  simp only [read32, bind_eq_ok, Prod.exists, readNat_eq_ok, Except.ok.injEq, Prod.mk.injEq]
  constructor
  · rintro ⟨m, rest', ⟨hm, rfl⟩, rfl, rfl⟩
    rw [bytes32, UInt32.toNat_ofNat_of_lt' hm]
  · rintro rfl
    exact ⟨n.toNat, rest, ⟨UInt32.toNat_lt n, rfl⟩, by simp, rfl⟩

theorem read64_eq_ok {part : String} {n : UInt64} {bytes rest : List UInt8} :
    read64 part bytes = .ok (n, rest) ↔ bytes = bytes64 n ++ rest := by
  simp only [read64, bind_eq_ok, Prod.exists, readNat_eq_ok, Except.ok.injEq, Prod.mk.injEq]
  constructor
  · rintro ⟨m, rest', ⟨hm, rfl⟩, rfl, rfl⟩
    rw [bytes64, UInt64.toNat_ofNat_of_lt' hm]
  · rintro rfl
    exact ⟨n.toNat, rest, ⟨UInt64.toNat_lt n, rfl⟩, by simp, rfl⟩

/-! ## Readers and writers -/

/-- Whether a reader takes exactly what a writer writes for the values that satisfy `Valid`. -/
def Reads {α : Type} (read : Reader α) (Valid : α → Prop)
    (bytesOf : α → Except UnitError (List UInt8)) : Prop :=
  ∀ bytes x rest, read bytes = .ok (x, rest) ↔
    Valid x ∧ ∃ part, bytesOf x = .ok part ∧ bytes = part ++ rest

/-! ## Counts and texts -/

/-- A count is written down if it fits into two bytes. -/
theorem countBytes_eq_ok {table : String} {count : Nat} {part : List UInt8} :
    countBytes table count = .ok part ↔ count < 65536 ∧ bigEndian 2 count = part := by
  unfold countBytes
  split
  · next hcount => simp [hcount]
  · next hcount => simp [hcount]

/-- A number of two bytes is written as its value is. -/
theorem bytes16_eq_of_toNat {n : UInt16} {count : Nat} (h : n.toNat = count) :
    bytes16 n = bigEndian 2 count := by
  rw [bytes16, h]

/-- A text is what stands behind its length. -/
theorem readText_reads (part : String) : Reads (readText part) (fun _ => True) textBytes := by
  intro bytes s rest
  simp only [readText, bind_eq_ok, Prod.exists, readNat_eq_ok, take_eq_ok, textBytes]
  constructor
  · rintro ⟨count, _, ⟨hcount, rfl⟩, taken, rest', ⟨rfl, rfl⟩, h⟩
    split at h
    · next s' htext =>
      obtain ⟨rfl, rfl⟩ : s' = s ∧ rest' = rest := by simpa using h
      rw [Text.utf8_of_ofUtf8? htext, if_pos (show taken.length < 65536 from hcount)]
      exact ⟨trivial, _, rfl, by simp⟩
    · simp at h
  · rintro ⟨-, written, hwritten, rfl⟩
    split at hwritten
    · next hlength =>
      cases hwritten
      refine ⟨_, _, ⟨hlength, List.append_assoc _ _ _⟩, _, rest, ⟨rfl, rfl⟩, ?_⟩
      rw [Text.ofUtf8?_utf8]
    · simp at hwritten

/-! ## Sequences -/

@[simp] theorem concatBytes_nil {α : Type} (bytesOf : α → Except UnitError (List UInt8)) :
    concatBytes bytesOf [] = .ok [] := rfl

/-- A list is written item by item. -/
theorem concatBytes_cons_eq_ok {α : Type} {bytesOf : α → Except UnitError (List UInt8)} {x : α}
    {xs : List α} {part : List UInt8} :
    concatBytes bytesOf (x :: xs) = .ok part ↔
      ∃ p ps, bytesOf x = .ok p ∧ concatBytes bytesOf xs = .ok ps ∧ part = p ++ ps := by
  simp only [concatBytes, List.mapM_cons, bind_eq_ok, pure, Except.pure, Except.ok.injEq]
  constructor
  · rintro ⟨_, ⟨p, hp, ps, hps, rfl⟩, rfl⟩
    exact ⟨p, _, hp, ⟨ps, hps, rfl⟩, by simp⟩
  · rintro ⟨p, _, hp, ⟨ps, hps, rfl⟩, rfl⟩
    exact ⟨_, ⟨p, hp, ps, hps, rfl⟩, by simp⟩

namespace Reads

variable {α : Type} {read : Reader α} {Valid : α → Prop}
  {bytesOf : α → Except UnitError (List UInt8)}

/-- Items are read on behind those that were read before. -/
theorem manyOnto (h : Reads read Valid bytesOf) {count : Nat} {done xs : List α}
    {bytes rest : List UInt8} :
    readManyOnto read count done bytes = .ok (xs, rest) ↔
      ∃ new, xs = done.reverse ++ new ∧ new.length = count ∧ (∀ x ∈ new, Valid x) ∧
        ∃ part, concatBytes bytesOf new = .ok part ∧ bytes = part ++ rest := by
  induction count generalizing done bytes with
  | zero =>
      rw [readManyOnto]
      constructor
      · intro heq
        obtain ⟨rfl, rfl⟩ : done.reverse = xs ∧ bytes = rest := by simpa using heq
        exact ⟨[], by simp⟩
      · rintro ⟨new, rfl, hnew, -, part, hpart, rfl⟩
        obtain rfl := List.length_eq_zero_iff.mp hnew
        obtain rfl : [] = part := by simpa using hpart
        simp
  | succ count ih =>
      rw [readManyOnto]
      constructor
      · intro heq
        split at heq
        · next x rest' hread =>
          obtain ⟨hx, p, hp, rfl⟩ := (h _ _ _).mp hread
          obtain ⟨new, rfl, rfl, hnew, ps, hps, rfl⟩ := ih.mp heq
          refine ⟨x :: new, by simp, rfl, ?_, p ++ ps, ?_, by simp⟩
          · intro y hy
            rcases List.mem_cons.mp hy with rfl | hy
            · exact hx
            · exact hnew y hy
          · exact concatBytes_cons_eq_ok.mpr ⟨p, ps, hp, hps, rfl⟩
        · simp at heq
      · rintro ⟨new, rfl, hlength, hnew, part, hpart, rfl⟩
        obtain ⟨x, new, rfl⟩ := List.exists_cons_of_length_eq_add_one hlength
        obtain ⟨p, ps, hp, hps, rfl⟩ := concatBytes_cons_eq_ok.mp hpart
        have hread : read (p ++ ps ++ rest) = .ok (x, ps ++ rest) :=
          (h _ _ _).mpr ⟨hnew x (by simp), p, hp, by simp⟩
        rw [hread]
        refine ih.mpr ⟨new, by simp, by simpa using hlength, ?_, ps, hps, rfl⟩
        exact fun y hy => hnew y (List.mem_cons_of_mem x hy)

/-- Parts that are read one after the other are those that were written so. -/
theorem many (h : Reads read Valid bytesOf) {count : Nat} {xs : List α}
    {bytes rest : List UInt8} :
    readMany read count bytes = .ok (xs, rest) ↔
      xs.length = count ∧ (∀ x ∈ xs, Valid x) ∧
        ∃ part, concatBytes bytesOf xs = .ok part ∧ bytes = part ++ rest := by
  rw [readMany, h.manyOnto]
  constructor
  · rintro ⟨new, rfl, hlength, hnew, part, hpart, rfl⟩
    exact ⟨hlength, hnew, part, hpart, rfl⟩
  · rintro ⟨hlength, hxs, part, hpart, rfl⟩
    exact ⟨xs, rfl, hlength, hxs, part, hpart, rfl⟩

/-- A table is its parts behind their count. -/
theorem table (h : Reads read Valid bytesOf) (counter name : String) {xs : List α}
    {bytes rest : List UInt8} :
    (∃ count rest', read16 counter bytes = .ok (count, rest') ∧
        readMany read count.toNat rest' = .ok (xs, rest)) ↔
      (∀ x ∈ xs, Valid x) ∧ ∃ count part, countBytes name xs.length = .ok count ∧
        concatBytes bytesOf xs = .ok part ∧ bytes = count ++ (part ++ rest) := by
  simp only [read16_eq_ok, h.many, countBytes_eq_ok]
  constructor
  · rintro ⟨count, _, rfl, hlength, hxs, part, hpart, rfl⟩
    have hlt : xs.length < 65536 := hlength ▸ UInt16.toNat_lt count
    exact ⟨hxs, _, part, ⟨hlt, rfl⟩, hpart, by rw [bytes16_eq_of_toNat hlength.symm]⟩
  · rintro ⟨hxs, _, part, ⟨hlt, rfl⟩, hpart, rfl⟩
    have hlength : (UInt16.ofNat xs.length).toNat = xs.length := by
      rw [UInt16.toNat_ofNat', Nat.mod_eq_of_lt hlt]
    exact ⟨_, _, by rw [bytes16_eq_of_toNat hlength], hlength.symm, hxs, part, hpart, rfl⟩

end Reads

end Routecraft.Bytecode
