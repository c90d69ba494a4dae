import Routecraft.Bytecode.Encoding
import Routecraft.Proofs.Outcome

/-!
# The size of units

All counts and texts of a unit stand behind lengths of two bytes, so no encoded unit is larger than the product of
two such lengths with a few constants. In particular its size is a number of 64 bits.

* `length_concatBytes_le`: sequences of parts that are not too large.
* `CodeUnit.length_encode_lt`: whole units.
* `CodeUnit.head?_encode`: where the bytes of every unit begin.
-/

namespace Routecraft.Bytecode

/-- A count takes two bytes. -/
theorem length_countBytes {table : String} {count : Nat} {bytes : List UInt8} (h : countBytes table count = .ok bytes) :
    count < 65536 ∧ bytes.length = 2 := by
  unfold countBytes at h
  split at h
  · next hcount =>
    cases h
    exact ⟨hcount, length_bigEndian 2 count⟩
  · cases h

/-- A text takes no more bytes than its length allows. -/
theorem length_textBytes_lt {s : String} {bytes : List UInt8} (h : textBytes s = .ok bytes) :
    bytes.length < 65538 := by
  unfold textBytes at h
  simp only at h
  split at h
  · next hlength =>
    cases h
    rw [List.length_append, length_bigEndian]
    omega
  · cases h

/-- A sequence is as large as its parts together. -/
theorem length_concatBytes_le {α : Type} {bytesOf : α → Except UnitError (List UInt8)} {items : List α} {size : Nat}
    {bytes : List UInt8} (hsize : ∀ x part, bytesOf x = .ok part → part.length ≤ size)
    (h : concatBytes bytesOf items = .ok bytes) : bytes.length ≤ items.length * size := by
  obtain ⟨parts, hparts, hbytes⟩ := bind_eq_ok.mp h
  cases hbytes
  clear h
  rw [mapM_eq_ok] at hparts
  induction hparts with
  | nil => simp
  | cons hx _ ih =>
      have := hsize _ _ hx
      rw [List.flatten_cons, List.length_append, List.length_cons, Nat.succ_mul]
      omega

/-! ## Parts -/

/-- A member takes no more than its three texts. -/
theorem Member.length_encode_lt {m : Member} {bytes : List UInt8} (h : m.encode = .ok bytes) :
    bytes.length < 200000 := by
  obtain ⟨owner, howner, h⟩ := bind_eq_ok.mp h
  obtain ⟨name, hname, h⟩ := bind_eq_ok.mp h
  obtain ⟨descriptor, hdescriptor, h⟩ := bind_eq_ok.mp h
  cases h
  have := length_textBytes_lt howner
  have := length_textBytes_lt hname
  have := length_textBytes_lt hdescriptor
  simp only [List.length_append]
  omega

/-- A constant takes no more than a member. -/
theorem Constant.length_encode_le {c : Constant} {bytes : List UInt8} (h : c.encode = .ok bytes) :
    bytes.length ≤ 200000 := by
  obtain ⟨content, hcontent, h⟩ := bind_eq_ok.mp h
  cases h
  rw [List.length_cons]
  cases c with
  | int n | float n =>
      cases hcontent
      simp [bytes32]
  | long n | double n =>
      cases hcontent
      simp [bytes64]
  | string s | classRef s =>
      have := length_textBytes_lt hcontent
      omega
  | field m | method m | interfaceMethod m => exact Member.length_encode_lt hcontent

/-- A pool takes no more than its constants. -/
theorem Pool.length_encode_lt {p : Pool} {bytes : List UInt8} (h : p.encode = .ok bytes) :
    bytes.length ≤ 2 + 65536 * 200000 := by
  obtain ⟨count, hcount, h⟩ := bind_eq_ok.mp h
  obtain ⟨constants, hconstants, h⟩ := bind_eq_ok.mp h
  cases h
  obtain ⟨hlt, hlength⟩ := length_countBytes hcount
  have hle := length_concatBytes_le (fun c part => Constant.length_encode_le) hconstants
  have hsize : p.toList.length < 65536 := hlt
  rw [List.length_append]
  omega

/-- An instruction takes at most five bytes. -/
theorem Instr.length_encode_le (i : Instr UInt16) : i.encode.length ≤ 5 := by
  cases i <;> simp [encode, bytes16, bytes32]

theorem Field.length_encode_le {f : Field} {bytes : List UInt8} (h : f.encode = .ok bytes) :
    bytes.length ≤ 200000 := by
  obtain ⟨name, hname, h⟩ := bind_eq_ok.mp h
  obtain ⟨descriptor, hdescriptor, h⟩ := bind_eq_ok.mp h
  cases h
  have := length_textBytes_lt hname
  have := length_textBytes_lt hdescriptor
  rw [List.length_append]
  omega

theorem Method.length_encode_le {m : Method} {bytes : List UInt8} (h : m.encode = .ok bytes) :
    bytes.length ≤ 500000 := by
  obtain ⟨name, hname, h⟩ := bind_eq_ok.mp h
  obtain ⟨signature, hsignature, h⟩ := bind_eq_ok.mp h
  obtain ⟨count, hcount, h⟩ := bind_eq_ok.mp h
  cases h
  have := length_textBytes_lt hname
  have := length_textBytes_lt hsignature
  obtain ⟨hlt, hlength⟩ := length_countBytes hcount
  have hcode : (m.code.toList.flatMap Instr.encode).length ≤ m.code.toList.length * 5 := by
    induction m.code.toList with
    | nil => simp
    | cons i is ih =>
        have := Instr.length_encode_le i
        rw [List.flatMap_cons, List.length_append, List.length_cons]
        omega
  have hsize : m.code.toList.length < 65536 := hlt
  simp only [List.length_append, bytes16, length_bigEndian]
  omega

/-! ## Units -/

namespace CodeUnit

variable {u : CodeUnit} {bytes : List UInt8}

/-- **The size of a unit** is a number of 64 bits. -/
theorem length_encode_lt (h : u.encode = .ok bytes) : bytes.length < UInt64.size := by
  obtain ⟨name, hname, h⟩ := bind_eq_ok.mp h
  obtain ⟨interfaceCount, hinterfaceCount, h⟩ := bind_eq_ok.mp h
  obtain ⟨interfaces, hinterfaces, h⟩ := bind_eq_ok.mp h
  obtain ⟨pool, hpool, h⟩ := bind_eq_ok.mp h
  obtain ⟨fieldCount, hfieldCount, h⟩ := bind_eq_ok.mp h
  obtain ⟨fields, hfields, h⟩ := bind_eq_ok.mp h
  obtain ⟨methodCount, hmethodCount, h⟩ := bind_eq_ok.mp h
  obtain ⟨methods, hmethods, h⟩ := bind_eq_ok.mp h
  cases h
  have := length_textBytes_lt hname
  have := Pool.length_encode_lt hpool
  obtain ⟨hinterfaceLt, _⟩ := length_countBytes hinterfaceCount
  obtain ⟨hfieldLt, _⟩ := length_countBytes hfieldCount
  obtain ⟨hmethodLt, _⟩ := length_countBytes hmethodCount
  have := length_concatBytes_le (fun s part hpart => Nat.le_of_lt (length_textBytes_lt hpart)) hinterfaces
  have := length_concatBytes_le (fun f part => Field.length_encode_le) hfields
  have := length_concatBytes_le (fun m part => Method.length_encode_le) hmethods
  have hlarge : UInt64.size = 2 ^ 64 := rfl
  simp only [List.length_append, List.length_cons, mark, bytes16, length_bigEndian, List.length_nil]
  omega

/-- The bytes of every unit begin with the first byte of the mark. -/
theorem head?_encode (h : u.encode = .ok bytes) : bytes.head? = some 0x44 := by
  obtain ⟨name, hname, h⟩ := bind_eq_ok.mp h
  obtain ⟨interfaceCount, hinterfaceCount, h⟩ := bind_eq_ok.mp h
  obtain ⟨interfaces, hinterfaces, h⟩ := bind_eq_ok.mp h
  obtain ⟨pool, hpool, h⟩ := bind_eq_ok.mp h
  obtain ⟨fieldCount, hfieldCount, h⟩ := bind_eq_ok.mp h
  obtain ⟨fields, hfields, h⟩ := bind_eq_ok.mp h
  obtain ⟨methodCount, hmethodCount, h⟩ := bind_eq_ok.mp h
  obtain ⟨methods, hmethods, h⟩ := bind_eq_ok.mp h
  cases h
  rfl

end CodeUnit

end Routecraft.Bytecode
