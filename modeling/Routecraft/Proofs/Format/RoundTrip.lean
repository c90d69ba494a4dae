import Routecraft.Bytecode.Encoding
import Routecraft.Platform
import Routecraft.Proofs.Format.Readers

/-!
# The byte form of units is exact

Every part of a unit is read back from its bytes, and what is read stands in the bytes as it would be
written. A pool may hold a constant twice: reading keeps both, and writing puts both down again. What a
reader cannot give back are types whose class names do not survive in a descriptor.

* `Constant.read_reads`, `Instr.read_eq_ok`, `Field.read_reads`, `Method.read_reads`: the parts.
* `CodeUnit.read_reads`: a unit in front of any bytes.
* `CodeUnit.encode_decode_inverse`: reading and writing whole units undo each other.
-/

namespace Routecraft.Bytecode

/-! ## Descriptors with their text -/

/-- Naming the text in an error does not change a success. -/
theorem naming_eq_ok {α : Type} {text : String} {read : Except DescriptorFault α} {x : α} :
    naming text read = .ok x ↔ read = .ok x := by
  cases read <;> simp [naming]

/-- The descriptor of a type is read just as this type. -/
theorem dataTypeOf_eq_ok {text : String} {t : DataType} :
    dataTypeOf text = .ok t ↔ t.WellFormed ∧ t.descriptor = text := by
  rw [dataTypeOf, naming_eq_ok, DataType.parse_eq_ok]

/-- The descriptor of a signature is read just as this signature. -/
theorem signatureOf_eq_ok {text : String} {s : Signature} :
    signatureOf text = .ok s ↔ s.WellFormed ∧ s.descriptor = text := by
  rw [signatureOf, naming_eq_ok, Signature.parse_eq_ok]

/-! ## Constants -/

/-- A member is its three texts, one behind the other. -/
theorem Member.read_reads : Reads Member.read (fun _ => True) Member.encode := by
  intro bytes m rest
  obtain ⟨owner, name, descriptor⟩ := m
  simp only [Member.read, Member.encode, bind_eq_ok, Prod.exists, readText_reads _ _ _ _,
    Except.ok.injEq, Prod.mk.injEq, Member.mk.injEq, true_and]
  constructor
  · rintro ⟨_, _, ⟨o, ho, rfl⟩, _, _, ⟨n, hn, rfl⟩, _, _, ⟨d, hd, rfl⟩, ⟨rfl, rfl, rfl⟩, rfl⟩
    exact ⟨_, ⟨o, ho, n, hn, d, hd, rfl⟩, by simp⟩
  · rintro ⟨_, ⟨o, ho, n, hn, d, hd, rfl⟩, rfl⟩
    exact ⟨_, _, ⟨o, ho, by simp only [List.append_assoc]⟩, _, _, ⟨n, hn, rfl⟩, _, _, ⟨d, hd, rfl⟩,
      ⟨rfl, rfl, rfl⟩, rfl⟩

namespace Constant

/-- A constant is its tag and its content. -/
theorem encode_eq_ok {c : Constant} {part : List UInt8} :
    c.encode = .ok part ↔ ∃ content, c.content = .ok content ∧ part = c.tag :: content := by
  simp only [encode, bind_eq_ok, Except.ok.injEq, eq_comm (b := part)]

/-- A constant is its tag and what the tag announces. -/
theorem read_reads : Reads Constant.read (fun _ => True) encode := by
  intro bytes c rest
  simp only [true_and, encode_eq_ok]
  constructor
  · intro h
    simp only [read, bind_eq_ok, Prod.exists, read8_eq_ok] at h
    obtain ⟨tag, bytes, rfl, h⟩ := h
    -- One case for each tag, in the order in which they are tried: numbers, texts, members.
    iterate 4
      split at h
      · simp only [bind_eq_ok, Prod.exists, read32_eq_ok, read64_eq_ok] at h
        obtain ⟨n, _, rfl, heq⟩ := h
        cases heq
        exact ⟨_, ⟨_, rfl, rfl⟩, by simp_all [Constant.tag]⟩
    iterate 2
      split at h
      · simp only [bind_eq_ok, Prod.exists, readText_reads _ _ _ _] at h
        obtain ⟨s, _, ⟨-, part, hpart, rfl⟩, heq⟩ := h
        cases heq
        exact ⟨_, ⟨_, hpart, rfl⟩, by simp_all [Constant.tag]⟩
    iterate 3
      split at h
      · simp only [bind_eq_ok, Prod.exists, Member.read_reads _ _ _] at h
        obtain ⟨m, _, ⟨-, part, hpart, rfl⟩, heq⟩ := h
        cases heq
        exact ⟨_, ⟨_, hpart, rfl⟩, by simp_all [Constant.tag]⟩
    simp at h
  · rintro ⟨_, ⟨content, hcontent, rfl⟩, rfl⟩
    simp only [read, bind_eq_ok, Prod.exists, read8_eq_ok]
    refine ⟨c.tag, content ++ rest, rfl, ?_⟩
    cases c with
    | int n =>
        cases hcontent
        simpa [Constant.tag, bind_eq_ok, read32_eq_ok] using ⟨n.toUInt32, rfl, by simp⟩
    | long n =>
        cases hcontent
        simpa [Constant.tag, bind_eq_ok, read64_eq_ok] using ⟨n.toUInt64, rfl, by simp⟩
    | float bits | double bits =>
        cases hcontent
        simp [Constant.tag, bind_eq_ok, read32_eq_ok, read64_eq_ok]
    | string s | classRef s =>
        have hcontent : textBytes s = .ok content := hcontent
        simp [Constant.tag, bind_eq_ok, readText_reads _ _ _ _, hcontent]
    | field m | method m | interfaceMethod m =>
        have hcontent : m.encode = .ok content := hcontent
        simp [Constant.tag, bind_eq_ok, Member.read_reads _ _ _, hcontent]

end Constant

/-- A pool is its constants in order, each as often as it holds it. -/
theorem Pool.read_reads : Reads Pool.read (fun _ => True) Pool.encode := by
  intro bytes p rest
  simp only [Pool.read, Pool.encode, bind_eq_ok, Prod.exists, Except.ok.injEq, Prod.mk.injEq,
    true_and]
  constructor
  · rintro ⟨count, _, hcount, constants, _, hconstants, rfl, rfl⟩
    obtain ⟨-, written, part, hwritten, hpart, rfl⟩ :=
      (Constant.read_reads.table _ "constant pool").mp ⟨count, _, hcount, hconstants⟩
    exact ⟨_, ⟨written, by simpa [Pool.size] using hwritten, part, by simpa [Pool.toList] using hpart,
      rfl⟩, by simp⟩
  · rintro ⟨_, ⟨written, hwritten, part, hpart, rfl⟩, rfl⟩
    obtain ⟨count, rest', hcount, hconstants⟩ :=
      (Constant.read_reads.table "constant pool count" _).mpr
        ⟨fun _ _ => trivial, written, part, by simpa using hwritten, hpart, List.append_assoc _ _ _⟩
    exact ⟨count, rest', hcount, p.toList, rest, hconstants, by simp [Pool.toList], rfl⟩

/-! ## Instructions -/

namespace Instr

/-- An opcode of a bare instruction stands for it alone. -/
theorem find?_bare (op : BareOp) : BareOp.all.find? (·.opcode == op.opcode) = some op := by
  cases op <;> decide

theorem find?_local (op : LocalOp) :
    BareOp.all.find? (·.opcode == op.opcode) = none ∧
      LocalOp.all.find? (·.opcode == op.opcode) = some op := by
  cases op <;> decide

theorem find?_const (op : ConstOp) :
    BareOp.all.find? (·.opcode == op.opcode) = none ∧
      LocalOp.all.find? (·.opcode == op.opcode) = none ∧
      ConstOp.all.find? (·.opcode == op.opcode) = some op := by
  cases op <;> decide

theorem find?_jump (op : JumpOp) :
    BareOp.all.find? (·.opcode == op.opcode) = none ∧
      LocalOp.all.find? (·.opcode == op.opcode) = none ∧
      ConstOp.all.find? (·.opcode == op.opcode) = none ∧
      JumpOp.all.find? (·.opcode == op.opcode) = some op := by
  cases op <;> decide

/-- The opcode that pushes a number stands for nothing else. -/
theorem find?_int :
    BareOp.all.find? (·.opcode == intOpcode) = none ∧
      LocalOp.all.find? (·.opcode == intOpcode) = none ∧
      ConstOp.all.find? (·.opcode == intOpcode) = none ∧
      JumpOp.all.find? (·.opcode == intOpcode) = none := by
  decide

/-- An instruction is its code and the operand that the code calls for. -/
theorem read_eq_ok {bytes rest : List UInt8} {i : Instr UInt16} :
    read bytes = .ok (i, rest) ↔ bytes = i.encode ++ rest := by
  constructor
  · intro h
    simp only [read, bind_eq_ok, Prod.exists, read8_eq_ok] at h
    -- The tables are searched one after the other, so each case comes with the tables in front having no such code.
    obtain ⟨code, bytes, rfl, h⟩ := h
    split at h
    next op hop =>
      have hcode : op.opcode = code := by simpa using List.find?_some hop
      cases h
      rw [← hcode]
      rfl
    split at h
    next op hop =>
      have hcode : op.opcode = code := by simpa using List.find?_some hop
      simp only [bind_eq_ok, Prod.exists, read8_eq_ok] at h
      obtain ⟨slot, _, rfl, heq⟩ := h
      cases heq
      rw [← hcode]
      rfl
    split at h
    next op hop =>
      have hcode : op.opcode = code := by simpa using List.find?_some hop
      simp only [bind_eq_ok, Prod.exists, read16_eq_ok] at h
      obtain ⟨k, _, rfl, heq⟩ := h
      cases heq
      rw [← hcode]
      rfl
    split at h
    next op hop =>
      have hcode : op.opcode = code := by simpa using List.find?_some hop
      simp only [bind_eq_ok, Prod.exists, read16_eq_ok] at h
      obtain ⟨target, _, rfl, heq⟩ := h
      cases heq
      rw [← hcode]
      rfl
    split at h
    next hcode =>
      simp only [bind_eq_ok, Prod.exists, read32_eq_ok] at h
      obtain ⟨n, _, rfl, heq⟩ := h
      cases heq
      rw [hcode]
      simp [encode]
    next => simp at h
  · rintro rfl
    cases i with
    | bare op =>
        simp [read, encode, bind_eq_ok, read8_eq_ok, find?_bare op]
    | onLocal op slot =>
        simp [read, encode, bind_eq_ok, read8_eq_ok, find?_local op]
    | pushInt n =>
        simpa [read, encode, bind_eq_ok, read8_eq_ok, read32_eq_ok, find?_int] using
          ⟨n.toUInt32, rfl, by simp⟩
    | onConst op k =>
        simp [read, encode, bind_eq_ok, read8_eq_ok, read16_eq_ok, find?_const op]
    | jump op target =>
        simp [read, encode, bind_eq_ok, read8_eq_ok, read16_eq_ok, find?_jump op]

/-- Each instruction is read back from what it is written as. -/
theorem read_reads : Reads Instr.read (fun _ => True) fun i => .ok i.encode := by
  intro bytes i rest
  rw [read_eq_ok]
  simp

theorem concatBytes_encode (code : List (Instr UInt16)) :
    concatBytes (fun i : Instr UInt16 => .ok i.encode) code = .ok (code.flatMap encode) := by
  induction code with
  | nil => rfl
  | cons i code ih =>
      rw [concatBytes_cons_eq_ok]
      exact ⟨_, _, rfl, ih, rfl⟩

end Instr

/-! ## Fields and methods -/

namespace Field

/-- A field is its name and the descriptor of its type. -/
theorem read_reads : Reads Field.read (·.type.WellFormed) encode := by
  intro bytes f rest
  obtain ⟨name, type⟩ := f
  simp only [read, encode, bind_eq_ok, Prod.exists, readText_reads _ _ _ _, dataTypeOf_eq_ok,
    Except.ok.injEq, Prod.mk.injEq, Field.mk.injEq, true_and]
  constructor
  · rintro ⟨_, _, ⟨n, hn, rfl⟩, _, _, ⟨d, hd, rfl⟩, _, ⟨hwf, rfl⟩, ⟨rfl, rfl⟩, rfl⟩
    exact ⟨hwf, _, ⟨n, hn, d, hd, rfl⟩, by simp⟩
  · rintro ⟨hwf, _, ⟨n, hn, d, hd, rfl⟩, rfl⟩
    exact ⟨_, _, ⟨n, hn, List.append_assoc _ _ _⟩, _, _, ⟨d, hd, rfl⟩, _, ⟨hwf, rfl⟩, ⟨rfl, rfl⟩, rfl⟩

end Field

namespace Method

/-- A method is its name, the descriptor of its signature, its frame and its code. -/
theorem read_reads : Reads Method.read (·.signature.WellFormed) encode := by
  intro bytes m rest
  obtain ⟨name, signature, maxStack, maxLocals, code⟩ := m
  simp only [read, encode, bind_eq_ok, Prod.exists, readText_reads _ _ _ _, signatureOf_eq_ok,
    Except.ok.injEq, Prod.mk.injEq, Method.mk.injEq, true_and]
  constructor
  · rintro ⟨_, _, ⟨n, hn, rfl⟩, _, _, ⟨d, hd, rfl⟩, _, ⟨hwf, rfl⟩, _, _, hstack, _, _, hlocals,
      count, _, hcount, instrs, _, hinstrs, ⟨rfl, rfl, rfl, rfl, rfl⟩, rfl⟩
    rw [read16_eq_ok] at hstack hlocals
    obtain ⟨-, written, part, hwritten, hpart, rfl⟩ :=
      (Instr.read_reads.table _ "code").mp ⟨count, _, hcount, hinstrs⟩
    rw [Instr.concatBytes_encode] at hpart
    cases hpart
    exact ⟨hwf, _, ⟨n, hn, d, hd, written, by simpa using hwritten, rfl⟩, by simp [hstack, hlocals]⟩
  · rintro ⟨hwf, _, ⟨n, hn, d, hd, written, hwritten, rfl⟩, rfl⟩
    obtain ⟨count, tail, hcount, hinstrs⟩ :=
      (Instr.read_reads.table "code length" _).mpr
        ⟨fun _ _ => trivial, written, _, by simpa using hwritten, Instr.concatBytes_encode code.toList,
          rfl⟩
    exact ⟨_, _, ⟨n, hn, by simp only [List.append_assoc]⟩, _, _, ⟨d, hd, rfl⟩, _, ⟨hwf, rfl⟩,
      _, _, read16_eq_ok.mpr rfl, _, _, read16_eq_ok.mpr rfl, count, tail, hcount, _, _, hinstrs,
      ⟨rfl, rfl, rfl, rfl, by simp⟩, rfl⟩

end Method

/-! ## Units -/

/-- A role is read just from its tag. -/
theorem Role.ofTag_eq_ok {tag : UInt8} {role : Role} : ofTag tag = .ok role ↔ tag = role.tag := by
  constructor
  · intro h
    unfold ofTag at h
    split at h
    · cases h; assumption
    · split at h
      · cases h; assumption
      · simp at h
  · rintro rfl
    cases role <;> rfl

namespace CodeUnit

/-- Whether the types of all fields and methods survive in a descriptor. -/
def WellFormed (u : CodeUnit) : Prop :=
  (∀ f ∈ u.fields, f.type.WellFormed) ∧ ∀ m ∈ u.methods, m.signature.WellFormed

instance (u : CodeUnit) : Decidable u.WellFormed :=
  inferInstanceAs
    (Decidable ((∀ f ∈ u.fields, f.type.WellFormed) ∧ ∀ m ∈ u.methods, m.signature.WellFormed))

/-- The header is the mark and the version. -/
theorem readHeader_eq_ok {bytes rest : List UInt8} {x : Unit} :
    readHeader bytes = .ok (x, rest) ↔ bytes = mark ++ (bytes16 version ++ rest) := by
  simp only [readHeader, bind_eq_ok, Prod.exists, take_eq_ok]
  constructor
  · rintro ⟨found, _, ⟨-, rfl⟩, h⟩
    split at h
    · simp at h
    next hmark =>
      simp only [bind_eq_ok, Prod.exists, read16_eq_ok] at h
      obtain ⟨foundVersion, _, rfl, h⟩ := h
      split at h
      · simp at h
      next hversion =>
        cases h
        rw [not_ne_iff.mp hmark, not_ne_iff.mp hversion]
  · rintro rfl
    refine ⟨mark, _, ⟨rfl, rfl⟩, ?_⟩
    rw [if_neg (by simp)]
    simp only [bind_eq_ok, Prod.exists, read16_eq_ok]
    exact ⟨version, rest, rfl, by simp⟩

/-- A unit is its header, role and name, and its four tables. -/
theorem read_reads : Reads CodeUnit.read WellFormed encode := by
  intro bytes u rest
  obtain ⟨name, role, interfaces, pool, fields, methods⟩ := u
  simp only [read, encode, bind_eq_ok, Prod.exists, readHeader_eq_ok, read8_eq_ok,
    Role.ofTag_eq_ok, readText_reads _ _ _ _, Pool.read_reads _ _ _, Except.ok.injEq, Prod.mk.injEq,
    CodeUnit.mk.injEq, true_and]
  constructor
  · rintro ⟨_, _, rfl, _, _, rfl, _, rfl, _, _, ⟨n, hn, rfl⟩, icount, _, hicount, _, _, hinterfaces,
      _, _, ⟨p, hp, rfl⟩, fcount, _, hfcount, _, _, hfields, mcount, _, hmcount, _, _, hmethods,
      ⟨rfl, rfl, rfl, rfl, rfl, rfl⟩, rfl⟩
    obtain ⟨-, icount', is, hic, his, rfl⟩ :=
      ((readText_reads _).table _ "interfaces").mp ⟨icount, _, hicount, hinterfaces⟩
    obtain ⟨hfwf, fcount', fs, hfc, hfs, rfl⟩ :=
      (Field.read_reads.table _ "fields").mp ⟨fcount, _, hfcount, hfields⟩
    obtain ⟨hmwf, mcount', ms, hmc, hms, rfl⟩ :=
      (Method.read_reads.table _ "methods").mp ⟨mcount, _, hmcount, hmethods⟩
    exact ⟨⟨hfwf, hmwf⟩, _, ⟨n, hn, icount', hic, is, his, p, hp, fcount', hfc, fs, hfs, mcount', hmc,
      ms, hms, rfl⟩, by simp⟩
  · rintro ⟨⟨hfwf, hmwf⟩, _, ⟨n, hn, icount', hic, is, his, p, hp, fcount', hfc, fs, hfs, mcount', hmc,
      ms, hms, rfl⟩, rfl⟩
    obtain ⟨mcount, _, hmcount, hmethods⟩ :=
      (Method.read_reads.table "method count" _).mpr
        ⟨hmwf, mcount', ms, hmc, hms, rfl⟩
    obtain ⟨fcount, _, hfcount, hfields⟩ :=
      (Field.read_reads.table "field count" _).mpr ⟨hfwf, fcount', fs, hfc, hfs, rfl⟩
    obtain ⟨icount, _, hicount, hinterfaces⟩ :=
      ((readText_reads "interface name").table "interface count" _).mpr
        ⟨fun _ _ => trivial, icount', is, hic, his, rfl⟩
    exact ⟨(), _, by simp only [List.append_assoc, List.cons_append], _, _, rfl, _, rfl, _, _, ⟨n, hn, rfl⟩,
      icount, _, hicount, _, _, hinterfaces, _, _, ⟨p, hp, rfl⟩, fcount, _, hfcount, _, _, hfields,
      mcount, _, hmcount, _, _, hmethods, ⟨rfl, rfl, rfl, rfl, rfl, rfl⟩, rfl⟩

/-- Bytes are read as the unit that is written as them. -/
theorem decode_eq_ok {bytes : List UInt8} {u : CodeUnit} :
    decode bytes = .ok u ↔ u.WellFormed ∧ u.encode = .ok bytes := by
  simp only [decode, bind_eq_ok, Prod.exists, read_reads _ _ _]
  constructor
  · rintro ⟨u', rest, ⟨hwf, part, hpart, rfl⟩, h⟩
    split at h
    · next hrest =>
      cases h
      rw [List.isEmpty_iff.mp hrest, List.append_nil]
      exact ⟨hwf, hpart⟩
    · simp at h
  · rintro ⟨hwf, hpart⟩
    exact ⟨u, [], ⟨hwf, bytes, hpart, by simp⟩, by simp⟩

/-- **Reading and writing undo each other.** Whatever bytes are read as a unit are the bytes of that unit,
with every constant as often as its pool holds it; and a unit whose types survive in a descriptor is
read from its bytes. -/
theorem encode_decode_inverse :
    (∀ (bytes : List UInt8) (u : CodeUnit), decode bytes = .ok u → u.encode = .ok bytes) ∧
      ∀ (u : CodeUnit) (bytes : List UInt8), u.WellFormed → u.encode = .ok bytes →
        decode bytes = .ok u :=
  ⟨fun _ _ h => (decode_eq_ok.mp h).2, fun _ _ hwf h => decode_eq_ok.mpr ⟨hwf, h⟩⟩

/-- A unit whose pool holds a constant twice. -/
def echoed : CodeUnit where
  name := "app.Echo"
  role := .handler
  interfaces := [Platform.handler]
  pool := ⟨#[.string "é", .string "é"]⟩
  fields := [⟨"parts", .array (.object Platform.string)⟩]
  methods := [⟨"last", .returning [.int] (.object Platform.string), 1, 2,
    #[.onConst .loadConst 1, .bare .returnValue]⟩]

theorem encode_decode_inverse_echoed : ∃ bytes : List UInt8,
    echoed.WellFormed ∧ echoed.encode = .ok bytes ∧ decode bytes = .ok echoed ∧
      ∀ u, decode bytes = .ok u → u.encode = .ok bytes := by
  have hwf : echoed.WellFormed := by decide
  obtain ⟨bytes, hbytes⟩ : ∃ bytes, echoed.encode = .ok bytes := ⟨_, rfl⟩
  exact ⟨bytes, hwf, hbytes, encode_decode_inverse.2 echoed bytes hwf hbytes,
    encode_decode_inverse.1 bytes⟩

end CodeUnit

end Routecraft.Bytecode
