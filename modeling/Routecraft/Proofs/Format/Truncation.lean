import Routecraft.Proofs.Format.RoundTrip

/-!
# Units that are cut off or run on

Every part of a unit that can be longer or shorter stands behind its length or its tag, so the bytes themselves say
where the unit ends. A reader that is given the front of what it could read finds bytes missing before anything else
can be wrong; one that is given more leaves the rest.

* `NoticesEnd`: what a reader does with the front of bytes that it can read; it is kept by sequences of readers.
* `PrefixFree`: written forms of which none is the front of another.
* `CodeUnit.decode_front`, `CodeUnit.decode_append`: units that are cut off, and units that run on.
* `CodeUnit.encode_prefixFree`: no encoded unit is the front of another, whatever class names it has.
* `CodeUnit.damaged_lengths`: the three together.
-/

namespace Routecraft.Bytecode

variable {α β : Type}

/-! ## Readers that notice the end -/

/-- On the front of bytes that it can read, a reader comes to the same part, with as much less left, or it says that
some of the bytes behind the front are missing. -/
def NoticesEnd (read : Reader α) : Prop :=
  ∀ (front more rest : List UInt8) (x : α), read (front ++ more) = .ok (x, rest) →
    (∃ left, read front = .ok (x, left) ∧ rest = left ++ more) ∨
      ∃ part missing, read front = .error (.truncated part missing) ∧ 0 < missing ∧ missing ≤ more.length

namespace NoticesEnd

/-- What takes nothing notices the end. -/
theorem ok (x : α) : NoticesEnd fun bytes => .ok (x, bytes) := by
  intro front more rest y h
  obtain ⟨rfl, rfl⟩ : x = y ∧ front ++ more = rest := by simpa using h
  exact .inl ⟨front, rfl, rfl⟩

/-- What always fails notices the end. -/
theorem error (e : UnitError) : NoticesEnd fun _ => (.error e : Except UnitError (α × List UInt8)) := by
  intro front more rest x h
  cases h

/-- One part after the other. -/
theorem bind {read : Reader α} {next : α × List UInt8 → Except UnitError (β × List UInt8)} (hread : NoticesEnd read)
    (hnext : ∀ x, NoticesEnd fun bytes => next (x, bytes)) : NoticesEnd fun bytes => read bytes >>= next := by
  intro front more rest y h
  obtain ⟨⟨x, rest₁⟩, hx, hy⟩ := bind_eq_ok.mp h
  rcases hread front more rest₁ x hx with ⟨left, hleft, rfl⟩ | ⟨part, missing, herror, hmissing⟩
  · show (∃ left, (read front >>= next) = _ ∧ _) ∨ ∃ part missing, (read front >>= next) = _ ∧ _
    rw [hleft, ok_bind]
    exact hnext x left more rest y hy
  · refine .inr ⟨part, missing, ?_, hmissing⟩
    show (read front >>= next) = _
    rw [herror]
    rfl

/-- A part after something that does not look at the bytes. -/
theorem after {step : Except UnitError α} {next : α → Reader β} (hnext : ∀ x, NoticesEnd (next x)) :
    NoticesEnd fun bytes => step >>= fun x => next x bytes := by
  cases step with
  | error e => exact error e
  | ok x => exact hnext x

/-- A choice notices the end if both ways do. -/
theorem ite {c : Prop} [Decidable c] {read read' : Reader α} (hread : NoticesEnd read) (hread' : NoticesEnd read') :
    NoticesEnd fun bytes => if c then read bytes else read' bytes := by
  by_cases hc : c
  · simpa only [if_pos hc] using hread
  · simpa only [if_neg hc] using hread'

/-! ## Bytes and numbers -/

/-- Taking bytes notices the end. -/
theorem takeOnto (part : String) (count : Nat) (before : List UInt8) :
    NoticesEnd (Bytecode.takeOnto part count before) := by
  induction count generalizing before with
  | zero => exact ok _
  | succ count ih =>
      intro front more rest x h
      cases front with
      | nil =>
          -- All that is to be taken stands behind the front.
          obtain ⟨new, hnew, -, hmore⟩ := takeOnto_eq_ok.mp h
          have hlength : count + 1 ≤ more.length := by
            rw [← List.nil_append more, hmore, List.length_append]
            omega
          exact .inr ⟨part, count + 1, rfl, Nat.succ_pos count, hlength⟩
      | cons b front => exact ih (b :: before) front more rest x h

theorem take (part : String) (count : Nat) : NoticesEnd (Bytecode.take part count) := takeOnto part count []

theorem readNat (part : String) (count : Nat) : NoticesEnd (Bytecode.readNat part count) :=
  bind (take part count) fun _ => ok _

theorem read8 (part : String) : NoticesEnd (Bytecode.read8 part) := bind (readNat part 1) fun _ => ok _

theorem read16 (part : String) : NoticesEnd (Bytecode.read16 part) := bind (readNat part 2) fun _ => ok _

theorem read32 (part : String) : NoticesEnd (Bytecode.read32 part) := bind (readNat part 4) fun _ => ok _

theorem read64 (part : String) : NoticesEnd (Bytecode.read64 part) := bind (readNat part 8) fun _ => ok _

/-! ## Texts and sequences -/

/-- Reading a text notices the end. -/
theorem readText (part : String) : NoticesEnd (Bytecode.readText part) := by
  refine bind (readNat part 2) fun count => bind (take part count) fun taken => ?_
  dsimp only
  cases Text.ofUtf8? taken with
  | none => exact error _
  | some s => exact ok s

/-- Reading items notices the end if each item does. -/
theorem readManyOnto {read : Reader α} (hread : NoticesEnd read) (count : Nat) (done : List α) :
    NoticesEnd (Bytecode.readManyOnto read count done) := by
  induction count generalizing done with
  | zero => exact ok _
  | succ count ih =>
      have hbind : Bytecode.readManyOnto read (count + 1) done = fun bytes =>
          read bytes >>= fun (x, rest) => Bytecode.readManyOnto read count (x :: done) rest := by
        funext bytes
        rw [Bytecode.readManyOnto]
        rcases read bytes with e | ⟨x, rest⟩ <;> rfl
      rw [hbind]
      exact bind hread fun x => ih (x :: done)

theorem readMany {read : Reader α} (hread : NoticesEnd read) (count : Nat) :
    NoticesEnd (Bytecode.readMany read count) := readManyOnto hread count []

end NoticesEnd

/-! ## The parts of a unit -/

theorem Member.noticesEnd : NoticesEnd Member.read :=
  .bind (.readText _) fun _ => .bind (.readText _) fun _ => .bind (.readText _) fun _ => .ok _

theorem Constant.noticesEnd : NoticesEnd Constant.read := by
  refine .bind (.read8 _) fun tag => ?_
  refine .ite (.bind (.read32 _) fun _ => .ok _) ?_
  refine .ite (.bind (.read64 _) fun _ => .ok _) ?_
  refine .ite (.bind (.read32 _) fun _ => .ok _) ?_
  refine .ite (.bind (.read64 _) fun _ => .ok _) ?_
  refine .ite (.bind (.readText _) fun _ => .ok _) ?_
  refine .ite (.bind (.readText _) fun _ => .ok _) ?_
  refine .ite (.bind Member.noticesEnd fun m => .ok (Constant.field m)) ?_
  refine .ite (.bind Member.noticesEnd fun m => .ok (Constant.method m)) ?_
  exact .ite (.bind Member.noticesEnd fun m => .ok (Constant.interfaceMethod m)) (.error _)

theorem Pool.noticesEnd : NoticesEnd Pool.read :=
  .bind (.read16 _) fun _ => .bind (.readMany Constant.noticesEnd _) fun _ => .ok _

theorem Instr.noticesEnd : NoticesEnd Instr.read := by
  refine .bind (.read8 _) fun code => ?_
  dsimp only
  cases BareOp.all.find? (·.opcode == code) with
  | some op => exact .ok _
  | none =>
  cases LocalOp.all.find? (·.opcode == code) with
  | some op => exact .bind (.read8 _) fun slot => .ok (Instr.onLocal op slot)
  | none =>
  cases ConstOp.all.find? (·.opcode == code) with
  | some op => exact .bind (.read16 _) fun k => .ok (Instr.onConst op k)
  | none =>
  cases JumpOp.all.find? (·.opcode == code) with
  | some op => exact .bind (.read16 _) fun target => .ok (Instr.jump op target)
  | none => exact .ite (.bind (.read32 _) fun n => .ok (Instr.pushInt n.toInt32)) (.error _)

theorem Field.noticesEnd : NoticesEnd Field.read :=
  .bind (.readText _) fun _ => .bind (.readText _) fun _ => .after fun _ => .ok _

theorem Method.noticesEnd : NoticesEnd Method.read :=
  .bind (.readText _) fun _ => .bind (.readText _) fun _ => .after fun _ => .bind (.read16 _) fun _ =>
    .bind (.read16 _) fun _ => .bind (.read16 _) fun _ => .bind (.readMany Instr.noticesEnd _) fun _ => .ok _

namespace CodeUnit

/-- Reading the header notices the end. -/
theorem noticesEnd_readHeader : NoticesEnd readHeader := by
  refine .bind (.take _ 4) fun found => .ite (.error _) ?_
  exact .bind (.read16 _) fun foundVersion => .ite (.error _) (.ok _)

/-- **Readers of units notice the end**, whichever part of the unit it is in. -/
theorem noticesEnd : NoticesEnd CodeUnit.read :=
  .bind noticesEnd_readHeader fun _ => .bind (.read8 _) fun _ => .after fun _ => .bind (.readText _) fun _ =>
    .bind (.read16 _) fun _ => .bind (.readMany (.readText _) _) fun _ => .bind Pool.noticesEnd fun _ =>
    .bind (.read16 _) fun _ => .bind (.readMany Field.noticesEnd _) fun _ =>
    .bind (.read16 _) fun _ => .bind (.readMany Method.noticesEnd _) fun _ => .ok _

end CodeUnit

/-! ## Written forms that do not run into each other -/

/-- What is written for one value is no front of what is written for another. -/
def PrefixFree (bytesOf : α → Except UnitError (List UInt8)) : Prop :=
  ∀ (x y : α) (p q m n : List UInt8), bytesOf x = .ok p → bytesOf y = .ok q → p ++ m = q ++ n → p = q ∧ m = n

section

variable {bytesOf : α → Except UnitError (List UInt8)} {p q m n : List UInt8}

/-- What is written without prefixes can be split in one way only. -/
theorem PrefixFree.split (h : PrefixFree bytesOf) {x y : α} (hp : bytesOf x = .ok p) (hq : bytesOf y = .ok q)
    (heq : p ++ m = q ++ n) : p = q ∧ m = n := h x y p q m n hp hq heq

/-- What can be read back, whatever the value is, does not run into what comes behind it. -/
theorem Reads.prefixFree {read : Reader α} (h : Reads read (fun _ => True) bytesOf) : PrefixFree bytesOf := by
  intro x y p q m n hp hq heq
  have hx : read (p ++ m) = .ok (x, m) := (h _ x m).mpr ⟨trivial, p, hp, rfl⟩
  have hy : read (p ++ m) = .ok (y, n) := (h _ y n).mpr ⟨trivial, q, hq, heq⟩
  obtain ⟨-, rfl⟩ : x = y ∧ m = n := by simpa [hx] using hy
  exact ⟨List.append_cancel_right heq, rfl⟩

/-- No text is written as the front of another. -/
theorem textBytes_prefixFree : PrefixFree textBytes := (readText_reads "").prefixFree

/-- Sequences of as many parts. -/
theorem PrefixFree.concat (h : PrefixFree bytesOf) {xs ys : List α} (hlength : xs.length = ys.length)
    (hp : concatBytes bytesOf xs = .ok p) (hq : concatBytes bytesOf ys = .ok q) (heq : p ++ m = q ++ n) :
    p = q ∧ m = n := by
  induction xs generalizing ys p q with
  | nil =>
      obtain rfl := List.length_eq_zero_iff.mp hlength.symm
      cases hp
      cases hq
      exact ⟨rfl, heq⟩
  | cons x xs ih =>
      obtain ⟨y, ys, rfl⟩ := List.exists_cons_of_length_eq_add_one hlength.symm
      obtain ⟨px, ps, hpx, hps, rfl⟩ := concatBytes_cons_eq_ok.mp hp
      obtain ⟨qy, qs, hqy, hqs, rfl⟩ := concatBytes_cons_eq_ok.mp hq
      rw [List.append_assoc, List.append_assoc] at heq
      obtain ⟨rfl, htail⟩ := h.split hpx hqy heq
      obtain ⟨rfl, hrest⟩ := ih (Nat.succ.inj hlength) hps hqs htail
      exact ⟨rfl, hrest⟩

/-- Tables, with their counts in front. -/
theorem PrefixFree.table (h : PrefixFree bytesOf) {name : String} {xs ys : List α} {c d : List UInt8}
    (hc : countBytes name xs.length = .ok c) (hd : countBytes name ys.length = .ok d)
    (hp : concatBytes bytesOf xs = .ok p) (hq : concatBytes bytesOf ys = .ok q)
    (heq : c ++ (p ++ m) = d ++ (q ++ n)) : c = d ∧ p = q ∧ m = n := by
  obtain ⟨hxs, rfl⟩ := countBytes_eq_ok.mp hc
  obtain ⟨hys, rfl⟩ := countBytes_eq_ok.mp hd
  obtain ⟨hcount, htail⟩ := List.append_inj heq (by simp)
  have hread : ofBigEndian (bigEndian 2 xs.length) = xs.length := ofBigEndian_bigEndian_of_lt hxs
  have hread' : ofBigEndian (bigEndian 2 ys.length) = ys.length := ofBigEndian_bigEndian_of_lt hys
  have hlength : xs.length = ys.length := by rw [← hread, hcount, hread']
  exact ⟨hcount, h.concat hlength hp hq htail⟩

end

theorem Field.encode_prefixFree : PrefixFree Field.encode := by
  intro f g p q m n hp hq heq
  obtain ⟨pname, hpname, hp⟩ := bind_eq_ok.mp hp
  obtain ⟨ptype, hptype, hp⟩ := bind_eq_ok.mp hp
  obtain ⟨qname, hqname, hq⟩ := bind_eq_ok.mp hq
  obtain ⟨qtype, hqtype, hq⟩ := bind_eq_ok.mp hq
  cases hp
  cases hq
  rw [List.append_assoc, List.append_assoc] at heq
  obtain ⟨hname, htail⟩ := textBytes_prefixFree.split hpname hqname heq
  obtain ⟨htype, hrest⟩ := textBytes_prefixFree.split hptype hqtype htail
  exact ⟨by rw [hname, htype], hrest⟩

theorem Method.encode_prefixFree : PrefixFree Method.encode := by
  intro f g p q m n hp hq heq
  obtain ⟨pname, hpname, hp⟩ := bind_eq_ok.mp hp
  obtain ⟨ptype, hptype, hp⟩ := bind_eq_ok.mp hp
  obtain ⟨pcount, hpcount, hp⟩ := bind_eq_ok.mp hp
  obtain ⟨qname, hqname, hq⟩ := bind_eq_ok.mp hq
  obtain ⟨qtype, hqtype, hq⟩ := bind_eq_ok.mp hq
  obtain ⟨qcount, hqcount, hq⟩ := bind_eq_ok.mp hq
  cases hp
  cases hq
  simp only [List.append_assoc] at heq
  obtain ⟨hname, hafter⟩ := textBytes_prefixFree.split hpname hqname heq
  obtain ⟨htype, hframe⟩ := textBytes_prefixFree.split hptype hqtype hafter
  obtain ⟨hstack, hframe⟩ := List.append_inj hframe (by simp [bytes16])
  obtain ⟨hlocals, hbody⟩ := List.append_inj hframe (by simp [bytes16])
  obtain ⟨hcount, hcode, hrest⟩ := Instr.read_reads.prefixFree.table hpcount hqcount (Instr.concatBytes_encode _)
    (Instr.concatBytes_encode _) hbody
  exact ⟨by rw [hname, htype, hstack, hlocals, hcount, hcode], hrest⟩

namespace CodeUnit

variable {u v : CodeUnit} {bytes bytes' front more : List UInt8}

/-- **No encoded unit is the front of another**, whether it can be read back or not. -/
theorem encode_prefixFree : PrefixFree CodeUnit.encode := by
  intro u v p q m n hp hq heq
  obtain ⟨pname, hpname, hp⟩ := bind_eq_ok.mp hp
  obtain ⟨picount, hpicount, hp⟩ := bind_eq_ok.mp hp
  obtain ⟨pinterfaces, hpinterfaces, hp⟩ := bind_eq_ok.mp hp
  obtain ⟨ppool, hppool, hp⟩ := bind_eq_ok.mp hp
  obtain ⟨pfcount, hpfcount, hp⟩ := bind_eq_ok.mp hp
  obtain ⟨pfields, hpfields, hp⟩ := bind_eq_ok.mp hp
  obtain ⟨pmcount, hpmcount, hp⟩ := bind_eq_ok.mp hp
  obtain ⟨pmethods, hpmethods, hp⟩ := bind_eq_ok.mp hp
  obtain ⟨qname, hqname, hq⟩ := bind_eq_ok.mp hq
  obtain ⟨qicount, hqicount, hq⟩ := bind_eq_ok.mp hq
  obtain ⟨qinterfaces, hqinterfaces, hq⟩ := bind_eq_ok.mp hq
  obtain ⟨qpool, hqpool, hq⟩ := bind_eq_ok.mp hq
  obtain ⟨qfcount, hqfcount, hq⟩ := bind_eq_ok.mp hq
  obtain ⟨qfields, hqfields, hq⟩ := bind_eq_ok.mp hq
  obtain ⟨qmcount, hqmcount, hq⟩ := bind_eq_ok.mp hq
  obtain ⟨qmethods, hqmethods, hq⟩ := bind_eq_ok.mp hq
  cases hp
  cases hq
  -- Part by part the two encodings are the same, and so are what they encode.
  simp only [List.append_assoc, List.cons_append, List.append_cancel_left_eq, List.cons.injEq] at heq
  obtain ⟨hrole, hbody⟩ := heq
  obtain ⟨hname, hbody⟩ := textBytes_prefixFree.split hpname hqname hbody
  obtain ⟨hicount, hinterfaces, hbody⟩ :=
    textBytes_prefixFree.table hpicount hqicount hpinterfaces hqinterfaces hbody
  obtain ⟨hpool, hbody⟩ := Pool.read_reads.prefixFree.split hppool hqpool hbody
  obtain ⟨hfcount, hfields, hbody⟩ := Field.encode_prefixFree.table hpfcount hqfcount hpfields hqfields hbody
  obtain ⟨hmcount, hmethods, hrest⟩ := Method.encode_prefixFree.table hpmcount hqmcount hpmethods hqmethods hbody
  exact ⟨by rw [hrole, hname, hicount, hinterfaces, hpool, hfcount, hfields, hmcount, hmethods], hrest⟩

/-! ## Damaged units -/

/-- A unit is decoded if it can be read and nothing is left. -/
theorem decode_eq_ok_iff_read : decode bytes = .ok u ↔ read bytes = .ok (u, []) := by
  rw [decode_eq_ok, read_reads]
  simp

/-- **A unit that is cut off** is one of which bytes are missing, and of no other fault. -/
theorem decode_front (h : decode bytes = .ok u) (hfront : front <+: bytes) (hne : front ≠ bytes) :
    ∃ part missing, decode front = .error (.truncated part missing) ∧
      0 < missing ∧ missing ≤ bytes.length - front.length := by
  obtain ⟨more, rfl⟩ := hfront
  rcases noticesEnd front more [] u (decode_eq_ok_iff_read.mp h) with
    ⟨left, -, hleft⟩ | ⟨part, missing, hread, hmissing⟩
  · have hmore : more = [] := (List.append_eq_nil_iff.mp hleft.symm).2
    exact absurd (by rw [hmore, List.append_nil]) hne
  · refine ⟨part, missing, by rw [decode, hread]; rfl, ?_⟩
    rwa [List.length_append, Nat.add_sub_cancel_left]

/-- **A unit that runs on** has trailing bytes, all of which are counted. -/
theorem decode_append (h : decode bytes = .ok u) (hmore : more ≠ []) :
    decode (bytes ++ more) = .error (.malformed u.name (.trailingBytes more.length)) := by
  obtain ⟨hwf, hencode⟩ := decode_eq_ok.mp h
  have hread : read (bytes ++ more) = .ok (u, more) := (read_reads _ u more).mpr ⟨hwf, bytes, hencode, rfl⟩
  rw [decode, hread, ok_bind]
  simp [hmore]

/-- **Damaged lengths are noticed.** A unit that is read from its bytes is not read from fewer or more of them: with
some missing at the end, the error says that the unit is cut off, and by at least one byte and no more than there are
missing; with others behind them, it counts these. And of all encoded units, none is the front of another. -/
theorem damaged_lengths :
    (∀ (u : CodeUnit) (bytes : List UInt8), u.encode = .ok bytes → decode bytes = .ok u →
      (∀ front, front <+: bytes → front ≠ bytes → ∃ part missing, decode front = .error (.truncated part missing) ∧
        0 < missing ∧ missing ≤ bytes.length - front.length) ∧
      ∀ more, more ≠ [] →
        decode (bytes ++ more) = .error (.malformed u.name (.trailingBytes more.length))) ∧
    ∀ (u v : CodeUnit) (bytes bytes' : List UInt8), u.encode = .ok bytes → v.encode = .ok bytes' →
      bytes <+: bytes' → bytes = bytes' := by
  constructor
  · intro u bytes _ h
    exact ⟨fun front => decode_front h, fun more => decode_append h⟩
  · rintro u v bytes _ hu hv ⟨rest, rfl⟩
    exact (encode_prefixFree.split hu hv (List.append_nil _).symm).1

/-- A unit that is cut off within the descriptor of its field, that runs on by two bytes, and that has another one with
a longer name. -/
theorem damaged_lengths_echoed : ∃ bytes bytes' : List UInt8,
    echoed.encode = .ok bytes ∧ decode bytes = .ok echoed ∧
      (∃ part missing, decode (bytes.take 72) = .error (.truncated part missing) ∧ 0 < missing) ∧
      decode (bytes ++ [0, 0]) = .error (.malformed echoed.name (.trailingBytes 2)) ∧
      CodeUnit.encode { echoed with name := "app.EchoAgain" } = .ok bytes' ∧ ¬bytes <+: bytes' := by
  obtain ⟨bytes, hbytes, hcut⟩ : ∃ bytes, echoed.encode = .ok bytes ∧ bytes.take 72 ≠ bytes :=
    ⟨_, rfl, by decide +kernel⟩
  obtain ⟨bytes', hbytes', hne⟩ : ∃ bytes', CodeUnit.encode { echoed with name := "app.EchoAgain" } = .ok bytes' ∧
      bytes ≠ bytes' := by
    refine ⟨_, rfl, ?_⟩
    rintro rfl
    cases hbytes
  have hdecode : decode bytes = .ok echoed := decode_eq_ok.mpr ⟨by decide, hbytes⟩
  obtain ⟨hdamaged, hfree⟩ := damaged_lengths
  obtain ⟨hfront, hmore⟩ := hdamaged echoed bytes hbytes hdecode
  obtain ⟨part, missing, hpart, hmissing, -⟩ := hfront (bytes.take 72) (List.take_prefix 72 bytes) hcut
  exact ⟨bytes, bytes', hbytes, hdecode, ⟨part, missing, hpart, hmissing⟩, hmore [0, 0] (by simp), hbytes',
    fun h => hne (hfree _ _ bytes bytes' hbytes hbytes' h)⟩

end CodeUnit

end Routecraft.Bytecode
