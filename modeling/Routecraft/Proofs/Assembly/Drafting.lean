import Routecraft.Proofs.Assembly.Assembling

/-!
# Drafted methods

A method that is added to a draft is the code that was written down for it, and its frame is what was inferred
with the constants and classes known at the time. When the unit is put together it may hold more constants,
and when it is linked more classes are known; the method is still accepted.

* `Method.Drafted`: a method as it was added.
* `Draft.addMethod_eq_ok`: what adding a method does to a draft.
* `Method.Drafted.verified`: an added method is accepted later.
-/

namespace Routecraft.Bytecode

/-- A method of the class `owner` whose code was written down as `a` and accepted with the classes of `h`. -/
structure Method.Drafted (pool : Pool) (owner : String) (h : Hierarchy) (name : String) (s : Signature)
    (a : Assembler) (m : Method) : Prop where
  name : m.name = name
  signature : m.signature = s
  size : m.code.size < 65536
  code : List.Forall₂ (Instr.Resolves pool a.labels) m.code.toList a.instrs.toList
  accepted : ∃ pool' i, pool'.Extends pool ∧
    inferWithin (roundLimit m.code m.signature.params.length pool') owner m.name m.signature m.code pool' h = .ok i ∧
    i.frame = .ok ⟨m.maxStack, m.maxLocals⟩

/-- A method that was put together with a pool is the same method with a larger one. -/
theorem Method.Drafted.extend {pool pool' : Pool} {owner : String} {h : Hierarchy} {name : String}
    {s : Signature} {a : Assembler} {m : Method} (hm : m.Drafted pool owner h name s a)
    (hpool : pool.Extends pool') : m.Drafted pool' owner h name s a where
  name := hm.name
  signature := hm.signature
  size := hm.size
  code := hm.code.imp fun _ _ hi => hi.extend hpool
  accepted := by
    obtain ⟨pool₀, i, hpool₀, hi⟩ := hm.accepted
    exact ⟨pool₀, i, hpool₀.trans hpool, hi⟩

/-- **Adding a method** leaves the other parts of a draft as they are, while constants come to the pool. -/
theorem Draft.addMethod_eq_ok {d d' : Draft} {name : String} {s : Signature} {a : Assembler}
    (h : d.addMethod name s a = (d', .ok ())) :
    d.constants.pool.Extends d'.constants.pool ∧
      ∃ m, d' = { d with constants := d'.constants, methods := d.methods ++ [m] } ∧
        m.Drafted d'.constants.pool d.name d.hierarchy name s a := by
  unfold addMethod at h
  rcases hcode : a.assemble d.constants with ⟨constants, e | code⟩
  · simp [hcode] at h
  · obtain ⟨hsize, hextends, hresolves⟩ := Assembler.assemble_resolves hcode
    simp only [hcode] at h
    split at h
    · simp at h
    · next frame hframe =>
      obtain ⟨rfl, -⟩ := Prod.mk.inj h
      obtain ⟨i, hi, hframe⟩ := bind_eq_ok.mp hframe
      refine ⟨hextends, ⟨name, s, frame.maxStack, frame.maxLocals, code⟩, rfl, ?_⟩
      exact ⟨rfl, rfl, hsize, hresolves, constants.pool, i, .refl _, hi, hframe⟩

theorem roundLimit_mono (code : Code) (params : Nat) {pool pool' : Pool} (h : pool.Extends pool') :
    roundLimit code params pool ≤ roundLimit code params pool' := by
  have hsize : pool.size ≤ pool'.size := h.size_le
  unfold roundLimit enoughRounds
  apply Nat.mul_le_mul_right
  apply Nat.mul_le_mul_left
  apply Nat.add_le_add_right
  apply Nat.mul_le_mul_left
  omega

/-- The edges of a hierarchy are still there with those of a unit. -/
theorem CodeUnit.mem_edges_hierarchyWith {u : CodeUnit} {h : Hierarchy} {e : String × String} :
    e ∈ (u.hierarchyWith h).edges ↔ e ∈ h.edges ∨ ∃ sup ∈ u.interfaces, e = (u.name, sup) := by
  unfold hierarchyWith
  induction u.interfaces generalizing h with
  | nil => simp
  | cons sup interfaces ih =>
      rw [List.foldl_cons, ih]
      simp [Hierarchy.add, or_assoc]

variable {u : CodeUnit} {h h' : Hierarchy} {name : String} {s : Signature} {a : Assembler} {m : Method}

/-- What was inferred for a drafted method is inferred for it in its unit, if no paths meet in its code. -/
theorem Method.Drafted.infer (hm : m.Drafted u.pool u.name h name s a) (hcode : m.code.SingleEntry)
    (hedges : ∀ e ∈ h.edges, e ∈ (u.hierarchyWith h').edges) :
    ∃ i, u.infer (u.rounds m) h' m = .ok i ∧ i.frame = .ok ⟨m.maxStack, m.maxLocals⟩ := by
  obtain ⟨pool, i, hpool, hi, hframe⟩ := hm.accepted
  refine ⟨i, ?_, hframe⟩
  unfold CodeUnit.infer CodeUnit.rounds
  exact inferWithin_transfer hpool hedges (roundLimit_mono _ _ hpool) hcode hi

/-- **A drafted method is accepted in its unit**, if no paths meet in its code. -/
theorem Method.Drafted.verified (hm : m.Drafted u.pool u.name h name s a) (hcode : m.code.SingleEntry)
    (hedges : ∀ e ∈ h.edges, e ∈ (u.hierarchyWith h').edges) :
    u.verifyMethodOf (u.rounds m) h' m = .ok () := by
  obtain ⟨i, hi, hframe⟩ := hm.infer hcode hedges
  unfold CodeUnit.verifyMethodOf
  rw [hi]
  show (i.frame >>= _) = _
  rw [hframe]
  simp [bind, Except.bind]

end Routecraft.Bytecode
