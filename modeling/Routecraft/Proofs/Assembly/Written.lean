import Routecraft.Proofs.Assembly.Assembling
import Routecraft.Proofs.Verification.InOrder

/-!
# The effects of code as it is written down

An instruction that is written down with its constant has an effect on frame types of its own, whatever the pool
that the constant comes to stand in, as long as the constant is of a kind that the operation takes. So what the
checker says of assembled code is known before there is a pool.

* `Hierarchy.effect`, `Hierarchy.effects`: the effects of written instructions.
* `Checker.afterAll_eq_effects`: assembled code has the effects of the written one.
* `Code.inOrder_of_line`, `Code.inOrder_of_branch`: code that is run through in order.
* `Assembler.assemble_ok`: when code can be assembled.
* `Draft.addMethod_of_effects`: what is said of a method that is added to a draft.
-/

namespace Routecraft.Bytecode

/-! ## Written instructions -/

namespace Instr

/-- The pool of an instruction's own constant. -/
def ownPool : Instr Constant → Pool
  | .onConst _ k => ⟨#[k]⟩
  | _ => .empty

/-- The instruction with its constant at the first place. -/
def alone : Instr Constant → Instr UInt16
  | .bare op => .bare op
  | .onLocal op slot => .onLocal op slot
  | .pushInt n => .pushInt n
  | .onConst op _ => .onConst op 0
  | .jump op label => .jump op label

/-- Whether the constant of an instruction is of a kind that its operation takes. -/
def suits : Instr Constant → Bool
  | .onConst op k => op.takes k
  | _ => true

theorem suits_of_isStraight {i : Instr Constant} (h : i.isStraight = true) : i.suits = true := by
  cases i with
  | onConst op k => exact h
  | _ => rfl

theorem suits_of_endsBlock {i : Instr Constant} (h : i.endsBlock = true) : i.suits = true := by
  cases i with
  | onConst op k => cases h
  | _ => rfl

theorem target?_of_isStraight {i : Instr Constant} (h : i.isStraight = true) : i.target? = none := by
  cases i with
  | jump op label => cases h
  | _ => rfl

end Instr

namespace Hierarchy

variable (h : Hierarchy) (result : Option DataType)

/-- The frame type after a written instruction of a method with this result. -/
def effect (f : FrameType) (i : Instr Constant) : Except StepError FrameType :=
  Checker.after ⟨i.ownPool, h, result⟩ f i.alone

/-- The frame type after several written instructions. -/
def effects (f : FrameType) (is : List (Instr Constant)) : Except StepError FrameType := is.foldlM (h.effect result) f

@[simp] theorem effects_nil (f : FrameType) : h.effects result f [] = .ok f := rfl

theorem effects_cons (f : FrameType) (i : Instr Constant) (is : List (Instr Constant)) :
    h.effects result f (i :: is) = h.effect result f i >>= fun g => h.effects result g is := List.foldlM_cons

/-- The effect of code in two pieces is that of the one and then of the other. -/
theorem effects_append (f : FrameType) (is js : List (Instr Constant)) :
    h.effects result f (is ++ js) = h.effects result f is >>= fun g => h.effects result g js := List.foldlM_append

end Hierarchy

namespace Checker

variable {h : Hierarchy} {result : Option DataType} {f : FrameType}

/-- The effect of an operation depends on the constant, not on its place. -/
theorem stepConst_congr {pool pool' : Pool} {k k' : UInt16} {x : Constant} (hk : pool.get k = .ok x)
    (hk' : pool'.get k' = .ok x) {op : ConstOp} (htakes : op.takes x = true) :
    stepConst ⟨pool, h, result⟩ f k op = stepConst ⟨pool', h, result⟩ f k' op := by
  cases op
  case loadConst => simp only [stepConst, hk, hk']
  case getField | putField | getStatic =>
    cases x <;> simp only [ConstOp.takes, reduceCtorEq] at htakes
    simp only [stepConst, Pool.fieldAt_eq_ok.mpr hk, Pool.fieldAt_eq_ok.mpr hk']
  case newObject | newArray | checkCast =>
    cases x <;> simp only [ConstOp.takes, reduceCtorEq] at htakes
    simp only [stepConst, Pool.classAt_eq_ok.mpr hk, Pool.classAt_eq_ok.mpr hk']
  case invokeVirtual | invokeStatic | invokeSpecial =>
    cases x <;> simp only [ConstOp.takes, reduceCtorEq] at htakes
    next m =>
    have hm : pool.methodAt k false = .ok m := Pool.methodAt_eq_ok.mpr hk
    have hm' : pool'.methodAt k' false = .ok m := Pool.methodAt_eq_ok.mpr hk'
    simp only [stepConst, stepInvoke, stepInvokeStatic, stepInvokeSpecial, hm, hm']
  case invokeInterface =>
    cases x <;> simp only [ConstOp.takes, reduceCtorEq] at htakes
    next m =>
    have hm : pool.methodAt k true = .ok m := Pool.methodAt_eq_ok.mpr hk
    have hm' : pool'.methodAt k' true = .ok m := Pool.methodAt_eq_ok.mpr hk'
    simp only [stepConst, stepInvoke, hm, hm']

/-- An instruction of assembled code has the effect of the one that was written down. -/
theorem after_eq_effect {pool : Pool} {labels : Array (Option UInt16)} {i : Instr UInt16} {i' : Instr Constant}
    (hi : Instr.Resolves pool labels i i') (hsuits : i'.suits = true) :
    after ⟨pool, h, result⟩ f i = h.effect result f i' := by
  cases hi with
  | bare op => cases op <;> rfl
  | onLocal op slot => rfl
  | pushInt n => rfl
  | @onConst op k x hk =>
      have hstep : stepConst ⟨pool, h, result⟩ f k op = stepConst ⟨⟨#[x]⟩, h, result⟩ f 0 op :=
        stepConst_congr hk rfl hsuits
      exact congrArg (·.map (·.2)) hstep
  | jump op hlabel =>
      cases op
      case goto => rfl
      case ifFalse =>
        show (f.popAccepted h .boolean >>= _).map _ = (f.popAccepted h .boolean >>= _).map _
        cases f.popAccepted h .boolean <;> rfl

/-- **Assembled code has the effects of the code that was written down.** -/
theorem afterAll_eq_effects {pool : Pool} {labels : Array (Option UInt16)} {is : List (Instr UInt16)}
    {is' : List (Instr Constant)} (his : List.Forall₂ (Instr.Resolves pool labels) is is')
    (hsuits : ∀ i ∈ is', i.suits = true) : afterAll ⟨pool, h, result⟩ f is = h.effects result f is' := by
  induction his generalizing f with
  | nil => rfl
  | cons hi _ ih =>
      obtain ⟨hfirst, hrest⟩ := List.forall_mem_cons.mp hsuits
      rw [afterAll_cons, Hierarchy.effects_cons, after_eq_effect hi hfirst]
      congr 1
      funext g
      exact ih hrest

end Checker

/-! ## Code that is run through in order -/

namespace Code

variable {c : Checker} {start : FrameType} {code : Code}

/-- Code in which control only goes on is run through in order. -/
theorem inOrder_of_line (hpos : 0 < code.size)
    (h : ∀ {q i}, code[q]? = some i → i.targets q = if q + 1 < code.size then [q + 1] else []) :
    code.InOrder c start where
  nonempty := hpos
  flow {q i f g} hi hf hg t ht := by
    rw [h hi] at ht
    split at ht
    · next hlt =>
      rw [List.mem_singleton.mp ht]
      refine ⟨hlt, ?_⟩
      rw [Checker.afterAll_take_succ hf (by rw [Array.getElem?_toList]; exact hi), hg]
    · cases ht
  before q hpos hq := by
    have hget : code[q - 1]? = some code[q - 1] := Array.getElem?_eq_getElem (by omega)
    refine ⟨q - 1, _, by omega, hget, ?_⟩
    rw [h hget, if_pos (by omega), List.mem_singleton]
    omega

/-- So is code whose only jump skips over two instructions, of which the second is a return, if these two leave
what the jump does. -/
theorem inOrder_of_branch {q₀ : Nat} {target : UInt16} (hjump : code[q₀]? = some (.jump .ifFalse target))
    (htarget : target.toNat = q₀ + 3) (hlt : q₀ + 3 < code.size)
    (h : ∀ {q i}, code[q]? = some i → q ≠ q₀ →
      i.targets q = if q + 1 < code.size ∧ q ≠ q₀ + 2 then [q + 1] else [])
    (hsame : ∀ {g}, c.afterAll start (code.toList.take (q₀ + 1)) = .ok g →
      c.afterAll start (code.toList.take (q₀ + 3)) = .ok g) : code.InOrder c start where
  nonempty := by omega
  flow {q i f g} hi hf hg t ht := by
    have hafter : c.afterAll start (code.toList.take (q + 1)) = .ok g := by
      rw [Checker.afterAll_take_succ hf (by rw [Array.getElem?_toList]; exact hi), hg]
    by_cases hq : q = q₀
    · subst hq
      obtain rfl := Option.some.inj (hi.symm.trans hjump)
      -- Control goes on behind the jump, or to its target, where the frame is the same.
      rcases List.mem_pair.mp ht with rfl | rfl
      · exact ⟨by omega, hafter⟩
      · rw [htarget]
        exact ⟨hlt, hsame hafter⟩
    · rw [h hi hq] at ht
      split at ht
      · next hnext =>
        rw [List.mem_singleton.mp ht]
        exact ⟨hnext.1, hafter⟩
      · cases ht
  before q hpos hq := by
    by_cases hbehind : q = q₀ + 1 ∨ q = q₀ + 3
    · -- The place behind the return is reached by the jump only.
      refine ⟨q₀, _, by omega, hjump, List.mem_pair.mpr ?_⟩
      rw [htarget]
      exact hbehind
    · have hget : code[q - 1]? = some code[q - 1] := Array.getElem?_eq_getElem (by omega)
      refine ⟨q - 1, _, by omega, hget, ?_⟩
      rw [h hget (by omega), if_pos (by omega), List.mem_singleton]
      omega

/-- The last instruction of written code, and where control goes from the others. -/
theorem targets_of_line {pool : Pool} {labels : Array (Option UInt16)} {is : List (Instr Constant)}
    {last : Instr Constant} (hcode : List.Forall₂ (Instr.Resolves pool labels) code.toList (is ++ [last]))
    (hlast : last.endsBlock = true ∧ last.target? = none) {q : Nat} {i : Instr UInt16} (hi : code[q]? = some i)
    (hstraight : ∀ i', is[q]? = some i' → i'.isStraight = true) :
    i.targets q = if q + 1 < code.size then [q + 1] else [] := by
  have hlength := hcode.length_eq
  rw [List.length_append, List.length_singleton, Array.length_toList] at hlength
  obtain ⟨i', hi', hresolves⟩ := resolves_at hcode hi
  rcases Nat.lt_or_ge q is.length with hlt | hge
  · rw [List.getElem?_append_left hlt] at hi'
    rw [if_pos (by omega)]
    exact hresolves.targets (hstraight i' hi') q
  · have hq : q < code.size := (Array.getElem?_eq_some_iff.mp hi).1
    rw [List.getElem?_append_right hge, show q - is.length = 0 by omega] at hi'
    obtain rfl := Option.some.inj hi'
    rw [if_neg (by omega)]
    cases hresolves with
    | bare op => cases op <;> first | rfl | simp [Instr.endsBlock] at hlast
    | jump op hlabel => simp [Instr.target?] at hlast
    | _ => simp [Instr.endsBlock] at hlast

/-- Code without jumps that ends with a return is run through in order. -/
theorem inOrder_of_straight {pool : Pool} {labels : Array (Option UInt16)} {is : List (Instr Constant)}
    {last : Instr Constant} (hcode : List.Forall₂ (Instr.Resolves pool labels) code.toList (is ++ [last]))
    (his : ∀ i ∈ is, i.isStraight = true) (hlast : last.endsBlock = true ∧ last.target? = none) :
    code.InOrder c start := by
  apply inOrder_of_line
  · have hlength := hcode.length_eq
    rw [List.length_append, List.length_singleton, Array.length_toList] at hlength
    omega
  · intro q i hi
    exact targets_of_line hcode hlast hi fun i' hi' => his i' (List.mem_of_getElem? hi')

end Code

/-! ## Room -/

/-- A constant has a place in a pool that is not full. -/
theorem Interner.intern_ok {b : Interner} (hroom : b.pool.size < poolLimit) (x : Constant) :
    ∃ b' k, b.intern x = (b', .ok k) ∧ b'.pool.size ≤ b.pool.size + 1 := by
  rcases b.intern_cases x with ⟨-, k, h, -⟩ | ⟨-, b', k, h, -, hlist⟩ | ⟨-, hfull, -⟩
  · exact ⟨b, k, h, Nat.le_succ _⟩
  · refine ⟨b', k, h, ?_⟩
    rw [← Pool.length_toList, ← Pool.length_toList, hlist, List.length_append, List.length_singleton]
  · exact absurd hfull (Nat.ne_of_lt hroom)

namespace Assembler

variable {labels : Array (Option UInt16)} {b : Interner}

/-- Whether the label of a jump has a place. -/
def Bound (labels : Array (Option UInt16)) (i : Instr Constant) : Prop :=
  ∀ label, i.target? = some label → ∃ place, labels[label.toNat]? = some (some place)

/-- How many of the instructions have a constant. -/
def constantCount (is : List (Instr Constant)) : Nat := is.countP fun i => i.const?.isSome

theorem constantCount_cons (i : Instr Constant) (is : List (Instr Constant)) :
    constantCount (i :: is) = constantCount [i] + constantCount is := by
  unfold constantCount
  rw [← List.singleton_append, List.countP_append]

/-- An instruction has at most one constant. -/
theorem constantCount_le (is : List (Instr Constant)) : constantCount is ≤ is.length := List.countP_le_length

/-- An instruction can be assembled if its label is bound and there is room for its constant. -/
theorem assembleInstr_ok {i : Instr Constant} (hi : Bound labels i)
    (hroom : b.pool.size + constantCount [i] ≤ poolLimit) :
    ∃ b' i', assembleInstr labels b i = (b', .ok i') ∧ b'.pool.size ≤ b.pool.size + constantCount [i] := by
  rcases i with op | ⟨op, slot⟩ | n | ⟨op, x⟩ | ⟨op, label⟩
  · exact ⟨b, _, rfl, Nat.le_refl _⟩
  · exact ⟨b, _, rfl, Nat.le_refl _⟩
  · exact ⟨b, _, rfl, Nat.le_refl _⟩
  · obtain ⟨b', k, hintern, hsize⟩ := Interner.intern_ok hroom x
    exact ⟨b', .onConst op k, by rw [assembleInstr, hintern], hsize⟩
  · obtain ⟨place, hplace⟩ := hi label rfl
    exact ⟨b, .jump op place, by rw [assembleInstr, hplace], Nat.le_refl _⟩

/-- Code can be assembled if its labels are bound and there is room for its constants. -/
theorem assembleOnto_ok {is : List (Instr Constant)} (his : ∀ i ∈ is, Bound labels i)
    (hroom : b.pool.size + constantCount is ≤ poolLimit) (done : Code) :
    ∃ b' code, assembleOnto labels done b is = (b', .ok code) ∧ b'.pool.size ≤ b.pool.size + constantCount is := by
  induction is generalizing b done with
  | nil => exact ⟨b, done, rfl, Nat.le_refl _⟩
  | cons i is ih =>
      obtain ⟨hi, his⟩ := List.forall_mem_cons.mp his
      rw [constantCount_cons] at hroom ⊢
      obtain ⟨b₁, i', hinstr, hsize⟩ := assembleInstr_ok hi (b := b) (by omega)
      obtain ⟨b', code, hcode, hsize'⟩ := ih his (b := b₁) (by omega) (done.push i')
      refine ⟨b', code, ?_, by omega⟩
      rw [assembleOnto, hinstr]
      exact hcode

/-- **Code can be assembled** if it is short enough, its labels have places, and the pool has room. -/
theorem assemble_ok {a : Assembler} (hsize : a.size < 65536) (hlabels : ∀ i ∈ a.instrs.toList, Bound a.labels i)
    (hroom : b.pool.size + constantCount a.instrs.toList ≤ poolLimit) :
    ∃ b' code, a.assemble b = (b', .ok code) ∧ b'.pool.size ≤ b.pool.size + constantCount a.instrs.toList := by
  unfold assemble
  rw [if_pos hsize]
  exact assembleOnto_ok hlabels hroom #[]

end Assembler

/-! ## Drafting -/

/-- **The verdict on a method that is added** is that of running through its code, if there is room for it. -/
theorem Draft.addMethod_of_effects {d : Draft} {s : Signature} {a : Assembler} (name : String)
    (hsize : a.size < 65536)
    (hroom : d.constants.pool.size + Assembler.constantCount a.instrs.toList ≤ poolLimit)
    (hparams : s.params.length < 65535)
    (hlabels : ∀ i ∈ a.instrs.toList, Assembler.Bound a.labels i) (hsuits : ∀ i ∈ a.instrs.toList, i.suits = true)
    (horder : ∀ {pool : Pool} {code : Code},
      List.Forall₂ (Instr.Resolves pool a.labels) code.toList a.instrs.toList → code.size < 65536 →
        code.InOrder ⟨pool, d.hierarchy, s.result⟩ (.entry d.name s.params)) :
    (∀ g, d.hierarchy.effects s.result (.entry d.name s.params) a.instrs.toList = .ok g →
      ∃ d', d.addMethod name s a = (d', .ok ()) ∧
        d'.constants.pool.size ≤ d.constants.pool.size + Assembler.constantCount a.instrs.toList) ∧
    ∀ e, d.hierarchy.effects s.result (.entry d.name s.params) a.instrs.toList = .error e →
      ∃ d' q, d.addMethod name s a = (d', .error (e.at name q)) := by
  obtain ⟨b, code, hassemble, hpool⟩ := Assembler.assemble_ok hsize hlabels hroom
  obtain ⟨hcode, -, hresolves⟩ := Assembler.assemble_resolves hassemble
  have hinOrder := horder hresolves hcode
  -- What the checker finds in the code is what its instructions do by themselves.
  have heffects : Checker.afterAll ⟨_, d.hierarchy, s.result⟩ (.entry d.name s.params) code.toList =
      d.hierarchy.effects s.result (.entry d.name s.params) a.instrs.toList :=
    Checker.afterAll_eq_effects hresolves hsuits
  constructor
  · intro g hg
    obtain ⟨frame, hframe⟩ := verifyMethod_of_afterAll name hinOrder hcode hparams (heffects.trans hg)
    refine ⟨{ d with constants := b, methods := d.methods ++ [⟨name, s, frame.maxStack, frame.maxLocals, code⟩] },
      ?_, hpool⟩
    unfold addMethod
    rw [hassemble]
    simp only
    rw [hframe]
  · intro e he
    obtain ⟨q, hq⟩ := verifyMethod_of_fails name hinOrder (heffects.trans he)
    refine ⟨{ d with constants := b }, q, ?_⟩
    unfold addMethod
    rw [hassemble]
    simp only
    rw [hq]

/-- The verdict on code without jumps that ends with a return. -/
theorem Draft.addMethod_of_straight {d : Draft} {s : Signature} {a : Assembler} {is : List (Instr Constant)}
    {last : Instr Constant} (name : String) (ha : a.instrs.toList = is ++ [last])
    (his : ∀ i ∈ is, i.isStraight = true) (hlast : last.endsBlock = true ∧ last.target? = none)
    (hsize : a.size < 65536)
    (hroom : d.constants.pool.size + Assembler.constantCount a.instrs.toList ≤ poolLimit)
    (hparams : s.params.length < 65535) :
    (∀ g, d.hierarchy.effects s.result (.entry d.name s.params) a.instrs.toList = .ok g →
      ∃ d', d.addMethod name s a = (d', .ok ()) ∧
        d'.constants.pool.size ≤ d.constants.pool.size + Assembler.constantCount a.instrs.toList) ∧
    ∀ e, d.hierarchy.effects s.result (.entry d.name s.params) a.instrs.toList = .error e →
      ∃ d' q, d.addMethod name s a = (d', .error (e.at name q)) := by
  have hinstrs : ∀ i ∈ a.instrs.toList, i.suits = true ∧ i.target? = none := by
    rw [ha, List.forall_mem_append, List.forall_mem_singleton]
    refine ⟨fun i hi => ⟨Instr.suits_of_isStraight (his i hi), Instr.target?_of_isStraight (his i hi)⟩, ?_, hlast.2⟩
    exact Instr.suits_of_endsBlock hlast.1
  apply addMethod_of_effects name hsize hroom hparams
  · intro i hi label hlabel
    rw [(hinstrs i hi).2] at hlabel
    cases hlabel
  · exact fun i hi => (hinstrs i hi).1
  · intro pool code hcode _
    rw [ha] at hcode
    exact Code.inOrder_of_straight hcode his hlast

end Routecraft.Bytecode
