import Mathlib.Order.Lattice.Nat
import Routecraft.Proofs.Verification.Naming
import Routecraft.Proofs.Verification.Tracing

/-!
# Code that is run through in order

Where each instruction passes on what the instructions before it in the text leave, the frame types of the code
are those of running through it from front to back, even if it has jumps. Such code is accepted exactly when
running through it succeeds, and otherwise refused with the error at which the run stops.

* `Checker.after`, `Checker.afterAll`: the frame type after an instruction, and after several.
* `Checker.after_bounds`: an instruction adds at most one slot to the stack.
* `Code.InOrder`: code that is run through in order.
* `inferWithin_inOrder`: what is inferred for such code.
* `verifyMethod_inOrder`: the verdict on such code.
* `Checker.depths`, `maxStack_inOrder`: the depth of stack that it needs.
-/

namespace Routecraft.Bytecode

namespace Checker

variable {c : Checker} {f g : FrameType} {i : Instr UInt16} {is js : List (Instr UInt16)} {e : StepError}

/-- The frame type after an instruction. -/
def after (c : Checker) (f : FrameType) (i : Instr UInt16) : Except StepError FrameType := (c.step f i).map (·.2)

/-- The frame type after several instructions, whatever they say of where control goes. -/
def afterAll (c : Checker) (f : FrameType) (is : List (Instr UInt16)) : Except StepError FrameType :=
  is.foldlM c.after f

/-- The frame after an instruction is that of its step. -/
theorem after_eq_ok : c.after f i = .ok g ↔ ∃ flow, c.step f i = .ok (flow, g) := by
  unfold after
  rcases c.step f i with e | ⟨flow, g'⟩ <;> simp [Except.map]

/-- An instruction fails as its step does. -/
theorem after_eq_error : c.after f i = .error e ↔ c.step f i = .error e := by
  unfold after
  rcases c.step f i with e | ⟨flow, g'⟩ <;> simp [Except.map]

@[simp] theorem afterAll_nil (c : Checker) (f : FrameType) : c.afterAll f [] = .ok f := rfl

/-- The first instruction comes before the rest. -/
theorem afterAll_cons (c : Checker) (f : FrameType) (i : Instr UInt16) (is : List (Instr UInt16)) :
    c.afterAll f (i :: is) = c.after f i >>= fun g => c.afterAll g is := List.foldlM_cons

/-- Code in two pieces is checked piece by piece. -/
theorem afterAll_append (c : Checker) (f : FrameType) (is js : List (Instr UInt16)) :
    c.afterAll f (is ++ js) = c.afterAll f is >>= fun g => c.afterAll g js := List.foldlM_append

/-- What comes after the instructions up to a place and the one that stands there. -/
theorem afterAll_take_succ {q : Nat} (hf : c.afterAll f (is.take q) = .ok g) (hi : is[q]? = some i) :
    c.afterAll f (is.take (q + 1)) = c.after g i := by
  rw [List.take_add_one, hi, Option.toList_some, afterAll_append, hf]
  show c.afterAll g [i] = _
  rw [afterAll_cons]
  cases c.after g i <;> rfl

/-- Code that passes does so up to each place. -/
theorem afterAll_take_le {m n : Nat} (hle : m ≤ n) (hg : c.afterAll f (is.take n) = .ok g) :
    ∃ k, c.afterAll f (is.take m) = .ok k := by
  have hsplit : is.take n = is.take m ++ (is.drop m).take (n - m) := by
    rw [← List.take_add, Nat.add_sub_cancel' hle]
  rw [hsplit, afterAll_append] at hg
  obtain ⟨k, hk, -⟩ := bind_eq_ok.mp hg
  exact ⟨k, hk⟩

/-- Instructions whose effects fail do so at one of them. -/
theorem afterAll_eq_error (h : c.afterAll f is = .error e) :
    ∃ q i g, is[q]? = some i ∧ c.afterAll f (is.take q) = .ok g ∧ c.after g i = .error e := by
  induction is generalizing f with
  | nil => cases h
  | cons i is ih =>
      rw [afterAll_cons] at h
      rcases hi : c.after f i with e' | g
      · rw [hi] at h
        cases h
        exact ⟨0, i, f, rfl, rfl, hi⟩
      · rw [hi] at h
        obtain ⟨q, j, k, hj, hk, herror⟩ := ih h
        refine ⟨q + 1, j, k, hj, ?_, herror⟩
        rw [List.take_succ_cons, afterAll_cons, hi]
        exact hk

/-- They fail at no other one. -/
theorem afterAll_error_unique {q q' : Nat} {i' : Instr UInt16} {g' : FrameType} {e' : StepError}
    (hi : is[q]? = some i) (hg : c.afterAll f (is.take q) = .ok g) (he : c.after g i = .error e)
    (hi' : is[q']? = some i') (hg' : c.afterAll f (is.take q') = .ok g') (he' : c.after g' i' = .error e') :
    q' = q ∧ e' = e := by
  rcases Nat.lt_trichotomy q' q with hlt | rfl | hlt
  · obtain ⟨k, hk⟩ := afterAll_take_le (Nat.succ_le_of_lt hlt) hg
    rw [afterAll_take_succ hg' hi', he'] at hk
    cases hk
  · obtain rfl := Option.some.inj (hi.symm.trans hi')
    obtain rfl := Except.ok.inj (hg.symm.trans hg')
    exact ⟨rfl, Except.error.inj (he'.symm.trans he)⟩
  · obtain ⟨k, hk⟩ := afterAll_take_le (Nat.succ_le_of_lt hlt) hg'
    rw [afterAll_take_succ hg hi, he] at hk
    cases hk

/-- The stack grows by at most one slot with each instruction. -/
theorem afterAll_leads {names : Finset String} {size : Nat} (hc : c.Names names) (hsize : 256 ≤ size)
    (hf : f.Among names size) (h : c.afterAll f is = .ok g) :
    g.Among names size ∧ g.stack.length ≤ f.stack.length + is.length := by
  induction is generalizing f with
  | nil =>
      cases h
      exact ⟨hf, Nat.le_refl _⟩
  | cons i is ih =>
      rw [afterAll_cons] at h
      obtain ⟨k, hk, h⟩ := bind_eq_ok.mp h
      obtain ⟨flow, hstep⟩ := after_eq_ok.mp hk
      have hleads := step_leads hc hsize hf hstep
      obtain ⟨hamong, hdepth⟩ := ih hleads.among h
      have := hleads.depth
      exact ⟨hamong, by rw [List.length_cons]; omega⟩

/-- The frame type at a place of code that is run through from front to back. -/
def frameAt (c : Checker) (start : FrameType) (code : Code) (q : Nat) : Option FrameType :=
  if q < code.size then (c.afterAll start (code.toList.take q)).toOption else none

/-- The frame at a place is the one after all that comes before. -/
theorem frameAt_eq_some {start : FrameType} {code : Code} {q : Nat} :
    c.frameAt start code q = some f ↔ q < code.size ∧ c.afterAll start (code.toList.take q) = .ok f := by
  unfold frameAt
  split
  · next hq =>
    cases c.afterAll start (code.toList.take q) <;> simp [Except.toOption, hq]
  · next hq => simp [hq]

end Checker

/-- Code in which each instruction passes on what the instructions before it in the text leave. -/
structure Code.InOrder (c : Checker) (start : FrameType) (code : Code) : Prop where
  nonempty : 0 < code.size
  flow : ∀ {q i f g}, code[q]? = some i → c.afterAll start (code.toList.take q) = .ok f → c.after f i = .ok g →
    ∀ t ∈ i.targets q, t < code.size ∧ c.afterAll start (code.toList.take t) = .ok g
  before : ∀ q, 0 < q → q < code.size → code.ReachedFromBefore q

namespace Code.InOrder

variable {c : Checker} {start : FrameType} {code : Code}

/-- The frame types of such code, if none has a stack deeper than `depth`. -/
theorem traced {names : Finset String} {depth size : Nat} (hcode : code.InOrder c start) (hc : c.Names names)
    (hsize : 256 ≤ size) (hstart : start.Among names size)
    (hdepth : ∀ {q g}, q < code.size → c.afterAll start (code.toList.take (q + 1)) = .ok g → g.stack.length ≤ depth) :
    code.Traced c start depth size (c.frameAt start code) where
  entry := Checker.frameAt_eq_some.mpr ⟨hcode.nonempty, rfl⟩
  inside h := (Checker.frameAt_eq_some.mp h).1
  flow hf hi hstep t ht :=
    Checker.frameAt_eq_some.mpr
      (hcode.flow hi (Checker.frameAt_eq_some.mp hf).2 (Checker.after_eq_ok.mpr ⟨_, hstep⟩) t ht)
  bounds {q f i flow g} hf hi hstep := by
    obtain ⟨hq, hf⟩ := Checker.frameAt_eq_some.mp hf
    have hafter : c.afterAll start (code.toList.take (q + 1)) = .ok g := by
      rw [Checker.afterAll_take_succ hf (by simpa using hi)]
      exact Checker.after_eq_ok.mpr ⟨flow, hstep⟩
    exact ⟨hdepth hq hafter, (Checker.afterAll_leads hc hsize hstart hafter).1.size_le⟩

/-- Code fails at a place if all before passes, and the instruction there does not. -/
theorem failsAt {q : Nat} {e : StepError} : c.FailsAt code (c.frameAt start code) q e ↔
    ∃ i f, code.toList[q]? = some i ∧ c.afterAll start (code.toList.take q) = .ok f ∧ c.after f i = .error e := by
  constructor
  · rintro ⟨f, i, hf, hi, hstep⟩
    exact ⟨i, f, by simpa using hi, (Checker.frameAt_eq_some.mp hf).2, Checker.after_eq_error.mpr hstep⟩
  · rintro ⟨i, f, hi, hf, hstep⟩
    rw [Array.getElem?_toList] at hi
    obtain ⟨hq, -⟩ := Array.getElem?_eq_some_iff.mp hi
    exact ⟨f, i, Checker.frameAt_eq_some.mpr ⟨hq, hf⟩, hi, Checker.after_eq_error.mp hstep⟩

end Code.InOrder

/-! ## Verdicts -/

/-- There are as many rounds at least as there are instructions. -/
theorem size_le_roundLimit (code : Code) (params : Nat) (pool : Pool) : code.size ≤ roundLimit code params pool := by
  unfold roundLimit enoughRounds
  calc code.size
      ≤ code.size + 1 := Nat.le_succ _
    _ ≤ (code.size + 1) * ((code.size + params + 257) * (params + 3 * pool.size + 8) + 300) :=
        Nat.le_mul_of_pos_right _ (Nat.succ_pos _)
    _ ≤ _ := Nat.le_mul_of_pos_right _ (by decide)

section

variable {owner name : String} {s : Signature} {code : Code} {pool : Pool} {h : Hierarchy}

/-- No more slots are on the stack of a method than instructions have been run through. -/
theorem depth_le_size {c : Checker} {names : Finset String} (hc : c.Names names) {params : List DataType}
    (hentry : (FrameType.entry owner params).Among names (max (params.length + 1) 256)) {q : Nat} {g : FrameType}
    (hq : q < code.size) (hg : c.afterAll (.entry owner params) (code.toList.take (q + 1)) = .ok g) :
    g.stack.length ≤ code.size := by
  have hdepth := (Checker.afterAll_leads hc (Nat.le_max_right _ _) hentry hg).2
  rw [List.length_take] at hdepth
  have hempty : (FrameType.entry owner params).stack.length = 0 := rfl
  omega

/-- The frame at the entry holds only names of the method. -/
theorem entry_among_max (owner : String) (params : List DataType) (pool : Pool) :
    (FrameType.entry owner params).Among (methodNames owner params pool).toFinset (max (params.length + 1) 256) :=
  entry_among (Nat.le_max_left _ _)

/-- What is inferred for code that is run through in order follows the run, and its stacks are no deeper. -/
theorem inferWithin_inOrder (name : String) {depth : Nat}
    (hcode : code.InOrder ⟨pool, h, s.result⟩ (.entry owner s.params))
    (hdepth : ∀ {q g}, q < code.size →
      (⟨pool, h, s.result⟩ : Checker).afterAll (.entry owner s.params) (code.toList.take (q + 1)) = .ok g →
        g.stack.length ≤ depth) {g : FrameType}
    (hg : (⟨pool, h, s.result⟩ : Checker).afterAll (.entry owner s.params) code.toList = .ok g) :
    ∃ i, inferWithin (roundLimit code s.params.length pool) owner name s code pool h = .ok i ∧
      i.Follows code depth (max (s.params.length + 1) 256)
        ((⟨pool, h, s.result⟩ : Checker).frameAt (.entry owner s.params) code) := by
  have htraced := hcode.traced names_methodNames (Nat.le_max_right _ _) (entry_among_max owner s.params pool) hdepth
  apply inferWithin_traced name htraced (Nat.le_max_left _ _) (size_le_roundLimit code s.params.length pool)
  · intro q e hfails
    obtain ⟨instr, f, hinstr, hf, herror⟩ := Code.InOrder.failsAt.mp hfails
    obtain ⟨k, hk⟩ := Checker.afterAll_take_le (m := q + 1) (n := code.toList.length)
      (List.getElem?_eq_some_iff.mp hinstr).1 (by rw [List.take_length]; exact hg)
    rw [Checker.afterAll_take_succ hf hinstr, herror] at hk
    cases hk
  · exact hcode.before

/-- **Code that is run through in order is accepted** if running through it succeeds. -/
theorem verifyMethod_of_afterAll (name : String)
    (hcode : code.InOrder ⟨pool, h, s.result⟩ (.entry owner s.params))
    (hsize : code.size < 65536) (hparams : s.params.length < 65535) {g : FrameType}
    (hg : (⟨pool, h, s.result⟩ : Checker).afterAll (.entry owner s.params) code.toList = .ok g) :
    ∃ frame, verifyMethod owner name s code pool h = .ok frame := by
  obtain ⟨i, hi, hfollows⟩ := inferWithin_inOrder name hcode
    (depth_le_size names_methodNames (entry_among_max owner s.params pool)) hg
  have hstack : i.maxStack < 65536 := Nat.lt_of_le_of_lt hfollows.depth hsize
  have hlocals : i.maxLocals < 65536 := Nat.lt_of_le_of_lt hfollows.size (by omega)
  refine ⟨⟨UInt16.ofNat i.maxStack, UInt16.ofNat i.maxLocals⟩, ?_⟩
  unfold verifyMethod
  rw [hi]
  show (size16 _ _ >>= _) = _
  unfold size16
  rw [if_pos hstack, if_pos hlocals]
  rfl

/-- **It is refused** at the instruction that running through it stops at. -/
theorem verifyMethod_of_fails (name : String)
    (hcode : code.InOrder ⟨pool, h, s.result⟩ (.entry owner s.params)) {e : StepError}
    (he : (⟨pool, h, s.result⟩ : Checker).afterAll (.entry owner s.params) code.toList = .error e) :
    ∃ q, verifyMethod owner name s code pool h = .error (e.at name q) := by
  obtain ⟨q, i, f, hi, hf, herror⟩ := Checker.afterAll_eq_error he
  have hq : q < code.size := by simpa using (List.getElem?_eq_some_iff.mp hi).1
  have htraced := hcode.traced names_methodNames (Nat.le_max_right _ _) (entry_among_max owner s.params pool)
    (depth_le_size names_methodNames (entry_among_max owner s.params pool))
  refine ⟨q, ?_⟩
  have hfails := inferWithin_fails name htraced (Nat.le_max_left _ _)
    (size_le_roundLimit code s.params.length pool) (Code.InOrder.failsAt.mpr ⟨i, f, hi, hf, herror⟩) (by
      intro q' e' hfails'
      obtain ⟨i', f', hi', hf', herror'⟩ := Code.InOrder.failsAt.mp hfails'
      exact Checker.afterAll_error_unique hi hf herror hi' hf' herror')
    (fun q' hpos hle => hcode.before q' hpos (Nat.lt_of_le_of_lt hle hq))
  unfold verifyMethod
  rw [hfails]
  rfl

/-- **The verdict on code that is run through in order** is that of running through it. -/
theorem verifyMethod_inOrder (name : String)
    (hcode : code.InOrder ⟨pool, h, s.result⟩ (.entry owner s.params))
    (hsize : code.size < 65536) (hparams : s.params.length < 65535) :
    (∃ frame, verifyMethod owner name s code pool h = .ok frame) ↔
      ∃ g, (⟨pool, h, s.result⟩ : Checker).afterAll (.entry owner s.params) code.toList = .ok g := by
  constructor
  · rintro ⟨frame, hframe⟩
    rcases hrun : (⟨pool, h, s.result⟩ : Checker).afterAll (.entry owner s.params) code.toList with e | g
    · obtain ⟨q, hq⟩ := verifyMethod_of_fails name hcode hrun
      rw [hframe] at hq
      cases hq
    · exact ⟨g, rfl⟩
  · rintro ⟨g, hg⟩
    exact verifyMethod_of_afterAll name hcode hsize hparams hg

/-! ## The depth of stack -/

/-- How deep the stack is after the instructions of code, where that is run through in order. -/
def Checker.depths (c : Checker) (f : FrameType) (code : Code) : Set Nat :=
  {depth | ∃ q g, q < code.size ∧ g.stack.length = depth ∧ c.afterAll f (code.toList.take (q + 1)) = .ok g}

theorem Checker.mem_depths {c : Checker} {f : FrameType} {depth : Nat} : depth ∈ c.depths f code ↔
    ∃ q g, q < code.size ∧ g.stack.length = depth ∧ c.afterAll f (code.toList.take (q + 1)) = .ok g := Iff.rfl

/-- The depths of a method have a bound. -/
theorem bddAbove_depths : BddAbove ((⟨pool, h, s.result⟩ : Checker).depths (.entry owner s.params) code) := by
  refine ⟨code.size, ?_⟩
  rintro depth ⟨q, g, hq, rfl, hg⟩
  exact depth_le_size names_methodNames (entry_among_max owner s.params pool) hq hg

/-- Code that passes has a depth. -/
theorem nonempty_depths {c : Checker} {f g : FrameType} (hcode : code.InOrder c f)
    (hg : c.afterAll f code.toList = .ok g) : (c.depths f code).Nonempty := by
  obtain ⟨k, hk⟩ := Checker.afterAll_take_le (m := 1) (n := code.toList.length)
    (by rw [Array.length_toList]; exact hcode.nonempty) (by rw [List.take_length]; exact hg)
  exact ⟨_, 0, k, hcode.nonempty, rfl, hk⟩

/-- What is inferred for code is at least as deep as each of these stacks, as each instruction has been followed from
the frame type in front of it. -/
theorem depth_le_maxStack {rounds size bound depth : Nat} {i : Inference}
    (hi : inferWithin rounds owner name s code pool h = .ok i)
    (hfollows : i.Follows code bound size ((⟨pool, h, s.result⟩ : Checker).frameAt (.entry owner s.params) code))
    (hdepth : depth ∈ (⟨pool, h, s.result⟩ : Checker).depths (.entry owner s.params) code) : depth ≤ i.maxStack := by
  obtain ⟨q, g, hq, rfl, hg⟩ := hdepth
  have hstable := inferWithin_stable (joinOrder_true h) hi
  obtain ⟨f, hf⟩ := hstable.reached hq
  obtain ⟨instr, flow, k, hinstr, hstep, hstack, -⟩ := hstable.settled hf
  have hrun := (Checker.frameAt_eq_some.mp (hfollows.traced hf)).2
  rw [Checker.afterAll_take_succ hrun (by simpa using hinstr), Checker.after_eq_ok.mpr ⟨flow, hstep⟩] at hg
  cases hg
  exact hstack

/-- **The depth that a method is said to need** is that of the deepest stack after one of its instructions, if its code
is run through in order. -/
theorem maxStack_inOrder {frame : Frame} (hcode : code.InOrder ⟨pool, h, s.result⟩ (.entry owner s.params))
    (hframe : verifyMethod owner name s code pool h = .ok frame) {g : FrameType}
    (hg : (⟨pool, h, s.result⟩ : Checker).afterAll (.entry owner s.params) code.toList = .ok g) :
    IsGreatest ((⟨pool, h, s.result⟩ : Checker).depths (.entry owner s.params) code) frame.maxStack.toNat := by
  have hbounded : BddAbove ((⟨pool, h, s.result⟩ : Checker).depths (.entry owner s.params) code) := bddAbove_depths
  have hattained := Nat.sSup_mem (nonempty_depths hcode hg) hbounded
  -- The deepest stack bounds what is inferred, and what is inferred bounds all stacks.
  obtain ⟨i, hi, hfollows⟩ := inferWithin_inOrder name hcode
    (fun hq hk => le_csSup hbounded (Checker.mem_depths.mpr ⟨_, _, hq, rfl, hk⟩)) hg
  have hstack : frame.maxStack.toNat = sSup ((⟨pool, h, s.result⟩ : Checker).depths (.entry owner s.params) code) := by
    unfold verifyMethod Inference.frame at hframe
    simp only [hi, ok_bind, bind_eq_ok] at hframe
    obtain ⟨stack, hstack, locals, hlocals, hframe⟩ := hframe
    cases hframe
    rw [size16_eq_ok hstack]
    exact Nat.le_antisymm hfollows.depth (depth_le_maxStack hi hfollows hattained)
  rw [hstack]
  exact ⟨hattained, fun _ hdepth => le_csSup hbounded hdepth⟩

end

end Routecraft.Bytecode
