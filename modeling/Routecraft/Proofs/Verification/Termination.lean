import Mathlib.Algebra.Order.BigOperators.Group.Finset
import Routecraft.Proofs.Verification.Naming
import Routecraft.Proofs.Verification.Settling

/-!
# When the rounds end

The rounds of the checker end for every method if, and only if, no two different classes are below each other.
Without such a pair each round uses up some of what the frame types can still rise, or an entry of the queue.
With one, a method that swaps an object of the one class for an object of the other in a loop is never done.

* `Checker.EndsWithin`: the rounds end after at most so many.
* `Checker.endsWithin_enoughRounds`: without a pair they do, after at most `enoughRounds`.
* `Inference.Turning`: how far the checker has come in the method that swaps two objects.
* `rounds_end_iff`: the rounds end for every method exactly without a pair.
-/

namespace Routecraft.Bytecode

namespace Checker

/-- Whether the rounds end, with an empty queue or with a fault, after at most so many. -/
def EndsWithin (c : Checker) (code : Code) : (rounds : Nat) → Inference → Prop
  | 0, i => i.queue = []
  | rounds + 1, i =>
    match i.queue with
    | [] => True
    | index :: queue =>
      ∀ j, c.round code ⟨i.frames, queue, i.maxStack, i.maxLocals⟩ index = .ok j → c.EndsWithin code rounds j

variable {c : Checker} {code : Code} {i j : Inference}

/-- If the rounds end, it makes no difference how many more there could be. -/
theorem settle_of_endsWithin {method : String} {rounds more : Nat} (h : c.EndsWithin code rounds i)
    (hle : rounds ≤ more) : c.settle method code more i = c.settle method code rounds i := by
  induction rounds generalizing i more with
  | zero =>
      have hempty : i.queue = [] := h
      cases more <;> simp [settle, hempty]
  | succ rounds ih =>
      obtain ⟨more, rfl⟩ := Nat.exists_eq_add_of_le' hle
      rw [show more + (rounds + 1) = more + rounds + 1 from rfl]
      unfold settle
      unfold EndsWithin at h
      rcases hqueue : i.queue with _ | ⟨index, queue⟩
      · rfl
      · rw [hqueue] at h
        simp only
        split
        · next j hround => exact ih (h j hround) (Nat.le_add_left rounds more)
        · rfl

end Checker

/-! ## What is used up -/

namespace Inference

variable {c : Checker} {code : Code} {names : Finset String} {size : Nat} {i j : Inference} {g : FrameType}
  {target : Nat}

/-- The instructions that were reached. -/
def reached (i : Inference) : Finset Nat := (Finset.range i.frames.size).filter fun q => (i.at? q).isSome = true

/-- What has been inferred for code of `count` instructions names classes among `names` and has at most `size` locals,
and no stack is as deep as there are instructions that were reached: on the way to it each of them has put at most one
slot there. -/
structure Among (names : Finset String) (size count : Nat) (i : Inference) : Prop where
  frames : i.frames.size = count
  among : ∀ {q f}, i.at? q = some f → f.Among names size
  depth : ∀ {q f}, i.at? q = some f → f.stack.length < i.reached.card

/-- More than any frame type of a method can rise. -/
def fullRoom (names : Finset String) (size count : Nat) : Nat :=
  count * (names.card + 1) + size * (names.card + 2) + 1

/-- How far the frame type of an instruction can still rise, if it was reached. -/
def slotRoom (h : Hierarchy) (names : Finset String) (size count : Nat) : Option FrameType → Nat
  | none => fullRoom names size count
  | some f => f.room h names size

/-- How far what was inferred can still rise, and how much is left on the queue. -/
def work (h : Hierarchy) (names : Finset String) (size count : Nat) (i : Inference) : Nat :=
  ∑ q ∈ Finset.range count, slotRoom h names size count (i.at? q) + i.queue.length

/-- The room of a frame is bounded by its size. -/
theorem fullRoom_le {row : Nat} (hrow : names.card + 2 ≤ row) (size count : Nat) :
    fullRoom names size count ≤ (count + size) * row + 1 := by
  have hstack : count * (names.card + 1) ≤ count * row := Nat.mul_le_mul_left _ (by omega)
  have hlocals : size * (names.card + 2) ≤ size * row := Nat.mul_le_mul_left _ hrow
  unfold fullRoom
  rw [Nat.add_mul]
  omega

/-- No more places are reached than there are. -/
theorem card_reached_le (i : Inference) : i.reached.card ≤ i.frames.size :=
  (Finset.card_filter_le _ _).trans_eq (Finset.card_range _)

/-- A place without a frame is not reached. -/
theorem notMem_reached (h : i.at? target = none) : target ∉ i.reached := by
  simp [reached, h]

/-- Putting a frame reaches its place. -/
theorem reached_put (hlt : target < i.frames.size) (f : FrameType) :
    (i.put target f).reached = insert target i.reached := by
  ext q
  simp only [reached, size_put, at?_put hlt, Finset.mem_filter, Finset.mem_range, Finset.mem_insert]
  by_cases hq : q = target
  · simp [hq, hlt]
  · simp [hq]

/-- Putting a frame takes no place away. -/
theorem card_reached_put (hlt : target < i.frames.size) (f : FrameType) :
    i.reached.card ≤ (i.put target f).reached.card := by
  rw [reached_put hlt]
  exact Finset.card_le_card (Finset.subset_insert _ _)

/-- One more place is reached, if it was not before. -/
theorem card_reached_put_of_none (hlt : target < i.frames.size) (hnone : i.at? target = none) (f : FrameType) :
    (i.put target f).reached.card = i.reached.card + 1 := by
  rw [reached_put hlt, Finset.card_insert_of_notMem (notMem_reached hnone)]

/-- The room of a place is at most that of an empty one. -/
theorem slotRoom_le {h : Hierarchy} {count : Nat} (hi : i.Among names size count) (q : Nat) :
    slotRoom h names size count (i.at? q) ≤ fullRoom names size count := by
  rcases hq : i.at? q with _ | f
  · exact Nat.le_refl _
  · have hdepth : f.stack.length ≤ count :=
      Nat.le_trans (Nat.le_of_lt (hi.depth hq)) (hi.frames ▸ i.card_reached_le)
    exact Nat.le_succ_of_le ((hi.among hq).room_le hdepth)

/-- The work is at most the room of all places, and what is queued. -/
theorem work_le {h : Hierarchy} {count : Nat} (hi : i.Among names size count) :
    i.work h names size count ≤ count * fullRoom names size count + i.queue.length := by
  have hsum := Finset.sum_le_card_nsmul (Finset.range count) (fun q => slotRoom h names size count (i.at? q))
    (fullRoom names size count) (fun q _ => slotRoom_le hi q)
  rw [Finset.card_range, Nat.nsmul_eq_mul] at hsum
  exact Nat.add_le_add_right hsum _

end Inference

namespace Checker

open Inference

variable {c : Checker} {code : Code} {names : Finset String} {size count : Nat} {i j : Inference} {g : FrameType}
  {target : Nat}

/-- A frame type that is new at a place leaves less room there. -/
theorem slotRoom_mergeInto {h : Hierarchy} (hanti : h.Antisymmetric) (hroot : rootClass ∈ names)
    (hi : i.Among names size count) (hg : g.Among names size) (hdepth : g.stack.length ≤ count) {f : FrameType}
    (hmerge : mergeInto h (i.at? target) g = some (f, true)) :
    f.Among names size ∧ slotRoom h names size count (some f) < slotRoom h names size count (i.at? target) ∧
      (f = g ∧ i.at? target = none ∨ ∃ f₀, i.at? target = some f₀ ∧ f.stack.length = f₀.stack.length) := by
  rcases hat : i.at? target with _ | f₀
  · rw [hat] at hmerge
    cases hmerge
    exact ⟨hg, Nat.lt_succ_of_le (hg.room_le hdepth), .inl ⟨rfl, rfl⟩⟩
  · rw [hat] at hmerge
    obtain ⟨k, hjoin, hk⟩ := Option.map_eq_some_iff.mp hmerge
    obtain ⟨rfl, hnew⟩ := Prod.mk.inj hk
    have hne : k ≠ f₀ := by simpa using hnew
    have hamong := hi.among hat
    refine ⟨hamong.join hroot hg hjoin, ?_, .inr ⟨f₀, rfl, ?_⟩⟩
    · exact (FrameType.join_room hanti hroot hamong hg hjoin).resolve_left hne
    · exact (FrameType.joinStacks_eq_some (FrameType.join_eq_some hjoin).1).2.1

/-- **Leading control to a place** leaves no more work than there was. -/
theorem flowTo_work (hanti : c.hierarchy.Antisymmetric) (hroot : rootClass ∈ names) (hi : i.Among names size count)
    (hg : g.Among names size) (hdepth : g.stack.length ≤ i.reached.card) (h : c.flowTo i g target = .ok j) :
    j.Among names size count ∧ i.reached.card ≤ j.reached.card ∧
      j.work c.hierarchy names size count ≤ i.work c.hierarchy names size count := by
  obtain ⟨hlt, f, ⟨-, rfl⟩ | ⟨hmerge, rfl⟩⟩ := flowTo_eq_ok h
  · exact ⟨hi, Nat.le_refl _, Nat.le_refl _⟩
  · have hcount : g.stack.length ≤ count := Nat.le_trans hdepth (hi.frames ▸ i.card_reached_le)
    -- The frame at the place has changed: what is there now has less room than what was.
    obtain ⟨hamong, hroom, hstack⟩ := slotRoom_mergeInto hanti hroot hi hg hcount hmerge
    have hcard := card_reached_put hlt f
    refine ⟨⟨(size_put ..).trans hi.frames, ?_, ?_⟩, hcard, ?_⟩
    · intro q f' hf'
      rw [at?_put hlt] at hf'
      split at hf'
      · cases hf'
        exact hamong
      · exact hi.among hf'
    · intro q f' hf'
      rw [at?_put hlt] at hf'
      split at hf'
      · cases hf'
        -- The frame is the first one there, as deep as the one that came in, or as deep as the one before.
        rcases hstack with ⟨rfl, hnone⟩ | ⟨f₀, hf₀, hsame⟩
        · rw [card_reached_put_of_none hlt hnone]
          exact Nat.lt_succ_of_le hdepth
        · rw [hsame]
          exact Nat.lt_of_lt_of_le (hi.depth hf₀) hcard
      · exact Nat.lt_of_lt_of_le (hi.depth hf') hcard
    · -- One place has less room, which pays for the entry of the queue.
      have hsum : ∑ q ∈ Finset.range count, slotRoom c.hierarchy names size count ((i.put target f).at? q) <
          ∑ q ∈ Finset.range count, slotRoom c.hierarchy names size count (i.at? q) := by
        apply Finset.sum_lt_sum
        · intro q _
          rw [at?_put hlt]
          split
          · next heq => rw [heq]; exact Nat.le_of_lt hroom
          · exact Nat.le_refl _
        · refine ⟨target, Finset.mem_range.mpr (hi.frames ▸ hlt), ?_⟩
          rw [at?_put hlt, if_pos rfl]
          exact hroom
      unfold work
      rw [queue_put, List.length_append, List.length_singleton]
      omega

/-- Flows to all targets do no more work than they take up, and keep the bounds. -/
theorem flowToAll_work (hanti : c.hierarchy.Antisymmetric) (hroot : rootClass ∈ names)
    (hi : i.Among names size count) (hg : g.Among names size) (hdepth : g.stack.length ≤ i.reached.card)
    {targets : List Nat} (h : c.flowToAll i g targets = .ok j) :
    j.Among names size count ∧ j.work c.hierarchy names size count ≤ i.work c.hierarchy names size count := by
  induction targets generalizing i with
  | nil =>
      cases h
      exact ⟨hi, Nat.le_refl _⟩
  | cons target targets ih =>
      obtain ⟨i', hi', h⟩ := flowToAll_cons_eq_ok.mp h
      obtain ⟨hamong, hreached, hwork⟩ := flowTo_work hanti hroot hi hg hdepth hi'
      obtain ⟨hamong', hwork'⟩ := ih hamong (Nat.le_trans hdepth hreached) h
      exact ⟨hamong', Nat.le_trans hwork' hwork⟩

/-- **A round leaves less work** than there was before its instruction was taken off the queue. -/
theorem round_work (hanti : c.hierarchy.Antisymmetric) (hc : c.Names names) (hsize : 256 ≤ size)
    (hi : i.Among names size count) {index : Nat} {queue : List Nat} (hqueue : i.queue = index :: queue)
    (h : c.round code ⟨i.frames, queue, i.maxStack, i.maxLocals⟩ index = .ok j) :
    j.Among names size count ∧ j.work c.hierarchy names size count < i.work c.hierarchy names size count := by
  -- Taking the instruction off the queue is what makes the work less.
  have htaken : ∀ {maxStack maxLocals : Nat}, work c.hierarchy names size count ⟨i.frames, queue, maxStack, maxLocals⟩ <
      i.work c.hierarchy names size count := by
    intro maxStack maxLocals
    unfold work
    rw [hqueue, List.length_cons]
    exact Nat.lt_succ_self _
  have hamong : ∀ {maxStack maxLocals : Nat}, Among names size count ⟨i.frames, queue, maxStack, maxLocals⟩ :=
    ⟨hi.frames, hi.among, hi.depth⟩
  rcases round_eq_ok.mp h with ⟨-, rfl⟩ | ⟨instr, f, flow, g, -, hf, hstep, hflow⟩
  · exact ⟨hamong, htaken⟩
  · have hf : i.at? index = some f := hf
    obtain ⟨hg, hdepth⟩ := step_leads hc hsize (hi.among hf) hstep
    have hdepth : g.stack.length ≤ i.reached.card := Nat.le_trans hdepth (hi.depth hf)
    obtain ⟨hj, hwork⟩ := flowToAll_work hanti hc.root hamong hg hdepth hflow
    exact ⟨hj, Nat.lt_of_le_of_lt hwork htaken⟩

/-- **The rounds end** when there is no work left. -/
theorem endsWithin_of_work (hanti : c.hierarchy.Antisymmetric) (hc : c.Names names) (hsize : 256 ≤ size)
    {rounds : Nat} (hi : i.Among names size count) (hwork : i.work c.hierarchy names size count ≤ rounds) :
    c.EndsWithin code rounds i := by
  induction rounds generalizing i with
  | zero =>
      -- Without work the queue is empty.
      have hlength : i.queue.length = 0 := by
        unfold work at hwork
        omega
      exact List.eq_nil_of_length_eq_zero hlength
  | succ rounds ih =>
      unfold EndsWithin
      split
      · trivial
      · next index queue hqueue =>
        intro j hround
        obtain ⟨hj, hless⟩ := round_work hanti hc hsize hi hqueue hround
        exact ih hj (by omega)

end Checker

/-! ## Methods -/

/-- The classes of a method: its own, those of its parameters and of the constants, and the few that instructions
bring along. -/
def methodNames (owner : String) (params : List DataType) (pool : Pool) : List String :=
  [owner, rootClass, Platform.string, Platform.classClass] ++ params.map DataType.className ++ pool.classNames

section Methods

variable {owner : String} {params : List DataType} {pool : Pool} {h : Hierarchy} {result : Option DataType}
  {code : Code}

/-- The names of a method are all that its checker can come to. -/
theorem names_methodNames : Checker.Names ⟨pool, h, result⟩ (methodNames owner params pool).toFinset where
  root := by simp [methodNames]
  string := by simp [methodNames]
  classClass := by simp [methodNames]
  pool := by
    intro k x hx a ha
    have hmem : x ∈ pool.toList := List.mem_of_getElem? (Pool.get_eq_ok.mp hx)
    rw [List.mem_toFinset]
    exact List.mem_append_right _ (List.mem_flatMap.mpr ⟨x, hmem, ha⟩)

/-- A method has as many names as its parameters and its pool allow. -/
theorem card_methodNames : (methodNames owner params pool).toFinset.card ≤ params.length + 2 * pool.size + 4 := by
  have hle := List.toFinset_card_le (methodNames owner params pool)
  have hpool := pool.length_classNames
  simp only [methodNames, List.length_append, List.length_map, List.length_cons, List.length_nil] at hle
  simp only [methodNames]
  omega

theorem entry_among {size : Nat} (hsize : params.length + 1 ≤ size) :
    (FrameType.entry owner params).Among (methodNames owner params pool).toFinset size where
  stack t ht := by simp [FrameType.entry] at ht
  locals t ht := by
    rcases List.mem_cons.mp ht with ht | ht
    · cases ht
      show owner ∈ _
      simp [methodNames]
    · obtain ⟨type, htype, ht⟩ := List.mem_map.mp ht
      cases ht
      apply SlotType.among_of
      rw [List.mem_toFinset]
      exact List.mem_append_left _ (List.mem_append_right _ (List.mem_map_of_mem htype))
  size_le := by simpa [FrameType.entry] using hsize

/-- At the start, only the entry has a frame. -/
theorem at?_start {q : Nat} {f : FrameType} (hf : (Inference.start owner params code).at? q = some f) :
    q = 0 ∧ f = .entry owner params ∧ 0 < code.size := by
  have hlt := Inference.lt_size_of_at? hf
  have hsize : (Inference.start owner params code).frames.size = code.size := by simp [Inference.start]
  rw [hsize] at hlt
  rcases q with _ | q
  · have hentry : (Inference.start owner params code).at? 0 = some (.entry owner params) := by
      simp [Inference.at?, Inference.start, FrameType.entry, hlt]
    exact ⟨rfl, Option.some.inj (hf.symm.trans hentry), hlt⟩
  · simp [Inference.at?, Inference.start, hlt] at hf

theorem start_among {size : Nat} (hsize : params.length + 1 ≤ size) :
    (Inference.start owner params code).Among (methodNames owner params pool).toFinset size code.size where
  frames := by simp [Inference.start]
  among := by
    intro q f hf
    obtain ⟨-, rfl, -⟩ := at?_start hf
    exact entry_among hsize
  depth := by
    intro q f hf
    obtain ⟨rfl, rfl, hlt⟩ := at?_start hf
    apply Finset.card_pos.mpr
    refine ⟨0, Finset.mem_filter.mpr ⟨?_, ?_⟩⟩
    · simpa [Inference.start] using hlt
    · rw [hf]
      rfl

/-- **The rounds of a method end** after at most `enoughRounds`, if no two different classes are below each other. -/
theorem Checker.endsWithin_enoughRounds (hanti : h.Antisymmetric) (owner : String) (params : List DataType)
    (result : Option DataType) (code : Code) (pool : Pool) :
    Checker.EndsWithin ⟨pool, h, result⟩ code (enoughRounds code params.length pool) (.start owner params code) := by
  have hstart : (Inference.start owner params code).Among (methodNames owner params pool).toFinset (params.length + 256)
      code.size := start_among (by omega)
  have hcard : (methodNames owner params pool).toFinset.card + 2 ≤ params.length + 3 * pool.size + 8 := by
    have hle := @card_methodNames owner params pool
    omega
  have hfull := Inference.fullRoom_le hcard (params.length + 256) code.size
  have hwork := Inference.work_le (h := h) hstart
  apply Checker.endsWithin_of_work hanti names_methodNames (by omega) hstart
  refine hwork.trans ?_
  unfold enoughRounds
  -- What is left is arithmetic, linear in the products.
  generalize params.length + 3 * pool.size + 8 = row at hfull ⊢
  generalize Inference.fullRoom _ _ _ = full at hfull ⊢
  have hrows : (code.size + (params.length + 256)) * row ≤ (code.size + params.length + 257) * row :=
    Nat.mul_le_mul_right _ (by omega)
  have hcode : code.size * full ≤ code.size * ((code.size + params.length + 257) * row + 300) :=
    Nat.mul_le_mul_left _ (by omega)
  rw [Nat.succ_mul]
  show code.size * full + 1 ≤ _
  omega

/-- **More rounds make no difference**, if no two different classes are below each other. -/
theorem inferWithin_enoughRounds (hanti : h.Antisymmetric) {name : String} {s : Signature} {rounds : Nat}
    (hle : enoughRounds code s.params.length pool ≤ rounds) :
    inferWithin rounds owner name s code pool h =
      inferWithin (enoughRounds code s.params.length pool) owner name s code pool h := by
  have hends := Checker.endsWithin_enoughRounds hanti owner s.params s.result code pool
  unfold inferWithin
  split
  · rfl
  · simp only
    rw [Checker.settle_of_endsWithin hends hle]

/-- **The check of a unit** does not depend on the limit of its rounds, if no two different classes are below each
other. -/
theorem CodeUnit.verify_eq {u : CodeUnit} (hanti : (u.hierarchyWith h).Antisymmetric) :
    u.verify h = u.verifyWithin (fun m => enoughRounds m.code m.signature.params.length u.pool) h := by
  have hmethod : ∀ m : Method, u.verifyMethodOf (u.rounds m) h m =
      u.verifyMethodOf (enoughRounds m.code m.signature.params.length u.pool) h m := by
    intro m
    have hle : enoughRounds m.code m.signature.params.length u.pool ≤ u.rounds m :=
      Nat.le_mul_of_pos_right _ (by decide)
    unfold verifyMethodOf infer
    rw [inferWithin_enoughRounds hanti hle]
  unfold verify verifyWithin
  simp only [hmethod]

end Methods

/-! ## Two classes that are below each other -/

/-- The code of a method that swaps its two parameters for ever. -/
def swapCode : Code :=
  #[.onLocal .load 1, .onLocal .load 2, .onLocal .store 1, .onLocal .store 2, .jump .goto 0]

/-- The frame type at a place of this code, if the parameters are of the classes `x` and `y` at its beginning. -/
def swapFrame (owner x y : String) : Nat → FrameType
  | 0 => ⟨[], [some (.ref owner), some (.ref x), some (.ref y)]⟩
  | 1 => ⟨[.ref x], [some (.ref owner), some (.ref x), some (.ref y)]⟩
  | 2 => ⟨[.ref y, .ref x], [some (.ref owner), some (.ref x), some (.ref y)]⟩
  | 3 => ⟨[.ref x], [some (.ref owner), some (.ref y), some (.ref y)]⟩
  | _ => ⟨[], [some (.ref owner), some (.ref y), some (.ref x)]⟩

/-- The checker is about to do the instruction at `k`. Up to there the frame types are those for the parameters as
they stand, and behind it still those for the parameters the other way round, if there are any. -/
structure Inference.Turning (owner x y : String) (k : Nat) (i : Inference) : Prop where
  lt : k < 5
  frames : i.frames.size = 5
  queue : i.queue = [k]
  done : ∀ q ≤ k, i.at? q = some (swapFrame owner x y q)
  ahead : ∀ q, k < q → q < 5 → i.at? q = none ∨ i.at? q = some (swapFrame owner y x q)

namespace Checker

open Inference

variable {c : Checker} {owner x y : String} {i j : Inference} {k : Nat}

/-- Two classes that are not the same are swapped to another frame. -/
theorem swapFrame_ne (hne : x ≠ y) (k : Nat) : swapFrame owner x y k ≠ swapFrame owner y x k := by
  unfold swapFrame
  split <;> simp [hne, hne.symm]

/-- A class and one above it join to the latter. -/
theorem join_ref {h : Hierarchy} {a b : String} (hab : h.isSubtype a b = true) :
    h.join (.ref a) (.ref b) = some (.ref b) := by
  by_cases heq : a = b
  · rw [heq]
    exact h.join_self _
  · exact Hierarchy.join_eq_some_iff.mpr (.right heq hab)

/-- Of two classes that are below each other, a join takes the one that comes in. -/
theorem join_swapFrame {h : Hierarchy} (hxy : h.isSubtype x y = true) (hyx : h.isSubtype y x = true) (k : Nat) :
    (swapFrame owner y x k).join h (swapFrame owner x y k) = some (swapFrame owner x y k) := by
  unfold swapFrame
  split <;>
    simp [FrameType.join, FrameType.joinStacks, FrameType.joinLocals, join_ref hxy, join_ref hyx, h.join_self]

/-- The effect of the instructions of the loop. -/
theorem step_swapFrame (owner x y : String) (c : Checker) (hk : k < 4) :
    ∃ instr, swapCode[k]? = some instr ∧
      c.step (swapFrame owner x y k) instr = .ok (.next, swapFrame owner x y (k + 1)) := by
  match k, hk with
  | 0, _ => exact ⟨_, rfl, rfl⟩
  | 1, _ => exact ⟨_, rfl, rfl⟩
  | 2, _ => exact ⟨_, rfl, rfl⟩
  | 3, _ => exact ⟨_, rfl, rfl⟩

/-- Control that is led to a place where the parameters stand the other way round changes its frame type. -/
theorem flowTo_swapFrame (owner : String) (hne : x ≠ y) (hxy : c.hierarchy.isSubtype x y = true)
    (hyx : c.hierarchy.isSubtype y x = true) (hsize : i.frames.size = 5) (hk : k < 5)
    (hat : i.at? k = none ∨ i.at? k = some (swapFrame owner y x k)) :
    ∃ j, c.flowTo i (swapFrame owner x y k) k = .ok j ∧ j.frames.size = 5 ∧ j.queue = i.queue ++ [k] ∧
      ∀ q, j.at? q = if q = k then some (swapFrame owner x y k) else i.at? q := by
  have hmerge : mergeInto c.hierarchy (i.at? k) (swapFrame owner x y k) = some (swapFrame owner x y k, true) := by
    rcases hat with hat | hat
    · rw [hat]
      rfl
    · rw [hat]
      simp [mergeInto, join_swapFrame hxy hyx, swapFrame_ne hne]
  have hlt : k < i.frames.size := hsize ▸ hk
  exact ⟨_, flowTo_of_mergeInto hlt hmerge, (size_put ..).trans hsize, rfl, at?_put hlt _⟩

/-- A round whose instruction leads to a single place. -/
theorem round_of_flowTo {code : Code} {instr : Instr UInt16} {f g : FrameType} {flow : Flow} {queue : List Nat}
    {target : Nat} (hinstr : code[k]? = some instr) (hf : i.at? k = some f) (hstep : c.step f instr = .ok (flow, g))
    (htargets : flow.targets k = [target])
    (hflow : c.flowTo (stretch ⟨i.frames, queue, i.maxStack, i.maxLocals⟩ g) g target = .ok j) :
    c.round code ⟨i.frames, queue, i.maxStack, i.maxLocals⟩ k = .ok j := by
  refine round_eq_ok.mpr (.inr ⟨instr, f, flow, g, hinstr, hf, hstep, ?_⟩)
  rw [htargets, flowToAll, hflow]
  rfl

/-- **A round in this code** brings the checker to the next instruction. -/
theorem round_turning (hne : x ≠ y) (hxy : c.hierarchy.isSubtype x y = true) (hyx : c.hierarchy.isSubtype y x = true)
    (hi : i.Turning owner x y k) :
    ∃ j k', c.round swapCode ⟨i.frames, [], i.maxStack, i.maxLocals⟩ k = .ok j ∧
      (j.Turning owner x y k' ∨ j.Turning owner y x k') := by
  have hf : i.at? k = some (swapFrame owner x y k) := hi.done k (Nat.le_refl k)
  have hlt := hi.lt
  by_cases hlast : k < 4
  · obtain ⟨instr, hinstr, hstep⟩ := step_swapFrame owner x y c hlast
    obtain ⟨j, hflow, hsize, hqueue, hat⟩ := flowTo_swapFrame owner
      (i := stretch ⟨i.frames, [], i.maxStack, i.maxLocals⟩ (swapFrame owner x y (k + 1))) hne hxy hyx hi.frames
      (show k + 1 < 5 by omega) (hi.ahead (k + 1) (Nat.lt_succ_self k) (by omega))
    refine ⟨j, k + 1, round_of_flowTo hinstr hf hstep rfl hflow, .inl ⟨by omega, hsize, hqueue, ?_, ?_⟩⟩
    · intro q hq
      rw [hat]
      split
      · next heq => rw [heq]
      · exact hi.done q (by omega)
    · intro q hq hq5
      rw [hat, if_neg (by omega)]
      exact hi.ahead q (by omega) hq5
  · -- The jump at the end leads back to the beginning, where the parameters have changed places.
    obtain rfl : k = 4 := by omega
    obtain ⟨j, hflow, hsize, hqueue, hat⟩ := flowTo_swapFrame owner
      (i := stretch ⟨i.frames, [], i.maxStack, i.maxLocals⟩ (swapFrame owner y x 0)) hne.symm hyx hxy hi.frames
      (show 0 < 5 by omega) (.inr (hi.done 0 (Nat.zero_le 4)))
    refine ⟨j, 0, round_of_flowTo rfl hf (show _ = Except.ok (Flow.jump 0, _) from rfl) rfl hflow,
      .inr ⟨by omega, hsize, hqueue, ?_, ?_⟩⟩
    · intro q hq
      obtain rfl : q = 0 := by omega
      rw [hat, if_pos rfl]
    · intro q hq hq5
      rw [hat, if_neg (by omega)]
      exact .inr (hi.done q (by omega))

/-- **The rounds in this code never end.** -/
theorem not_endsWithin_of_turning (hne : x ≠ y) (hxy : c.hierarchy.isSubtype x y = true)
    (hyx : c.hierarchy.isSubtype y x = true) (rounds : Nat) (hi : i.Turning owner x y k) :
    ¬c.EndsWithin swapCode rounds i := by
  -- The classes change places on the way, so the induction is over both orders.
  induction rounds generalizing i x y k with
  | zero =>
      intro hends
      have hends : i.queue = [] := hends
      rw [hi.queue] at hends
      simp at hends
  | succ rounds ih =>
      intro hends
      obtain ⟨j, k', hround, hj⟩ := round_turning hne hxy hyx hi
      unfold EndsWithin at hends
      rw [hi.queue] at hends
      rcases hj with hj | hj
      · exact ih hne hxy hyx hj (hends j hround)
      · exact ih hne.symm hyx hxy hj (hends j hround)

/-- The checker starts at the first instruction, with the parameters as they are declared. -/
theorem start_turning (owner a b : String) :
    (Inference.start owner [.object a, .object b] swapCode).Turning owner a b 0 where
  lt := by omega
  frames := rfl
  queue := rfl
  done q hq := by
    obtain rfl : q = 0 := by omega
    rfl
  ahead q hq hq5 := by
    rcases hat : (Inference.start owner [.object a, .object b] swapCode).at? q with _ | f
    · exact .inl rfl
    · obtain ⟨rfl, -, -⟩ := at?_start hat
      omega

end Checker

/-- **The rounds end for every method** exactly if no two different classes are below each other. -/
theorem rounds_end_iff (h : Hierarchy) :
    h.Antisymmetric ↔
      ∀ (owner : String) (params : List DataType) (result : Option DataType) (code : Code) (pool : Pool),
        ∃ rounds, Checker.EndsWithin ⟨pool, h, result⟩ code rounds (.start owner params code) := by
  constructor
  · intro hanti owner params result code pool
    exact ⟨_, Checker.endsWithin_enoughRounds hanti owner params result code pool⟩
  · intro hends a b hab hba
    by_contra hne
    -- Two classes that are below each other may be the types of the parameters.
    obtain ⟨rounds, hrounds⟩ := hends a [.object a, .object b] none swapCode .empty
    exact Checker.not_endsWithin_of_turning hne hab hba rounds (Checker.start_turning a a b) hrounds

/-- Two interfaces that are declared to be below each other are enough for rounds without an end. -/
theorem swap_never_ends :
    ¬∃ rounds, Checker.EndsWithin ⟨.empty, ⟨[("gen.A", "gen.B"), ("gen.B", "gen.A")]⟩, none⟩ swapCode rounds
      (.start "gen.Unit" [.object "gen.A", .object "gen.B"] swapCode) := by
  rintro ⟨rounds, hends⟩
  refine Checker.not_endsWithin_of_turning (x := "gen.A") (y := "gen.B") (by decide) ?_ ?_ rounds
    (Checker.start_turning "gen.Unit" "gen.A" "gen.B") hends
  · decide +kernel
  · decide +kernel

end Routecraft.Bytecode
