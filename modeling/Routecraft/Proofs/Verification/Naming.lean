import Routecraft.Proofs.Assembly.Pools
import Routecraft.Proofs.Verification.Rising

/-!
# The classes that a method can name

The frame types of a method name no other classes than those of its own class and parameters, those of the
constants, and the few that instructions bring along.

* `Pool.classNames`: the classes that instructions take from constants.
* `Checker.Names`: a set of classes that has all of these.
* `Checker.step_leads`: an instruction brings no others.
-/

namespace Routecraft.Bytecode

/-! ## Constants -/

/-- The classes that an instruction takes from a constant: a class, the class of arrays of it, and the types of
fields and results. -/
def Constant.classNames : Constant → List String
  | .classRef name =>
    name :: match dataTypeOfClass name with
      | .ok element => [(DataType.array element).className]
      | .error _ => []
  | .field m =>
    match dataTypeOf m.descriptor with
    | .ok t => [t.className]
    | .error _ => []
  | .method m | .interfaceMethod m =>
    match signatureOf m.descriptor with
    | .ok s => (s.result.map DataType.className).toList
    | .error _ => []
  | _ => []

/-- A constant names at most two classes. -/
theorem Constant.length_classNames (x : Constant) : x.classNames.length ≤ 2 := by
  unfold classNames
  split
  · split <;> simp
  · split <;> simp
  · split
    · next s _ => cases s.result <;> simp
    · simp
  · split
    · next s _ => cases s.result <;> simp
    · simp
  · simp

/-- The classes that instructions take from the constants. -/
def Pool.classNames (p : Pool) : List String := p.toList.flatMap Constant.classNames

/-- A pool names at most two classes for each constant. -/
theorem Pool.length_classNames (p : Pool) : p.classNames.length ≤ 2 * p.size := by
  have hle := List.sum_le_card_nsmul (p.toList.map fun x => x.classNames.length) 2 (fun n hn => by
    obtain ⟨x, -, rfl⟩ := List.mem_map.mp hn
    exact x.length_classNames)
  rw [classNames, List.length_flatMap]
  simpa [Nat.mul_comm] using hle

namespace Checker

/-- The classes that the frame types of a method may name. -/
structure Names (c : Checker) (names : Finset String) : Prop where
  root : rootClass ∈ names
  string : Platform.string ∈ names
  classClass : Platform.classClass ∈ names
  pool : ∀ {k : UInt16} {x : Constant}, c.pool.get k = .ok x → ∀ a ∈ x.classNames, a ∈ names

variable {c : Checker} {names : Finset String} {k : UInt16} {m : Member}

namespace Names

/-- The class of a constant is among the names. -/
theorem classAt (hc : c.Names names) {name : String} (h : c.pool.classAt k = .ok name) : name ∈ names :=
  hc.pool (Pool.classAt_eq_ok.mp h) name List.mem_cons_self

/-- The class of arrays of a class is among the names. -/
theorem arrayAt (hc : c.Names names) {name : String} {element : DataType} (h : c.pool.classAt k = .ok name)
    (helement : dataTypeOfClass name = .ok element) : (DataType.array element).className ∈ names := by
  apply hc.pool (Pool.classAt_eq_ok.mp h)
  simp [Constant.classNames, helement]

theorem fieldAt (hc : c.Names names) {type : DataType} (h : c.pool.fieldAt k = .ok m)
    (htype : dataTypeOf m.descriptor = .ok type) : type.className ∈ names := by
  apply hc.pool (Pool.fieldAt_eq_ok.mp h)
  simp [Constant.classNames, htype]

theorem resultAt (hc : c.Names names) {ofInterface : Bool} {s : Signature} {type : DataType}
    (h : c.pool.methodAt k ofInterface = .ok m) (hs : signatureOf m.descriptor = .ok s)
    (htype : s.result = some type) : type.className ∈ names := by
  apply hc.pool (Pool.methodAt_eq_ok.mp h)
  cases ofInterface <;> simp [Constant.classNames, hs, htype]

end Names

end Checker

/-! ## Frame types -/

variable {names : Finset String} {size : Nat} {f g : FrameType} {t : SlotType}

/-- The type of a slot has the class of its type. -/
theorem SlotType.among_of {type : DataType} (h : type.className ∈ names) : (SlotType.of type).Among names := by
  cases type <;> trivial

namespace FrameType.Among

/-- A frame may be pushed what is among the names. -/
theorem push (hf : f.Among names size) (ht : t.Among names) : (f.push t).Among names size where
  stack := List.forall_mem_cons.mpr ⟨ht, hf.stack⟩
  locals := hf.locals
  size_le := hf.size_le

/-- What is below the top is among the names. -/
theorem below (ts : List SlotType) {xs : List SlotType} {ls : List (Option SlotType)}
    (hf : (FrameType.mk (ts ++ xs) ls).Among names size) : (FrameType.mk xs ls).Among names size where
  stack t ht := hf.stack t (List.mem_append_right _ ht)
  locals := hf.locals
  size_le := hf.size_le

/-- A local may be set to what is among the names. -/
theorem setLocal (hf : f.Among names size) (ht : t.Among names) {slot : Nat} (hslot : slot < size) :
    (f.setLocal slot t).Among names size where
  stack := hf.stack
  locals s hs := by
    rcases List.mem_or_eq_of_mem_set hs with hs | hs
    · rcases List.mem_append.mp hs with hs | hs
      · exact hf.locals s hs
      · cases List.eq_of_mem_replicate hs
    · cases hs
      exact ht
  size_le := by
    have := hf.size_le
    simp only [FrameType.setLocal, List.length_set, List.length_append, List.length_replicate]
    omega

/-- A constructed object is among the names if it was before. -/
theorem constructed (hf : f.Among names size) (name : String) : (f.constructed name).Among names size := by
  have ready : ∀ t : SlotType, t.Among names → (if t = .raw name then SlotType.ref name else t).Among names := by
    intro t ht
    split
    · next heq =>
      rw [heq] at ht
      exact ht
    · exact ht
  refine ⟨?_, ?_, ?_⟩
  · intro t ht
    obtain ⟨t, hmem, rfl⟩ := List.mem_map.mp ht
    exact ready t (hf.stack t hmem)
  · intro t ht
    obtain ⟨s, hmem, hs⟩ := List.mem_map.mp ht
    obtain ⟨t, rfl, rfl⟩ := Option.map_eq_some_iff.mp hs
    exact ready t (hf.locals t hmem)
  · simpa [FrameType.constructed] using hf.size_le

end FrameType.Among

/-! ## Instructions -/

namespace Checker

variable {c : Checker} {flow : Flow} {k : UInt16}

/-- What an instruction makes of a frame type of a method: no other classes are named, and the stack is at most one
slot deeper. -/
structure Leads (names : Finset String) (size : Nat) (f g : FrameType) : Prop where
  among : g.Among names size
  depth : g.stack.length ≤ f.stack.length + 1

/-- Where a frame leads, one with a deeper stack does. -/
theorem Leads.below {f' : FrameType} (h : Leads names size f g) (hdepth : f.stack.length ≤ f'.stack.length) :
    Leads names size f' g :=
  ⟨h.among, Nat.le_trans h.depth (Nat.succ_le_succ hdepth)⟩

/-- The result of a call is among the names. -/
theorem pushResult_leads {s : Signature} (hresult : ∀ type, s.result = some type → type.className ∈ names)
    (hf : f.Among names size) : Leads names size f (pushResult f s).2 := by
  rcases pushResult_cases f s with ⟨-, hg⟩ | ⟨type, htype, hg⟩
  · rw [hg]
    exact ⟨hf, Nat.le_succ _⟩
  · rw [hg]
    exact ⟨hf.push (SlotType.among_of (hresult type htype)), Nat.le_refl _⟩

/-- The type of a constant is among the names. -/
theorem loadType_among (hc : c.Names names) {x : Constant} {t : SlotType} (h : loadType x = .ok t) :
    t.Among names := by
  cases x <;> simp only [loadType, Except.ok.injEq, reduceCtorEq] at h <;> subst h
  case string => exact hc.string
  case classRef => exact hc.classClass
  all_goals trivial

/-- **An instruction names no other classes** than those of the method, if there is room for the locals that it can
set. -/
theorem step_leads (hc : c.Names names) (hsize : 256 ≤ size) (hf : f.Among names size) {i : Instr UInt16}
    (h : c.step f i = .ok (flow, g)) : Leads names size f g := by
  cases hasEffect_of_step h with
  | pushNull => exact ⟨hf.push trivial, Nat.le_refl _⟩
  | dup => exact ⟨hf.push (hf.stack _ List.mem_cons_self), Nat.le_refl _⟩
  | @pop x => exact ⟨hf.below [x], by simp; omega⟩
  | @swap x y =>
      have hx : x.Among names := hf.stack x (by simp)
      have hy : y.Among names := hf.stack y (by simp)
      exact ⟨((hf.below [x, y]).push hx).push hy, by simp⟩
  | @arrayStore value index name => exact ⟨hf.below [value, index, .ref name], by simp; omega⟩
  | returnVoid => exact ⟨hf, Nat.le_succ _⟩
  | @returnValue _ x => exact ⟨hf.below [x], by simp; omega⟩
  | load hx => exact ⟨hf.push (hf.locals _ (List.mem_of_getElem? hx)), Nat.le_refl _⟩
  | @store slot x =>
      have hslot : slot.toNat < size := Nat.lt_of_lt_of_le slot.toNat_lt hsize
      exact ⟨(hf.below [x]).setLocal (hf.stack x List.mem_cons_self) hslot, by simp [FrameType.setLocal]; omega⟩
  | pushInt => exact ⟨hf.push trivial, Nat.le_refl _⟩
  | loadConst _ hx => exact ⟨hf.push (loadType_among hc hx), Nat.le_refl _⟩
  | @getField _ _ _ target _ _ hm htype =>
      exact ⟨(hf.below [target]).push (SlotType.among_of (hc.fieldAt hm htype)), by simp⟩
  | @putField _ _ _ value target => exact ⟨hf.below [value, target], by simp; omega⟩
  | getStatic hm htype => exact ⟨hf.push (SlotType.among_of (hc.fieldAt hm htype)), Nat.le_refl _⟩
  | invokeVirtual hm hsignature | invokeInterface hm hsignature =>
      rw [List.append_cons] at hf
      exact (pushResult_leads (fun type htype => hc.resultAt hm hsignature htype) (hf.below _)).below (by simp; omega)
  | invokeStatic hm hsignature =>
      exact (pushResult_leads (fun type htype => hc.resultAt hm hsignature htype) (hf.below _)).below (by simp)
  | @invokeSpecial _ m _ _ _ _ hm hsignature =>
      rw [List.append_cons] at hf
      exact (pushResult_leads (fun type htype => hc.resultAt hm hsignature htype)
        ((hf.below _).constructed m.owner)).below (by simp [FrameType.constructed]; omega)
  | newObject hname => exact ⟨hf.push (hc.classAt hname), Nat.le_refl _⟩
  | @newArray _ _ _ x _ _ hname helement =>
      exact ⟨(hf.below [x]).push (hc.arrayAt hname helement), by simp⟩
  | @checkCast _ _ x _ _ hname => exact ⟨(hf.below [x]).push (hc.classAt hname), by simp⟩
  | @ifFalse _ x => exact ⟨hf.below [x], by simp; omega⟩
  | goto => exact ⟨hf, Nat.le_succ _⟩

end Checker

end Routecraft.Bytecode
