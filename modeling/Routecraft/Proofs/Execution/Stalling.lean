import Routecraft.Proofs.Execution.References
import Routecraft.Proofs.Execution.Texts

/-!
# Actions without an end

When an action fails over a value, the error tells of it, and the text of an array within itself has no end. Nothing
else keeps an action from its end, as far as the code of the application does not.

* `Store.Endless`: an action without an end.
* `Program.Stalls`: an instruction fails over a value that leads to an array within itself, or calls what has no end.
* `Program.step_endless_iff`: these are all instructions without an end.
* `Ends`: an action has an end unless one of some values leads to an array within itself.
* `Program.HostEnds.call`: this is so of all calls, if it is of the code of the application.
-/

namespace Routecraft.Machine

open Bytecode

variable {α β : Type} {s s' t : Store} {v : Value} {f : Frame}

/-! ## Actions without an end -/

namespace Store

/-- An action has no end on a store. -/
def Endless (s : Store) (a : Action α) : Prop := (s.perform a).1 = .error .endless

/-- An action in two parts is without an end just if the first is, or the second from where the first ends. -/
theorem endless_bind {a : Action α} {g : α → Action β} :
    s.Endless (a >>= g) ↔ s.Endless a ∨ ∃ x s', s.perform a = (.ok x, s') ∧ s'.Endless (g x) := by
  unfold Endless
  rw [perform_bind]
  rcases s.perform a with ⟨e | x, s'⟩ <;> simp

@[simp] theorem endless_map {g : α → β} {a : Action α} : s.Endless (g <$> a) ↔ s.Endless a := by
  unfold Endless
  rw [perform_map]
  cases (s.perform a).1 <;> simp [Except.map]

@[simp] theorem not_endless_pure (x : α) : ¬s.Endless (pure x : Action α) := nofun

/-- Only the outcome of a run without an end is one. -/
@[simp] theorem endless_throw {e : MachineError} : s.Endless (throw e : Action α) ↔ e = .endless := by
  simp [Endless]

@[simp] theorem endless_get_bind {g : Store → Action α} : s.Endless (get >>= g) ↔ s.Endless (g s) := by
  simp [Endless]

@[simp] theorem endless_modify_bind {change : Store → Store} {g : PUnit → Action α} :
    s.Endless (modify change >>= g) ↔ (change s).Endless (g ⟨⟩) := by
  simp [Endless]

@[simp] theorem not_endless_modifyGet (change : Store → α × Store) : ¬s.Endless (modifyGet change : Action α) := nofun

@[simp] theorem not_endless_orUnitFault {c : Except UnitError α} : ¬s.Endless (orUnitFault c) := by
  cases c <;> simp [Endless]

/-- Where the units are at fault, nothing is told of values. -/
@[simp] theorem endless_orUnitFault_bind {c : Except UnitError α} {g : α → Action β} :
    s.Endless (orUnitFault c >>= g) ↔ ∃ x, c = .ok x ∧ s.Endless (g x) := by
  cases c <;> simp [Endless]

/-- To tell of a value is without an end just if it is looped. -/
theorem telling_eq_endless {error : String → MachineError} (h : ∀ text, error text ≠ .endless) :
    s.telling v error = .endless ↔ s.Looped v := by
  rw [← display?_eq_none_iff]
  unfold telling
  cases s.display? v with
  | none => simp
  | some text => simpa using h text

/-- **An error has no end** if the value that it tells of leads to an array within itself. -/
@[simp] theorem endless_mismatch {expected : String} :
    s.Endless (mismatch expected v : Action α) ↔ s.Looped v := by
  have htelling : s.telling v (.typeMismatch expected) = .endless ↔ s.Looped v := telling_eq_endless nofun
  simp [Endless, htelling]

/-- An action that reads a number is without an end just over a looped value, or if its rest is. -/
@[simp] theorem endless_asInt_bind {g : Int32 → Action α} :
    s.Endless (v.asInt >>= g) ↔ s.Looped v ∨ ∃ n, v = .int n ∧ s.Endless (g n) := by
  cases v
  case int n =>
    have hnot : ¬s.Looped (.int n) := not_looped_of_refs rfl
    simp [Value.asInt, hnot]
  all_goals simp [Value.asInt, endless_bind]

/-- An action that reads an object is without an end just over a looped value, or if its rest is. -/
@[simp] theorem endless_asObject_bind {g : Nat → Action α} :
    s.Endless (v.asObject >>= g) ↔ s.Looped v ∨ ∃ unit number, v = .object unit number ∧ s.Endless (g number) := by
  cases v
  case object unit number =>
    have hnot : ¬s.Looped (.object unit number) := not_looped_of_refs rfl
    simp [Value.asObject, hnot]
  all_goals simp [Value.asObject, endless_bind]

end Store

namespace Frame

@[simp] theorem not_endless_pop : ¬s.Endless f.pop := by
  unfold pop
  split <;> simp

@[simp] theorem not_endless_top : ¬s.Endless f.top := by
  unfold top
  split <;> simp

@[simp] theorem not_endless_load {slot : UInt8} : ¬s.Endless (f.load slot) := by
  unfold load
  split <;> simp

/-- An action that pops is without an end just if there is something to pop, and its rest is. -/
@[simp] theorem endless_pop_bind {g : Value × Frame → Action α} :
    s.Endless (f.pop >>= g) ↔ ∃ v rest, f.stack = v :: rest ∧ s.Endless (g (v, { f with stack := rest })) := by
  unfold pop
  cases f.stack <;> simp

/-- An action that looks at the top is without an end just if there is one, and its rest is. -/
@[simp] theorem endless_top_bind {g : Value → Action α} :
    s.Endless (f.top >>= g) ↔ ∃ v rest, f.stack = v :: rest ∧ s.Endless (g v) := by
  unfold top
  cases f.stack <;> simp

/-- An action that pops arguments is without an end just if they are there, and its rest is. -/
@[simp] theorem endless_popArgs_bind {count : Nat} {g : List Value × Frame → Action α} :
    s.Endless (f.popArgs count >>= g) ↔ ∃ args rest, args.length = count ∧ f.stack = args.reverse ++ rest ∧
      s.Endless (g (args, { f with stack := rest })) := by
  unfold popArgs
  by_cases hcount : count ≤ f.stack.length
  · simp only [if_pos hcount, pure_bind]
    constructor
    · intro h
      refine ⟨_, _, ?_, ?_, h⟩
      · simp [hcount]
      · simp
    · rintro ⟨args, rest, rfl, hstack, h⟩
      have htake : f.stack.take args.length = args.reverse := by simp [hstack]
      have hdrop : f.stack.drop args.length = rest := by simp [hstack]
      rwa [htake, hdrop, List.reverse_reverse]
  · simp only [if_neg hcount, Store.endless_bind, Store.endless_throw, reduceCtorEq, false_or]
    refine iff_of_false (fun ⟨_, _, h, _⟩ => by simp at h) ?_
    rintro ⟨args, rest, rfl, hstack, -⟩
    simp [hstack] at hcount

end Frame

/-- To push a constant comes to an end. -/
theorem not_endless_constantValue (c : Constant) : ¬s.Endless (constantValue c) := by
  cases c <;> simp [constantValue]

/-! ## Instructions -/

namespace Program

variable {p : Program} {pool : Pool} {callers : List Frame} {i : Instr UInt16}

/-- An instruction that has no end on a stack: it fails over a value that leads to an array within itself, or what it
calls has no end. -/
inductive Stalls (p : Program) (pool : Pool) (s : Store) : Instr UInt16 → List Value → Prop
  | ifFalse {target : UInt16} {v : Value} {stack : List Value} :
      s.Looped v → Stalls p pool s (.jump .ifFalse target) (v :: stack)
  | newArray {k : UInt16} {element : DataType} {v : Value} {stack : List Value} :
      (do dataTypeOfClass (← pool.classAt k)) = .ok element → s.Looped v →
      Stalls p pool s (.onConst .newArray k) (v :: stack)
  | index {v index : Value} {stack : List Value} :
      s.Looped index → Stalls p pool s (.bare .arrayStore) (v :: index :: stack)
  | target {n : Int32} {v target : Value} {stack : List Value} :
      (∀ className number, target ≠ .array className number) → s.Looped target →
      Stalls p pool s (.bare .arrayStore) (v :: .int n :: target :: stack)
  | getField {k : UInt16} {m : Member} {v : Value} {stack : List Value} :
      pool.fieldAt k = .ok m → s.Looped v → Stalls p pool s (.onConst .getField k) (v :: stack)
  | putField {k : UInt16} {m : Member} {v target : Value} {stack : List Value} :
      pool.fieldAt k = .ok m → s.Looped target →
      Stalls p pool s (.onConst .putField k) (v :: target :: stack)
  | checkCast {k : UInt16} {name className : String} {v : Value} {stack : List Value} :
      pool.classAt k = .ok name → v.className? = some className → p.hierarchy.isSubtype className name = false →
      s.Looped v → Stalls p pool s (.onConst .checkCast k) (v :: stack)
  | static {k : UInt16} {m : Member} {signature : Signature} {args stack : List Value} :
      pool.methodAt k false = .ok m → signatureOf m.descriptor = .ok signature →
      args.length = signature.params.length → s.Endless (p.callStatic m.owner m.name args) →
      Stalls p pool s (.onConst .invokeStatic k) (args.reverse ++ stack)
  | method {op : ConstOp} {k : UInt16} {m : Member} {signature : Signature} {receiver : Value}
      {args stack : List Value} :
      op ∈ [.invokeVirtual, .invokeInterface, .invokeSpecial] → pool.methodAt k (op == .invokeInterface) = .ok m →
      signatureOf m.descriptor = .ok signature → args.length = signature.params.length →
      s.Endless (p.call receiver m.name args) →
      Stalls p pool s (.onConst op k) (args.reverse ++ receiver :: stack)

/-- To store into an array is without an end just where the machine stalls. -/
theorem stepArrayStore_endless_iff :
    s.Endless (stepArrayStore f) ↔ p.Stalls f.unit.pool s (.bare .arrayStore) f.stack := by
  simp only [stepArrayStore, Frame.endless_pop_bind, Store.endless_asInt_bind]
  generalize f.stack = stack
  constructor
  · rintro ⟨v, _, rfl, index, _, rfl, h | ⟨n, rfl, target, _, rfl, h⟩⟩
    · exact .index h
    · cases target
      case array className number =>
        have h := Store.endless_get_bind.mp h
        split at h <;> cases h
      all_goals exact .target (fun _ _ heq => by cases heq) (Store.endless_mismatch.mp h)
  · intro h
    cases h with
    | index h => exact ⟨_, _, rfl, _, _, rfl, .inl h⟩
    | @target n v target stack hkind h =>
        refine ⟨_, _, rfl, _, _, rfl, .inr ⟨n, rfl, target, _, rfl, ?_⟩⟩
        cases target
        case array className number => exact absurd rfl (hkind _ _)
        all_goals exact Store.endless_mismatch.mpr h

/-- The instructions on constants that call no method. -/
theorem stepConst_endless_iff {op : ConstOp} {k : UInt16}
    (hop : op ∉ [.invokeVirtual, .invokeInterface, .invokeStatic, .invokeSpecial]) :
    s.Endless (p.stepConst f op k) ↔ p.Stalls f.unit.pool s (.onConst op k) f.stack := by
  have hnone (hop : op ∈ [.loadConst, .getStatic, .newObject]) (stack : List Value) :
      ¬p.Stalls f.unit.pool s (.onConst op k) stack := by
    intro h
    cases h with
    | method hmethod => grind
    | _ => simp at hop
  cases op with
  | loadConst =>
      refine iff_of_false ?_ (hnone (by decide) _)
      simp [stepConst, not_endless_constantValue]
  | getStatic =>
      refine iff_of_false ?_ (hnone (by decide) _)
      simp [stepConst]
  | newObject =>
      refine iff_of_false ?_ (hnone (by decide) _)
      simp [stepConst]
  | getField =>
      simp only [stepConst, Store.endless_orUnitFault_bind, Frame.endless_pop_bind, Store.endless_asObject_bind]
      generalize f.stack = stack
      constructor
      · rintro ⟨m, hm, v, _, rfl, h | ⟨unit, number, rfl, h⟩⟩
        · exact .getField hm h
        · cases h
      · intro h
        cases h with
        | method hmethod => simp at hmethod
        | getField hm h => exact ⟨_, hm, _, _, rfl, .inl h⟩
  | putField =>
      simp only [stepConst, Store.endless_orUnitFault_bind, Frame.endless_pop_bind, Store.endless_asObject_bind]
      generalize f.stack = stack
      constructor
      · rintro ⟨m, hm, v, _, rfl, target, _, rfl, h | ⟨unit, number, rfl, h⟩⟩
        · exact .putField hm h
        · cases h
      · intro h
        cases h with
        | method hmethod => simp at hmethod
        | putField hm h => exact ⟨_, hm, _, _, rfl, _, _, rfl, .inl h⟩
  | newArray =>
      simp only [stepConst, Store.endless_orUnitFault_bind, Frame.endless_pop_bind, Store.endless_asInt_bind]
      generalize f.stack = stack
      constructor
      · rintro ⟨element, helement, v, _, rfl, h | ⟨n, rfl, h⟩⟩
        · exact .newArray helement h
        · by_cases hneg : n < 0 <;> simp [hneg] at h
      · intro h
        cases h with
        | method hmethod => simp at hmethod
        | newArray helement h => exact ⟨_, helement, _, _, rfl, .inl h⟩
  | checkCast =>
      simp only [stepConst, Store.endless_orUnitFault_bind, Frame.endless_top_bind]
      generalize f.stack = stack
      constructor
      · rintro ⟨name, hname, v, _, rfl, h⟩
        split at h
        · next className hclass =>
          split at h
          · cases h
          · next hsub => exact .checkCast hname hclass (Bool.eq_false_iff.mpr hsub) (Store.endless_mismatch.mp h)
        · cases h
      · intro h
        cases h with
        | method hmethod => simp at hmethod
        | checkCast hname hclass hsub h =>
            refine ⟨_, hname, _, _, rfl, ?_⟩
            simp only [hclass, hsub, Bool.false_eq_true, if_false]
            exact Store.endless_mismatch.mpr h
  | invokeVirtual | invokeInterface | invokeStatic | invokeSpecial => simp at hop

/-- A call is without an end just where the machine stalls. -/
theorem stepCall_endless_iff {op : ConstOp} {k : UInt16}
    (hop : op ∈ [.invokeVirtual, .invokeInterface, .invokeStatic, .invokeSpecial]) :
    s.Endless (p.stepCall f callers op k) ↔ p.Stalls f.unit.pool s (.onConst op k) f.stack := by
  simp only [stepCall, Store.endless_orUnitFault_bind, Frame.endless_popArgs_bind]
  generalize f.stack = stack
  constructor
  · rintro ⟨m, hm, signature, hsignature, args, _, hcount, rfl, h⟩
    split at h
    · next hstatic =>
      obtain rfl := eq_of_beq hstatic
      rcases Store.endless_bind.mp h with h | ⟨v, s', -, h⟩
      · exact .static hm hsignature hcount h
      · cases h
    · next hstatic =>
      obtain ⟨receiver, _, rfl, hcall⟩ := Frame.endless_pop_bind.mp h
      have hmethod : op ∈ [.invokeVirtual, .invokeInterface, .invokeSpecial] := by
        simp at hop hstatic ⊢
        tauto
      rcases Store.endless_bind.mp hcall with h | ⟨called, s', -, h⟩
      · exact .method hmethod hm hsignature hcount h
      · cases called <;> cases h
  · intro h
    cases h with
    | newArray | getField | putField | checkCast => simp at hop
    | static hm hsignature hcount h =>
        exact ⟨_, hm, _, hsignature, _, _, hcount, rfl, Store.endless_bind.mpr (.inl h)⟩
    | method hmethod hm hsignature hcount h =>
        refine ⟨_, hm, _, hsignature, _, _, hcount, rfl, ?_⟩
        have hstatic : (op == .invokeStatic) = false := by
          simp only [List.mem_cons, List.not_mem_nil, or_false] at hmethod
          rcases hmethod with rfl | rfl | rfl <;> rfl
        simp only [hstatic, Bool.false_eq_true, if_false]
        exact Frame.endless_pop_bind.mpr ⟨_, _, rfl, Store.endless_bind.mpr (.inl h)⟩

/-- **What an instruction without an end is about.** -/
theorem step_endless_iff : s.Endless (p.step f callers i) ↔ p.Stalls f.unit.pool s i f.stack := by
  cases i with
  | bare op =>
      cases op with
      | arrayStore =>
          rw [← stepArrayStore_endless_iff]
          simp [step]
      | _ =>
          refine iff_of_false ?_ (by rintro ⟨⟩)
          simp [step, Store.endless_bind]
  | onLocal op slot =>
      refine iff_of_false ?_ (by rintro ⟨⟩)
      cases op <;> simp [step]
  | pushInt n => exact iff_of_false (Store.not_endless_pure _) (by rintro ⟨⟩)
  | jump op target =>
      cases op with
      | goto => exact iff_of_false (Store.not_endless_pure _) (by rintro ⟨⟩)
      | ifFalse =>
          simp only [step, Frame.endless_pop_bind, Store.endless_asInt_bind]
          generalize f.stack = stack
          constructor
          · rintro ⟨v, _, rfl, h | ⟨n, rfl, h⟩⟩
            · exact .ifFalse h
            · exact absurd h (Store.not_endless_pure _)
          · intro h
            cases h with
            | ifFalse h => exact ⟨_, _, rfl, .inl h⟩
  | onConst op k =>
      by_cases hop : op ∈ [.invokeVirtual, .invokeInterface, .invokeStatic, .invokeSpecial]
      · have hcall : s.Endless (p.stepCall f callers op k) ↔ _ := stepCall_endless_iff hop
        rw [← hcall]
        simp only [List.mem_cons, List.not_mem_nil, or_false] at hop
        rcases hop with rfl | rfl | rfl | rfl <;> rfl
      · rw [← stepConst_endless_iff hop]
        cases op <;> first | exact absurd (by decide) hop | simp [step]

end Program

/-! ## Calls -/

/-- An action that leaves the arrays alone, and has an end unless one of some values leads to an array within itself. -/
def Ends (vs : List Value) (a : Action α) : Prop :=
  ∀ s : Store, (s.perform a).2.arrays = s.arrays ∧ (s.Endless a → ∃ v ∈ vs, s.Looped v)

namespace Ends

variable {vs : List Value}

/-- An action that never is without an end ends for any values. -/
theorem of_not_endless {a : Action α} (harrays : ∀ s : Store, (s.perform a).2.arrays = s.arrays)
    (h : ∀ s : Store, ¬s.Endless a) : Ends vs a := fun s => ⟨harrays s, fun hs => absurd hs (h s)⟩

theorem pure (x : α) : Ends vs (pure x) := of_not_endless (fun _ => rfl) fun _ => Store.not_endless_pure x

theorem throw {e : MachineError} (h : e ≠ .endless) : Ends vs (throw e : Action α) :=
  of_not_endless (fun _ => rfl) fun _ => by simpa using h

/-- Actions that end, one after the other, end if the first keeps the arrays. -/
theorem bind {a : Action α} {g : α → Action β} (ha : Ends vs a) (hg : ∀ x, Ends vs (g x)) : Ends vs (a >>= g) := by
  intro s
  obtain ⟨harrays, hends⟩ := ha s
  unfold Store.Endless at hends ⊢
  rw [Store.perform_bind]
  rcases hperform : s.perform a with ⟨e | x, s'⟩ <;> rw [hperform] at harrays hends
  · exact ⟨harrays, fun h => hends (by simpa using h)⟩
  · obtain ⟨harrays', hends'⟩ := hg x s'
    refine ⟨harrays'.trans harrays, fun h => ?_⟩
    obtain ⟨v, hv, hlooped⟩ := hends' h
    exact ⟨v, hv, hlooped.congr harrays.symm⟩

theorem get_bind {g : Store → Action α} (hg : ∀ s, Ends vs (g s)) : Ends vs (get >>= g) :=
  bind (of_not_endless (fun _ => rfl) fun _ => nofun) hg

/-- A change of the store that leaves the arrays ends. -/
theorem modify {change : Store → Store} (h : ∀ s, (change s).arrays = s.arrays) :
    Ends vs (modify change : Action PUnit) := of_not_endless h fun _ => nofun

theorem orFail {x : Except MachineError α} (h : x ≠ .error .endless) : Ends vs (orFail x) := by
  cases x with
  | ok x => exact pure x
  | error e => exact throw fun he => h (congrArg Except.error he)

/-- Actions done for each of a list end if each does. -/
theorem mapM {xs : List α} {g : α → Action β} (h : ∀ x, Ends vs (g x)) : Ends vs (xs.mapM g) := by
  induction xs with
  | nil => exact pure []
  | cons x xs ih =>
      rw [List.mapM_cons]
      exact bind (h x) fun y => bind ih fun ys => pure (y :: ys)

/-- To tell of one of the values ends, if none is looped. -/
theorem throwTelling {v : Value} (hv : v ∈ vs) {error : String → MachineError} (h : ∀ text, error text ≠ .endless) :
    Ends vs (throwTelling v error : Action α) := by
  refine fun s => ⟨rfl, fun hs => ⟨v, hv, ?_⟩⟩
  rw [← Store.telling_eq_endless h]
  exact Except.error.inj hs

/-- A value of the wrong kind that is one of the values ends, if none is looped. -/
theorem mismatch {v : Value} (hv : v ∈ vs) (expected : String) : Ends vs (mismatch expected v : Action α) :=
  throwTelling hv nofun

theorem asText {v : Value} (hv : v ∈ vs) : Ends vs v.asText := by
  cases v <;> first | exact pure _ | exact mismatch hv _

theorem asClass {v : Value} (hv : v ∈ vs) : Ends vs v.asClass := by
  cases v <;> first | exact pure _ | exact mismatch hv _

theorem asList {v : Value} (hv : v ∈ vs) : Ends vs v.asList := by
  cases v <;> first | exact pure _ | exact mismatch hv _

theorem asArray {v : Value} (hv : v ∈ vs) : Ends vs v.asArray := by
  cases v <;> first | exact get_bind fun _ => pure _ | exact mismatch hv _

theorem handleTo (className : String) (object : HostObject) : Ends vs (handleTo className object) :=
  of_not_endless (fun _ => rfl) fun _ => nofun

/-! ### The framework -/

/-- A text that cannot be read is told in an error. -/
theorem readPrimitive_ne_endless (kind : Primitive) (raw : String) : readPrimitive kind raw ≠ .error .endless := by
  unfold readPrimitive
  split <;> nofun

theorem readAs_ne_endless (className raw : String) : readAs className raw ≠ .error .endless := by
  unfold readAs readPrimitive
  split
  · nofun
  · split
    · split <;> nofun
    · nofun

theorem readAs (className raw : String) : Ends vs (Machine.orFail (readAs className raw)) :=
  orFail (readAs_ne_endless className raw)

theorem readAll (className : String) (texts : List String) : Ends vs (readAll className texts) := by
  refine orFail fun h => ?_
  obtain ⟨raw, -, hread⟩ := exists_of_mapM_eq_error h
  exact readAs_ne_endless className raw hread

theorem firstText (source : String) (texts : List String) : Ends vs (firstText source texts) := by
  cases texts with
  | nil => exact throw nofun
  | cons text texts => exact pure text

theorem bodyText (content : List UInt8) : Ends vs (bodyText content) := by
  unfold Machine.bodyText
  split
  · exact pure _
  · exact throw nofun

/-- The object of a body ends, if the type that is asked for is one of the values. -/
theorem bodyObject (payload : Option Value) {type : Value} (htype : type ∈ vs) : Ends vs (bodyObject payload type) := by
  cases payload with
  | none => exact throwTelling htype nofun
  | some v => exact pure v

variable {args : List Value}

/-- Calls on a context end, if no argument is looped. -/
theorem callContext (exchange : Nat) (method : String) (args : List Value) :
    Ends args (callContext exchange method args) := by
  unfold Machine.callContext
  refine get_bind fun s => ?_
  split
  · split
    case h_1 => exact handleTo _ _
    case h_2 =>
      refine bind (asText List.mem_cons_self) fun name => ?_
      split
      · exact handleTo _ _
      · exact throw nofun
    case h_3 =>
      refine bind (asText List.mem_cons_self) fun name => bind (mapM fun _ => handleTo _ _) fun _ => pure _
    case h_4 | h_5 =>
      refine bind (asClass List.mem_cons_self) fun name => ?_
      split
      · exact pure _
      · exact throw nofun
    case h_6 => exact pure _
    case h_7 => exact bind (modify fun _ => rfl) fun _ => handleTo _ _
    case h_8 =>
      split
      · exact bind (asText List.mem_cons_self) fun name => handleTo _ _
      · exact throw nofun
    case h_9 => exact throw nofun
  · exact throw nofun

theorem callValues (source : String) (texts : List String) (method : String) (args : List Value) :
    Ends args (callValues source texts method args) := by
  unfold Machine.callValues
  split
  case h_1 => exact bind (firstText _ _) fun _ => pure _
  case h_2 => exact pure _
  case h_3 => exact bind (firstText _ _) fun _ => bind (asClass List.mem_cons_self) fun _ => readAs _ _
  case h_4 =>
    split
    · exact bind (asClass List.mem_cons_self) fun _ => readAs _ _
    · exact pure _
  case h_5 =>
    split
    · exact bind (asClass List.mem_cons_self) fun _ => bind (readAs _ _) fun _ => pure _
    · exact pure _
  case h_6 | h_7 => exact bind (asClass List.mem_cons_self) fun _ => bind (readAll _ _) fun _ => pure _
  case h_8 =>
    split
    · exact bind (firstText _ _) fun _ => orFail (readPrimitive_ne_endless _ _)
    · exact throw nofun
  case h_9 => exact throw nofun

theorem callBody (content : List UInt8) (payload : Option Value) (method : String) (args : List Value) :
    Ends args (callBody content payload method args) := by
  unfold Machine.callBody
  split
  case h_1 | h_2 => exact pure _
  case h_3 => exact bind (bodyText _) fun _ => pure _
  case h_4 =>
    split
    · exact bind (bodyText _) fun _ => pure _
    · split
      · exact bind (bodyText _) fun _ => readAs _ _
      · exact bodyObject _ List.mem_cons_self
  case h_5 => exact bodyObject _ List.mem_cons_self
  case h_6 => exact throw nofun

theorem callUpload (file : Upload) (method : String) (args : List Value) : Ends args (callUpload file method args) := by
  unfold Machine.callUpload
  split
  · exact pure _
  · exact pure _
  · exact throw nofun

theorem callRouter (router : Nat) (method : String) (args : List Value) :
    Ends args (callRouter router method args) := by
  unfold Machine.callRouter
  split
  · refine bind (asText (by simp)) fun verb => bind (asText (by simp)) fun pattern => get_bind fun s => ?_
    exact bind (modify fun _ => rfl) fun _ => handleTo _ _
  · exact throw nofun

theorem callRoute (route : Nat) (method : String) (args : List Value) : Ends args (callRoute route method args) := by
  have hchange (args : List Value) (change : Registered → Registered) :
      Ends args (changeRoute route change >>= fun _ => Machine.handleTo Platform.route (.route route)) :=
    bind (modify fun _ => rfl) fun _ => handleTo _ _
  unfold Machine.callRoute
  split
  case h_1 => exact hchange _ _
  case h_2 | h_3 => exact bind (asList List.mem_cons_self) fun _ => hchange _ _
  case h_4 => exact bind (asText List.mem_cons_self) fun _ => hchange _ _
  case h_5 => exact bind (throw nofun) fun _ => handleTo _ _

theorem callProvider (content : Value) (method : String) (args : List Value) :
    Ends args (callProvider content method args) := by
  unfold Machine.callProvider
  split
  · exact pure _
  · exact throw nofun

/-- Calls on the framework end, if no argument is looped. -/
theorem callFramework (owner method : String) (args : List Value) : Ends args (callFramework owner method args) := by
  unfold Machine.callFramework
  split
  case h_1 => exact pure _
  case h_2 => exact bind (asArray List.mem_cons_self) fun _ => pure _
  case h_3 =>
    refine bind (asArray List.mem_cons_self) fun items => ?_
    split
    · exact pure _
    · exact throw nofun
  case h_4 => exact bind (asText List.mem_cons_self) fun _ => pure _
  case h_5 => exact bind (asClass (by simp)) fun _ => bind (asArray (by simp)) fun _ => pure _
  case h_6 =>
    split
    · exact pure _
    · exact throw nofun
  case h_7 => exact throw nofun

/-- The methods of host objects, stubs aside. -/
theorem hostCall (stubs : Array Stub) {object : HostObject} (hstub : ∀ number, object ≠ .stub number) (method : String)
    (args : List Value) : Ends args (object.call stubs method args) := by
  cases object with
  | context exchange => exact callContext exchange method args
  | router number => exact callRouter number method args
  | route number => exact callRoute number method args
  | stub number => exact absurd rfl (hstub number)
  | provider content => exact callProvider content method args
  | values source texts => exact callValues source texts method args
  | body content payload => exact callBody content payload method args
  | upload file => exact callUpload file method args

end Ends

/-- A program whose code of the application has an end, whatever it is called with. -/
structure Program.HostEnds (p : Program) : Prop where
  stubs : ∀ stub ∈ p.stubs, ∀ m ∈ stub.methods, ∀ (args : List Value) (s : Store), ¬s.Endless (m.2 args)
  statics : ∀ e ∈ p.statics, ∀ (args : List Value) (s : Store), ¬s.Endless (e.2 args)

namespace Program

variable {p : Program} {name owner : String} {args : List Value} {receiver : Value}

/-- A host object comes to an end if the host does. -/
theorem HostEnds.callStub (hp : p.HostEnds) (number : Nat) : ¬s.Endless (callStub p.stubs number name args) := by
  unfold Machine.callStub
  dsimp only
  split
  · next code hcode =>
    rw [Array.getD_eq_getD_getElem?] at hcode
    rw [Store.endless_modify_bind]
    cases hstub : p.stubs[number]? with
    | none =>
        rw [hstub] at hcode
        cases hcode
    | some stub =>
        rw [hstub] at hcode
        exact hp.stubs stub (Array.mem_of_getElem? hstub) _ (mem_of_lookup hcode) args _
  · nofun

/-- **A call has an end** unless one of its arguments leads to an array within itself. -/
theorem HostEnds.call (hp : p.HostEnds) (h : s.Endless (p.call receiver name args)) :
    ∃ v ∈ args, s.Looped v := by
  cases receiver with
  | object unit number =>
      simp only [Program.call, Program.enter] at h
      split at h
      · split at h <;> cases h
      · cases h
  | host className handle =>
      replace h := Store.endless_get_bind.mp h
      split at h
      · next object _ =>
        rw [bind_pure_comp, Store.endless_map] at h
        by_cases hstub : ∃ number, object = .stub number
        · obtain ⟨number, rfl⟩ := hstub
          exact absurd h (hp.callStub number)
        · exact (Ends.hostCall p.stubs (fun number heq => hstub ⟨number, heq⟩) name args s).2 h
      · cases h
  | boxed kind content =>
      simp only [Program.call] at h
      split at h <;> cases h
  | _ => cases h

/-- A static call is without an end only over an argument that is looped. -/
theorem HostEnds.callStatic (hp : p.HostEnds) (h : s.Endless (p.callStatic owner name args)) :
    ∃ v ∈ args, s.Looped v := by
  unfold Program.callStatic at h
  split at h
  · next code hcode => exact absurd h (hp.statics _ (mem_of_lookup hcode) args s)
  · exact (Ends.callFramework owner name args s).2 h

/-- **An instruction without an end** has, on its stack, a value that leads to an array within itself, if the code of
the application ends. -/
theorem Stalls.exists_operand {pool : Pool} {i : Instr UInt16} {stack : List Value} (hp : p.HostEnds)
    (h : p.Stalls pool s i stack) : ∃ v ∈ stack, s.Looped v := by
  cases h with
  | ifFalse h | newArray _ h | getField _ h | checkCast _ _ _ h => exact ⟨_, List.mem_cons_self, h⟩
  | index h | putField _ h => exact ⟨_, List.mem_cons_of_mem _ List.mem_cons_self, h⟩
  | target _ h => exact ⟨_, by simp, h⟩
  | static _ _ _ h =>
      obtain ⟨v, hv, hlooped⟩ := hp.callStatic h
      exact ⟨v, by simp [hv], hlooped⟩
  | method _ _ _ _ h =>
      obtain ⟨v, hv, hlooped⟩ := hp.call h
      exact ⟨v, by simp [hv], hlooped⟩

end Program

end Routecraft.Machine
