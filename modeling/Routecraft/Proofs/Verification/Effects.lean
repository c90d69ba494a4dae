import Mathlib.Data.List.Forall2
import Routecraft.Bytecode.Typing
import Routecraft.Proofs.Outcome

/-!
# What the effects on types require

The operations that take slots off the stack of a frame type succeed exactly when the slots are there and
are of the kind that is asked for; the locals stay as they are.

* `Hierarchy.Joins`, `Hierarchy.join_eq_some_iff`: the ways in which two slot types have a join.
* `FrameType.pop_eq_ok`, `FrameType.popReference_eq_ok`, `FrameType.popAccepted_eq_ok`: one slot.
* `FrameType.popArgs_eq_ok`: the arguments of a call.
* `FrameType.joinStacks_eq_some`, `FrameType.joinLocals_eq_some`: what a join is made of.
* `Checker.HasEffect`, `Checker.step_eq_ok_iff`: the instructions that a frame type admits, and what each of them makes
  of it.
-/

namespace Routecraft.Bytecode

/-- An error of a unit becomes one of the step, and a success stays. -/
theorem ofUnit_eq_ok {α : Type} {x : Except UnitError α} {a : α} :
    ofUnit x = .ok a ↔ x = .ok a := by
  cases x <;> simp [ofUnit]

/-! ## Joins of slot types -/

namespace Hierarchy

variable {h : Hierarchy} {x y z : SlotType}

/-- The ways in which two slot types have a join, and which it is. -/
inductive Joins (h : Hierarchy) : SlotType → SlotType → SlotType → Prop
  | same (t : SlotType) : Joins h t t t
  | nullLeft (b : String) : Joins h .null (.ref b) (.ref b)
  | nullRight (a : String) : Joins h (.ref a) .null (.ref a)
  | right {a b : String} (hne : a ≠ b) (hab : h.isSubtype a b = true) : Joins h (.ref a) (.ref b) (.ref b)
  | left {a b : String} (hne : a ≠ b) (hab : ¬h.isSubtype a b = true) (hba : h.isSubtype b a = true) :
      Joins h (.ref a) (.ref b) (.ref a)
  | root {a b : String} (hne : a ≠ b) (hab : ¬h.isSubtype a b = true) (hba : ¬h.isSubtype b a = true) :
      Joins h (.ref a) (.ref b) (.ref rootClass)

/-- Types join to what both of them stand for. -/
theorem join_eq_some_iff : h.join x y = some z ↔ h.Joins x y z := by
  constructor
  · intro hz
    unfold join at hz
    split at hz
    · next heq =>
      cases hz
      exact heq ▸ .same x
    · next hne =>
      split at hz
      · cases hz
        exact .nullLeft _
      · cases hz
        exact .nullRight _
      · next a b =>
        have hab : a ≠ b := fun heq => hne (by rw [heq])
        split at hz
        · next hsub =>
          cases hz
          exact .right hab hsub
        · next hsub =>
          split at hz
          · next hsup =>
            cases hz
            exact .left hab hsub hsup
          · next hsup =>
            cases hz
            exact .root hab hsub hsup
      · cases hz
  · intro hz
    cases hz with
    | same t => simp [join]
    | nullLeft b => simp [join]
    | nullRight a => simp [join]
    | right hne hab => simp [join, hne, hab]
    | left hne hab hba => simp [join, hne, hab, hba]
    | root hne hab hba => simp [join, hne, hab, hba]

/-- A type joins itself. -/
theorem join_self (h : Hierarchy) (t : SlotType) : h.join t t = some t := join_eq_some_iff.mpr (.same t)

end Hierarchy

/-! ## Operands -/

namespace FrameType

variable {f g : FrameType} {h : Hierarchy} {t : SlotType}

theorem pop_eq_ok : f.pop = .ok (t, g) ↔ f = ⟨t :: g.stack, g.locals⟩ := by
  obtain ⟨stack, locals⟩ := f
  obtain ⟨stack', locals'⟩ := g
  cases stack with
  | nil => simp [pop]
  | cons t' stack => simp [pop, eq_comm, and_assoc]

theorem popReference_eq_ok :
    f.popReference = .ok (t, g) ↔ t.isReference ∧ f = ⟨t :: g.stack, g.locals⟩ := by
  simp only [popReference, bind_eq_ok, Prod.exists, pop_eq_ok]
  constructor
  · rintro ⟨t', g', hf, h⟩
    split at h
    · next href =>
      cases h
      exact ⟨href, hf⟩
    · simp at h
  · rintro ⟨href, hf⟩
    exact ⟨t, g, hf, by simp [href]⟩

theorem popReference_cons {xs : List SlotType} {ls : List (Option SlotType)} (ht : t.isReference) :
    popReference ⟨t :: xs, ls⟩ = .ok (t, ⟨xs, ls⟩) :=
  popReference_eq_ok.mpr ⟨ht, rfl⟩

theorem popAccepted_eq_ok {declared : DataType} :
    f.popAccepted h declared = .ok g ↔
      ∃ t, h.accepts declared t ∧ f = ⟨t :: g.stack, g.locals⟩ := by
  simp only [popAccepted, bind_eq_ok, Prod.exists, pop_eq_ok]
  constructor
  · rintro ⟨t, g', hf, h⟩
    split at h
    · next haccepts =>
      cases h
      exact ⟨t, haccepts, hf⟩
    · simp at h
  · rintro ⟨t, haccepts, hf⟩
    exact ⟨t, g, hf, by simp [haccepts]⟩

theorem popAccepted_cons {declared : DataType} {xs : List SlotType} {ls : List (Option SlotType)}
    (ht : h.accepts declared t) : popAccepted ⟨t :: xs, ls⟩ h declared = .ok ⟨xs, ls⟩ :=
  popAccepted_eq_ok.mpr ⟨t, ht, rfl⟩

/-- Arguments are popped, the last first, if each is accepted. -/
theorem foldlM_popAccepted_eq_ok {params : List DataType} :
    params.foldlM (fun f declared => f.popAccepted h declared) f = .ok g ↔
      ∃ ts, List.Forall₂ (fun p t => h.accepts p t) params ts ∧ f = ⟨ts ++ g.stack, g.locals⟩ := by
  induction params generalizing f with
  | nil =>
      simp only [List.foldlM_nil, List.forall₂_nil_left_iff, exists_eq_left, List.nil_append]
      exact ⟨fun hf => by cases hf; rfl, fun hf => by rw [hf]; rfl⟩
  | cons p params ih =>
      simp only [List.foldlM_cons, bind_eq_ok, popAccepted_eq_ok, ih]
      constructor
      · rintro ⟨_, ⟨t, haccepts, rfl⟩, ts, hts, hstack⟩
        cases hstack
        exact ⟨t :: ts, .cons haccepts hts, rfl⟩
      · rintro ⟨ts, hts, rfl⟩
        cases hts with
        | cons haccepts hts => exact ⟨⟨_, g.locals⟩, ⟨_, haccepts, rfl⟩, _, hts, rfl⟩

/-- The arguments of a call are on the stack, the last one on top. -/
theorem popArgs_eq_ok {params : List DataType} :
    f.popArgs h params = .ok g ↔
      ∃ args, List.Forall₂ (fun p t => h.accepts p t) params args ∧
        f = ⟨args.reverse ++ g.stack, g.locals⟩ := by
  rw [popArgs, foldlM_popAccepted_eq_ok]
  constructor
  · rintro ⟨ts, hts, rfl⟩
    exact ⟨ts.reverse, List.forall₂_reverse_iff.mp (by simpa using hts), by simp⟩
  · rintro ⟨args, hargs, rfl⟩
    exact ⟨args.reverse, List.forall₂_reverse_iff.mpr hargs, rfl⟩

/-- Arguments that are accepted are popped. -/
theorem popArgs_append {params : List DataType} {args xs : List SlotType} {ls : List (Option SlotType)}
    (hargs : List.Forall₂ (fun p t => h.accepts p t) params args) :
    popArgs ⟨args.reverse ++ xs, ls⟩ h params = .ok ⟨xs, ls⟩ :=
  popArgs_eq_ok.mpr ⟨args, hargs, rfl⟩

/-! ## Joins of frame types -/

/-- Types that join do so one by one. -/
theorem mapM_join_eq_some {pairs : List (SlotType × SlotType)} {zs : List SlotType}
    (hzs : pairs.mapM (fun (x, y) => h.join x y) = some zs) :
    List.Forall₂ (fun p z => h.join p.1 p.2 = some z) pairs zs := by
  induction pairs generalizing zs with
  | nil =>
      simp only [List.mapM_nil, Option.pure_def, Option.some.injEq] at hzs
      exact hzs ▸ .nil
  | cons p pairs ih =>
      simp only [List.mapM_cons, Option.pure_def, Option.bind_eq_bind, Option.bind_eq_some_iff,
        Option.some.injEq] at hzs
      obtain ⟨z, hz, zs', hzs', rfl⟩ := hzs
      exact .cons hz (ih hzs')

/-- Stacks join from the top on. -/
theorem joinStacks_cons (h : Hierarchy) (x y : SlotType) (xs ys : List SlotType) :
    joinStacks h (x :: xs) (y :: ys) = (h.join x y).bind fun z => (joinStacks h xs ys).map (z :: ·) := by
  unfold joinStacks
  by_cases hlength : xs.length = ys.length
  · simp only [List.length_cons, hlength, if_true, List.zip_cons_cons, List.mapM_cons]
    rcases h.join x y with _ | z
    · rfl
    · rw [Option.bind_some, Option.map_eq_bind]
      rfl
  · simp only [List.length_cons, Nat.add_right_cancel_iff, hlength, if_false]
    cases h.join x y <;> rfl

/-- Stacks have a join if they are of one depth and have one slot by slot. -/
theorem joinStacks_eq_some {xs ys zs : List SlotType} (hzs : joinStacks h xs ys = some zs) :
    xs.length = ys.length ∧ zs.length = xs.length ∧
      ∀ (n : Nat) x y z, xs[n]? = some x → ys[n]? = some y → zs[n]? = some z →
        h.join x y = some z := by
  rw [joinStacks] at hzs
  split at hzs
  · next hlength =>
    have hpairs := mapM_join_eq_some hzs
    refine ⟨hlength, ?_, ?_⟩
    · rw [← hpairs.length_eq, List.length_zip, hlength, Nat.min_self]
    · intro n x y z hx hy hz
      have hxy : (xs.zip ys)[n]? = some (x, y) := by
        rw [List.getElem?_zip_eq_some]
        exact ⟨hx, hy⟩
      obtain ⟨hn, hxy⟩ := List.getElem?_eq_some_iff.mp hxy
      obtain ⟨hn', hz⟩ := List.getElem?_eq_some_iff.mp hz
      have := hpairs.get hn hn'
      simpa [List.get_eq_getElem, hxy, hz] using this
  · simp at hzs

/-- Joined locals are as many as the longer ones. -/
theorem length_joinLocals (xs ys : List (Option SlotType)) :
    (joinLocals h xs ys).length = max xs.length ys.length := by
  simp only [joinLocals, List.length_zipWith, List.length_append, List.length_replicate]
  omega

/-- A local that is set in the join is set on both sides. -/
theorem joinLocals_eq_some {xs ys : List (Option SlotType)} {n : Nat} {z : SlotType}
    (hz : (joinLocals h xs ys)[n]? = some (some z)) :
    ∃ x y, xs[n]? = some (some x) ∧ ys[n]? = some (some y) ∧ h.join x y = some z := by
  have pad : ∀ {l : List (Option SlotType)} {m : Nat} {x : SlotType},
      (l ++ List.replicate m none)[n]? = some (some x) → l[n]? = some (some x) := by
    intro l m x hx
    rw [List.getElem?_append] at hx
    split at hx
    · exact hx
    · simp [List.getElem?_replicate] at hx
  simp only [joinLocals, List.getElem?_zipWith_eq_some] at hz
  obtain ⟨x, y, hx, hy, hjoin⟩ := hz
  simp only [Option.bind_eq_bind, Option.bind_eq_some_iff] at hjoin
  obtain ⟨x, rfl, y, rfl, hjoin⟩ := hjoin
  exact ⟨x, y, pad hx, pad hy, hjoin⟩

/-- Frame types have a join if their stacks do. -/
theorem join_eq_some {k : FrameType} (hk : f.join h g = some k) :
    joinStacks h f.stack g.stack = some k.stack ∧ k.locals = joinLocals h f.locals g.locals := by
  obtain ⟨stack, hstack, rfl⟩ := Option.map_eq_some_iff.mp hk
  exact ⟨hstack, rfl⟩

end FrameType

/-! ## Instructions -/

namespace Checker

/-- An instruction that a frame type admits: where control goes, and the frame type there. -/
inductive HasEffect (c : Checker) : FrameType → Instr UInt16 → Flow → FrameType → Prop
  | pushNull {xs : List SlotType} {ls : List (Option SlotType)} :
      HasEffect c ⟨xs, ls⟩ (.bare .pushNull) .next ⟨.null :: xs, ls⟩
  | dup {x : SlotType} {xs : List SlotType} {ls : List (Option SlotType)} :
      HasEffect c ⟨x :: xs, ls⟩ (.bare .dup) .next ⟨x :: x :: xs, ls⟩
  | pop {x : SlotType} {xs : List SlotType} {ls : List (Option SlotType)} :
      HasEffect c ⟨x :: xs, ls⟩ (.bare .pop) .next ⟨xs, ls⟩
  | swap {x y : SlotType} {xs : List SlotType} {ls : List (Option SlotType)} :
      HasEffect c ⟨x :: y :: xs, ls⟩ (.bare .swap) .next ⟨y :: x :: xs, ls⟩
  | arrayStore {value index : SlotType} {name : String} {type : DataType} {xs : List SlotType}
      {ls : List (Option SlotType)} :
      value.isReference → c.hierarchy.accepts .int index → name.toList.head? = some '[' →
      dataTypeOf name = .ok type → c.hierarchy.accepts type.item value →
      HasEffect c ⟨value :: index :: .ref name :: xs, ls⟩ (.bare .arrayStore) .next ⟨xs, ls⟩
  | returnVoid {xs : List SlotType} {ls : List (Option SlotType)} :
      c.result = none → HasEffect c ⟨xs, ls⟩ (.bare .returnVoid) .exit ⟨xs, ls⟩
  | returnValue {result : DataType} {x : SlotType} {xs : List SlotType} {ls : List (Option SlotType)} :
      c.result = some result → c.hierarchy.accepts result x →
      HasEffect c ⟨x :: xs, ls⟩ (.bare .returnValue) .exit ⟨xs, ls⟩
  | load {slot : UInt8} {x : SlotType} {xs : List SlotType} {ls : List (Option SlotType)} :
      ls[slot.toNat]? = some (some x) → HasEffect c ⟨xs, ls⟩ (.onLocal .load slot) .next ⟨x :: xs, ls⟩
  | store {slot : UInt8} {x : SlotType} {xs : List SlotType} {ls : List (Option SlotType)} :
      HasEffect c ⟨x :: xs, ls⟩ (.onLocal .store slot) .next (FrameType.setLocal ⟨xs, ls⟩ slot.toNat x)
  | pushInt {n : Int32} {xs : List SlotType} {ls : List (Option SlotType)} :
      HasEffect c ⟨xs, ls⟩ (.pushInt n) .next ⟨.int :: xs, ls⟩
  | loadConst {k : UInt16} {constant : Constant} {x : SlotType} {xs : List SlotType} {ls : List (Option SlotType)} :
      c.pool.get k = .ok constant → loadType constant = .ok x →
      HasEffect c ⟨xs, ls⟩ (.onConst .loadConst k) .next ⟨x :: xs, ls⟩
  | getField {k : UInt16} {m : Member} {type : DataType} {target : SlotType} {xs : List SlotType}
      {ls : List (Option SlotType)} :
      c.pool.fieldAt k = .ok m → dataTypeOf m.descriptor = .ok type →
      c.hierarchy.accepts (.object m.owner) target →
      HasEffect c ⟨target :: xs, ls⟩ (.onConst .getField k) .next ⟨.of type :: xs, ls⟩
  | putField {k : UInt16} {m : Member} {type : DataType} {value target : SlotType} {xs : List SlotType}
      {ls : List (Option SlotType)} :
      c.pool.fieldAt k = .ok m → dataTypeOf m.descriptor = .ok type → c.hierarchy.accepts type value →
      c.hierarchy.accepts (.object m.owner) target →
      HasEffect c ⟨value :: target :: xs, ls⟩ (.onConst .putField k) .next ⟨xs, ls⟩
  | getStatic {k : UInt16} {m : Member} {type : DataType} {xs : List SlotType} {ls : List (Option SlotType)} :
      c.pool.fieldAt k = .ok m → dataTypeOf m.descriptor = .ok type →
      HasEffect c ⟨xs, ls⟩ (.onConst .getStatic k) .next ⟨.of type :: xs, ls⟩
  | invokeVirtual {k : UInt16} {m : Member} {signature : Signature} {args : List SlotType} {receiver : SlotType}
      {xs : List SlotType} {ls : List (Option SlotType)} :
      c.pool.methodAt k false = .ok m → signatureOf m.descriptor = .ok signature →
      List.Forall₂ (fun type x => c.hierarchy.accepts type x) signature.params args →
      c.hierarchy.accepts (.object m.owner) receiver →
      HasEffect c ⟨args.reverse ++ receiver :: xs, ls⟩ (.onConst .invokeVirtual k) .next
        (pushResult ⟨xs, ls⟩ signature).2
  | invokeInterface {k : UInt16} {m : Member} {signature : Signature} {args : List SlotType} {receiver : SlotType}
      {xs : List SlotType} {ls : List (Option SlotType)} :
      c.pool.methodAt k true = .ok m → signatureOf m.descriptor = .ok signature →
      List.Forall₂ (fun type x => c.hierarchy.accepts type x) signature.params args →
      c.hierarchy.accepts (.object m.owner) receiver →
      HasEffect c ⟨args.reverse ++ receiver :: xs, ls⟩ (.onConst .invokeInterface k) .next
        (pushResult ⟨xs, ls⟩ signature).2
  | invokeStatic {k : UInt16} {m : Member} {signature : Signature} {args : List SlotType} {xs : List SlotType}
      {ls : List (Option SlotType)} :
      c.pool.methodAt k false = .ok m → signatureOf m.descriptor = .ok signature →
      List.Forall₂ (fun type x => c.hierarchy.accepts type x) signature.params args →
      HasEffect c ⟨args.reverse ++ xs, ls⟩ (.onConst .invokeStatic k) .next (pushResult ⟨xs, ls⟩ signature).2
  | invokeSpecial {k : UInt16} {m : Member} {signature : Signature} {args : List SlotType} {xs : List SlotType}
      {ls : List (Option SlotType)} :
      c.pool.methodAt k false = .ok m → signatureOf m.descriptor = .ok signature → m.name = "<init>" →
      List.Forall₂ (fun type x => c.hierarchy.accepts type x) signature.params args →
      HasEffect c ⟨args.reverse ++ .raw m.owner :: xs, ls⟩ (.onConst .invokeSpecial k) .next
        (pushResult (FrameType.constructed ⟨xs, ls⟩ m.owner) signature).2
  | newObject {k : UInt16} {name : String} {xs : List SlotType} {ls : List (Option SlotType)} :
      c.pool.classAt k = .ok name → HasEffect c ⟨xs, ls⟩ (.onConst .newObject k) .next ⟨.raw name :: xs, ls⟩
  | newArray {k : UInt16} {name : String} {element : DataType} {size : SlotType} {xs : List SlotType}
      {ls : List (Option SlotType)} :
      c.pool.classAt k = .ok name → dataTypeOfClass name = .ok element → c.hierarchy.accepts .int size →
      HasEffect c ⟨size :: xs, ls⟩ (.onConst .newArray k) .next ⟨.ref (DataType.array element).className :: xs, ls⟩
  | checkCast {k : UInt16} {name : String} {x : SlotType} {xs : List SlotType} {ls : List (Option SlotType)} :
      c.pool.classAt k = .ok name → x.isReference →
      HasEffect c ⟨x :: xs, ls⟩ (.onConst .checkCast k) .next ⟨.ref name :: xs, ls⟩
  | ifFalse {target : UInt16} {x : SlotType} {xs : List SlotType} {ls : List (Option SlotType)} :
      c.hierarchy.accepts .boolean x →
      HasEffect c ⟨x :: xs, ls⟩ (.jump .ifFalse target) (.branch target) ⟨xs, ls⟩
  | goto {target : UInt16} {xs : List SlotType} {ls : List (Option SlotType)} :
      HasEffect c ⟨xs, ls⟩ (.jump .goto target) (.jump target) ⟨xs, ls⟩

variable {c : Checker} {f g : FrameType} {flow : Flow} {k : UInt16} {s : Signature}

/-- Control goes on behind a call. -/
theorem pushResult_eq_iff : pushResult f s = (flow, g) ↔ flow = .next ∧ g = (pushResult f s).2 := by
  unfold pushResult
  split <;> simp [eq_comm]

/-- The result of a call goes on the stack, if there is one. -/
theorem pushResult_cases (f : FrameType) (s : Signature) :
    s.result = none ∧ (pushResult f s).2 = f ∨
      ∃ type, s.result = some type ∧ (pushResult f s).2 = f.push (.of type) := by
  unfold pushResult
  split
  · next type hresult => exact .inr ⟨type, hresult, rfl⟩
  · next hresult => exact .inl ⟨hresult, rfl⟩

/-- A bare instruction has the effect of the table, if it passes. -/
theorem stepBare_hasEffect {op : BareOp} (h : c.stepBare f op = .ok (flow, g)) : c.HasEffect f (.bare op) flow g := by
  cases op
  case returnVoid =>
    rw [stepBare] at h
    split at h
    · next hresult =>
      cases h
      exact .returnVoid hresult
    · simp at h
  case returnValue =>
    rw [stepBare] at h
    split at h
    · simp at h
    · next result hresult =>
      obtain ⟨g', hg', h⟩ := bind_eq_ok.mp h
      cases h
      obtain ⟨t, haccepts, rfl⟩ := FrameType.popAccepted_eq_ok.mp hg'
      exact .returnValue hresult haccepts
  all_goals
    simp only [stepBare, bind_eq_ok, Prod.exists, FrameType.pop_eq_ok, FrameType.popReference_eq_ok,
      FrameType.popAccepted_eq_ok, Except.ok.injEq, Prod.mk.injEq] at h
  case pushNull =>
    obtain ⟨rfl, rfl⟩ := h
    exact .pushNull
  case dup =>
    obtain ⟨x, f', rfl, rfl, rfl⟩ := h
    exact .dup
  case pop =>
    obtain ⟨x, f', rfl, rfl, rfl⟩ := h
    exact .pop
  case swap =>
    obtain ⟨x, f', rfl, y, ⟨xs, ls⟩, hf', rfl, rfl⟩ := h
    cases hf'
    exact .swap
  case arrayStore =>
    obtain ⟨value, _, ⟨hvalue, rfl⟩, _, ⟨index, hindex, rfl⟩, array, f', rfl, h⟩ := h
    split at h
    · next name f' harray =>
      cases harray
      split at h
      · next hbracket =>
        obtain ⟨type, htype, h⟩ := bind_eq_ok.mp h
        split at h
        · next haccepts =>
          cases h
          exact .arrayStore hvalue hindex hbracket (ofUnit_eq_ok.mp htype) haccepts
        · simp at h
      · simp at h
    · simp at h

theorem stepLocal_hasEffect {op : LocalOp} {slot : UInt8} (h : stepLocal f slot op = .ok (flow, g)) :
    c.HasEffect f (.onLocal op slot) flow g := by
  cases op
  case load =>
    rw [stepLocal] at h
    split at h
    · next x hx =>
      cases h
      exact .load hx
    · simp at h
  case store =>
    simp only [stepLocal, bind_eq_ok, Prod.exists, FrameType.pop_eq_ok, Except.ok.injEq, Prod.mk.injEq] at h
    obtain ⟨x, f', rfl, rfl, rfl⟩ := h
    exact .store

/-- A constructor is called on an object of its class whose constructor has not run. -/
theorem stepInvokeSpecial_hasEffect (h : c.stepInvokeSpecial f k = .ok (flow, g)) :
    c.HasEffect f (.onConst .invokeSpecial k) flow g := by
  simp only [stepInvokeSpecial, bind_eq_ok, ofUnit_eq_ok, FrameType.popArgs_eq_ok] at h
  obtain ⟨m, hm, signature, hsignature, f', ⟨args, hargs, rfl⟩, h⟩ := h
  split at h
  · simp at h
  · next hname =>
    simp only [bind_eq_ok, Prod.exists, FrameType.pop_eq_ok] at h
    obtain ⟨x, ⟨xs, ls⟩, rfl, h⟩ := h
    split at h
    · next hx =>
      subst hx
      obtain ⟨rfl, rfl⟩ := pushResult_eq_iff.mp (Except.ok.inj h)
      exact .invokeSpecial hm hsignature (Decidable.not_not.mp hname) hargs
    · simp at h

theorem stepConst_hasEffect {op : ConstOp} (h : c.stepConst f k op = .ok (flow, g)) :
    c.HasEffect f (.onConst op k) flow g := by
  cases op
  case invokeSpecial => exact stepInvokeSpecial_hasEffect h
  all_goals
    simp only [stepConst, stepInvoke, stepInvokeStatic, bind_eq_ok, ofUnit_eq_ok, Prod.exists,
      FrameType.popArgs_eq_ok, FrameType.popAccepted_eq_ok, FrameType.popReference_eq_ok, Except.ok.injEq,
      Prod.mk.injEq, pushResult_eq_iff] at h
  case loadConst =>
    obtain ⟨constant, hconstant, x, hx, rfl, rfl⟩ := h
    exact .loadConst hconstant hx
  case getField =>
    obtain ⟨m, hm, type, htype, f', ⟨target, htarget, rfl⟩, rfl, rfl⟩ := h
    exact .getField hm htype htarget
  case putField =>
    obtain ⟨m, hm, type, htype, f', ⟨value, hvalue, rfl⟩, f'', ⟨target, htarget, rfl⟩, rfl, rfl⟩ := h
    exact .putField hm htype hvalue htarget
  case getStatic =>
    obtain ⟨m, hm, type, htype, rfl, rfl⟩ := h
    exact .getStatic hm htype
  case invokeVirtual =>
    obtain ⟨m, hm, signature, hsignature, _, ⟨args, hargs, rfl⟩, ⟨xs, ls⟩, ⟨receiver, hreceiver, rfl⟩, rfl, rfl⟩ := h
    exact .invokeVirtual hm hsignature hargs hreceiver
  case invokeInterface =>
    obtain ⟨m, hm, signature, hsignature, _, ⟨args, hargs, rfl⟩, ⟨xs, ls⟩, ⟨receiver, hreceiver, rfl⟩, rfl, rfl⟩ := h
    exact .invokeInterface hm hsignature hargs hreceiver
  case invokeStatic =>
    obtain ⟨m, hm, signature, hsignature, ⟨xs, ls⟩, ⟨args, hargs, rfl⟩, rfl, rfl⟩ := h
    exact .invokeStatic hm hsignature hargs
  case newObject =>
    obtain ⟨name, hname, rfl, rfl⟩ := h
    exact .newObject hname
  case newArray =>
    obtain ⟨name, hname, element, helement, f', ⟨size, hsize, rfl⟩, rfl, rfl⟩ := h
    exact .newArray hname helement hsize
  case checkCast =>
    obtain ⟨name, hname, x, f', ⟨hx, rfl⟩, rfl, rfl⟩ := h
    exact .checkCast hname hx

/-- An instruction that passes has the effect of the table. -/
theorem hasEffect_of_step {i : Instr UInt16} (h : c.step f i = .ok (flow, g)) : c.HasEffect f i flow g := by
  rcases i with op | ⟨op, slot⟩ | n | ⟨op, k⟩ | ⟨op, target⟩
  · exact stepBare_hasEffect h
  · exact stepLocal_hasEffect h
  · cases h
    exact .pushInt
  · exact stepConst_hasEffect h
  · cases op
    case goto =>
      cases h
      exact .goto
    case ifFalse =>
      simp only [step, bind_eq_ok, FrameType.popAccepted_eq_ok, Except.ok.injEq, Prod.mk.injEq] at h
      obtain ⟨f', ⟨x, hx, rfl⟩, rfl, rfl⟩ := h
      exact .ifFalse hx

/-- An instruction with an effect in the table passes. -/
theorem HasEffect.step {i : Instr UInt16} (h : c.HasEffect f i flow g) : c.step f i = .ok (flow, g) := by
  cases h with
  | pushNull | dup | pop | swap | store | pushInt | goto => rfl
  | arrayStore hvalue hindex hbracket htype haccepts =>
      simp only [Checker.step, stepBare, FrameType.popReference_cons hvalue, FrameType.popAccepted_cons hindex,
        FrameType.pop, ok_bind, hbracket, htype, ofUnit, haccepts, if_true]
  | returnVoid hresult => simp only [Checker.step, stepBare, hresult]
  | returnValue hresult haccepts =>
      simp only [Checker.step, stepBare, hresult, FrameType.popAccepted_cons haccepts, ok_bind]
  | load hx =>
      simp only [Checker.step, stepLocal, hx]
      rfl
  | loadConst hconstant hx =>
      simp only [Checker.step, stepConst, hconstant, ofUnit, ok_bind, hx]
      rfl
  | getField hm htype htarget =>
      simp only [Checker.step, stepConst, hm, htype, ofUnit, ok_bind, FrameType.popAccepted_cons htarget]
      rfl
  | putField hm htype hvalue htarget =>
      simp only [Checker.step, stepConst, hm, htype, ofUnit, ok_bind, FrameType.popAccepted_cons hvalue,
        FrameType.popAccepted_cons htarget]
  | getStatic hm htype =>
      simp only [Checker.step, stepConst, hm, htype, ofUnit, ok_bind]
      rfl
  | invokeVirtual hm hsignature hargs hreceiver | invokeInterface hm hsignature hargs hreceiver =>
      simp only [Checker.step, stepConst, stepInvoke, hm, hsignature, ofUnit, ok_bind, FrameType.popArgs_append hargs,
        FrameType.popAccepted_cons hreceiver, Except.ok.injEq]
      exact pushResult_eq_iff.mpr ⟨rfl, rfl⟩
  | invokeStatic hm hsignature hargs =>
      simp only [Checker.step, stepConst, stepInvokeStatic, hm, hsignature, ofUnit, ok_bind,
        FrameType.popArgs_append hargs, Except.ok.injEq]
      exact pushResult_eq_iff.mpr ⟨rfl, rfl⟩
  | invokeSpecial hm hsignature hname hargs =>
      simp only [Checker.step, stepConst, stepInvokeSpecial, hm, hsignature, ofUnit, ok_bind, hname,
        FrameType.popArgs_append hargs, FrameType.pop, ne_eq, not_true, if_false, if_true, Except.ok.injEq]
      exact pushResult_eq_iff.mpr ⟨rfl, rfl⟩
  | newObject hname =>
      simp only [Checker.step, stepConst, hname, ofUnit, ok_bind]
      rfl
  | newArray hname helement hsize =>
      simp only [Checker.step, stepConst, hname, helement, ofUnit, ok_bind, FrameType.popAccepted_cons hsize]
      rfl
  | checkCast hname hx =>
      simp only [Checker.step, stepConst, hname, ofUnit, ok_bind, FrameType.popReference_cons hx]
      rfl
  | ifFalse hx => simp only [Checker.step, FrameType.popAccepted_cons hx, ok_bind]

/-- **The instructions that a frame type admits** are those whose effect is listed. -/
theorem step_eq_ok_iff {i : Instr UInt16} : c.step f i = .ok (flow, g) ↔ c.HasEffect f i flow g :=
  ⟨hasEffect_of_step, HasEffect.step⟩

end Checker

end Routecraft.Bytecode
