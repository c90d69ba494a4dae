import Routecraft.Proofs.Execution.Alike
import Routecraft.Proofs.Execution.Straight

/-!
# Instructions that do alike

On twin stores, instructions do alike, unless they write to an object, or call what is not known to do alike.

* `Program.Pure`: programs whose code of the application is functions of its arguments.
* `Alike.callStatic`, `Alike.invokeHost`, `Alike.invoke`: calls.
* `Instr.IsMild`, `Alike.effect`: single instructions.
* `Alike.run_effects`: runs through straight code.
-/

namespace Routecraft.Machine

open Bytecode Store

variable {S s s' : Store} {σ : Renaming} {x : Nat} {args : List Value}

/-! ## Static members -/

/-- Renamed items can be taken in pairs just as before. -/
theorem pairUp_map (items : List Value) :
    pairUp (items.map (Value.rename σ)) =
      (pairUp items).map (·.map fun e => (e.1.rename σ, e.2.rename σ)) := by
  induction items using pairUp.induct with
  | case1 => rfl
  | case2 v => rfl
  | case3 k v rest ih =>
      rw [List.map_cons, List.map_cons, pairUp, pairUp, ih]
      cases pairUp rest <;> rfl

/-- What is taken in pairs was there before. -/
theorem has_of_pairUp {items : List Value} {entries : List (Value × Value)} (h : pairUp items = some entries)
    (hitems : ∀ v ∈ items, s.Has v) : ∀ e ∈ entries, s.Has e.1 ∧ s.Has e.2 := by
  induction items using pairUp.induct generalizing entries with
  | case1 =>
      cases h
      exact List.forall_mem_nil _
  | case2 v => cases h
  | case3 k v rest ih =>
      rw [pairUp, Option.map_eq_some_iff] at h
      obtain ⟨es, hes, rfl⟩ := h
      simp only [List.forall_mem_cons] at hitems ⊢
      exact ⟨⟨hitems.1, hitems.2.1⟩, ih hes hitems.2.2⟩

namespace Alike

/-- Calls on the framework are alike on both stores. -/
theorem callFramework (h : Twins S σ x s s') (owner method : String) (hargs : ∀ v ∈ args, s.Has v) :
    AlikeValue S σ x s s' (callFramework owner method args)
      (callFramework owner method (args.map (Value.rename σ))) := by
  unfold Machine.callFramework
  split
  case h_1 v =>
    simp only [List.map]
    have hv : s.Has v := hargs v List.mem_cons_self
    cases v with
    | null => exact plain h rfl
    | optional content => cases content <;> exact value h hv rfl
    | _ => exact value h hv rfl
  case h_2 items =>
    simp only [List.map]
    refine bind (asArray h) fun vs t t' ht _ hvs => ?_
    exact value ht (has_list.mpr hvs) (Value.rename_list vs)
  case h_3 items =>
    simp only [List.map]
    refine bind (asArray h) fun vs t t' ht _ hvs => ?_
    rw [pairUp_map]
    rcases hentries : pairUp vs with _ | entries
    · exact throw ht _
    · exact value ht (has_map.mpr (has_of_pairUp hentries hvs)) (Value.rename_map entries)
  case h_4 name =>
    simp only [List.map]
    exact bind (asText h) fun _ t t' ht _ _ => plain ht rfl
  case h_5 base types =>
    simp only [List.map]
    refine bind (asClass h) fun name t t' ht hle _ => ?_
    refine bind (asArray ht) fun vs u u' hu _ hvs => ?_
    exact value hu (has_reified.mpr hvs) (Value.rename_reified name vs)
  case h_6 _ v _ =>
    simp only [List.map]
    split
    · exact value h (hargs v List.mem_cons_self) rfl
    · exact throw h _
  case h_7 =>
    split <;> simp_all [List.map_eq_cons_iff]
    exact throw h _

end Alike

/-! ## Calls -/

/-- A program whose code of the application is functions of the arguments, for stores that are later than `S`. -/
structure Program.Pure (p : Program) (S : Store) : Prop where
  stubs : ∀ stub ∈ p.stubs, ∀ m ∈ stub.methods, HostCode.Pure S m.2
  statics : ∀ e ∈ p.statics, HostCode.Pure S e.2

/-- A program that is pure for a store is so for one that has grown. -/
theorem Program.Pure.mono {p : Program} (h : p.Pure S) (hle : S.Below s) : p.Pure s where
  stubs stub hstub m hm := (h.stubs stub hstub m hm).mono hle
  statics e he := (h.statics e he).mono hle

namespace Alike

variable {p : Program} {v : Value} {name : String}

/-- Static calls of a pure program are alike on both stores. -/
theorem callStatic (h : Twins S σ x s s') (hp : p.Pure S) (owner name : String) (hargs : ∀ v ∈ args, s.Has v) :
    AlikeValue S σ x s s' (p.callStatic owner name args) (p.callStatic owner name (args.map (Value.rename σ))) := by
  unfold Program.callStatic
  split
  · next c hc => exact code h (hp.statics _ (mem_of_lookup hc)) hargs
  · exact callFramework h owner name hargs

/-- A method of a host object that a value is a handle of. -/
theorem invokeHost (h : Twins S σ x s s') (hp : p.Pure S) (className : String) {handle : Nat}
    (hname : ∀ object, s.handles[handle]? = some object →
      name ∉ statefulNames ∨ object = .context x ∨ ∃ number, object = .stub number)
    (hargs : ∀ v ∈ args, s.Has v) :
    AlikeValue S σ x s s' (p.invoke (.host className handle) name args)
      (p.invoke (.host className (σ.handle handle)) name (args.map (Value.rename σ))) := by
  rw [Program.invoke_host, Program.invoke_host]
  refine get ?_
  unfold Store.hostObject?
  rw [h.renames.handle handle]
  rcases hobject : s.handles[handle]? with _ | object
  · exact throw h _
  · exact hostCall h hp.stubs (fun v hv => h.closed v (.object hobject hv)) (hname object hobject) hargs

/-- **A method whose name is that of none in a unit**, and that has nothing to do with responses and routes. -/
theorem invoke (h : Twins S σ x s s') (hp : p.Pure S) (hquiet : p.Quiet name) (hname : name ∉ statefulNames)
    (hv : s.Has v) (hargs : ∀ v ∈ args, s.Has v) :
    AlikeValue S σ x s s' (p.invoke v name args) (p.invoke (v.rename σ) name (args.map (Value.rename σ))) := by
  cases v with
  | host className handle => exact invokeHost h hp className (fun _ _ => .inl hname) hargs
  | object unit number =>
      obtain ⟨e, he⟩ := hquiet.invoke_object unit
      dsimp only [Value.rename]
      rw [he, he]
      exact throw h e
  | boxed kind content =>
      unfold Program.invoke Program.call
      dsimp only [Value.rename]
      split
      · exact value h hv rfl
      · exact throw h _
  | optional content => cases content <;> exact throw h _
  | _ => exact throw h _

end Alike

/-! ## Operands -/

def Operands.rename (σ : Renaming) (o : Operands) : Operands :=
  ⟨o.locals.map (Value.rename σ), o.stack.map (Value.rename σ)⟩

theorem Operands.rename_mk (ls : Array Value) (st : List Value) :
    (⟨ls, st⟩ : Operands).rename σ = ⟨ls.map (Value.rename σ), st.map (Value.rename σ)⟩ := rfl

@[simp] theorem Operands.rename_receive (o : Operands) (keeps : Bool) (v : Value) :
    (o.receive keeps v).rename σ = (o.rename σ).receive keeps (v.rename σ) := by
  cases keeps <;> rfl

/-- The missing locals are null in both stores. -/
theorem Operands.rename_store (o : Operands) (slot : UInt8) (v : Value) :
    (o.store slot v).rename σ = (o.rename σ).store slot (v.rename σ) := by
  simp [store, rename, Value.rename]

/-- There is all that operands refer to. -/
structure Store.HasOperands (s : Store) (o : Operands) : Prop where
  locals : ∀ v ∈ o.locals, s.Has v
  stack : ∀ v ∈ o.stack, s.Has v

namespace Store.HasOperands

variable {o : Operands} {v : Value} {t : Store}

/-- Operands that a store has are there also when it has grown. -/
theorem mono (h : s.HasOperands o) (hle : s.Below t) : t.HasOperands o :=
  ⟨fun v hv => (h.locals v hv).mono hle, fun v hv => (h.stack v hv).mono hle⟩

theorem push (h : s.HasOperands o) (hv : s.Has v) : s.HasOperands (o.push v) :=
  ⟨h.locals, List.forall_mem_cons.mpr ⟨hv, h.stack⟩⟩

theorem receive (h : s.HasOperands o) (hv : s.Has v) (keeps : Bool) : s.HasOperands (o.receive keeps v) := by
  cases keeps
  · exact h
  · exact h.push hv

theorem store (h : s.HasOperands o) (hv : s.Has v) (slot : UInt8) : s.HasOperands (o.store slot v) := by
  refine ⟨fun w hw => ?_, h.stack⟩
  rcases Array.mem_or_eq_of_mem_setIfInBounds hw with hw | rfl
  · rcases Array.mem_append.mp hw with hw | hw
    · exact h.locals w hw
    · obtain ⟨-, rfl⟩ := Array.mem_replicate.mp hw
      exact has_of_refs rfl
  · exact hv

end Store.HasOperands

/-- Actions that come to the same operands, renamed. -/
abbrev AlikeOperands (S : Store) (σ : Renaming) (x : Nat) (s s' : Store) (a b : Action Operands) : Prop :=
  Alike S σ x s s' (Operands.rename σ) (fun o t => t.HasOperands o) a b

namespace Alike

variable {p : Program} {v : Value} {name : String} {o : Operands}

/-- The tops of operands that correspond do so too. -/
theorem top (h : Twins S σ x s s') (ho : s.HasOperands o) : AlikeValue S σ x s s' o.top (o.rename σ).top := by
  obtain ⟨locals, _ | ⟨v, stack⟩⟩ := o
  · exact throw h _
  · exact value h (ho.stack v List.mem_cons_self) rfl

/-- What is popped from operands that correspond does so too. -/
theorem pop (h : Twins S σ x s s') (ho : s.HasOperands o) :
    Alike S σ x s s' (Prod.map (Value.rename σ) (Operands.rename σ)) (fun r t => t.Has r.1 ∧ t.HasOperands r.2)
      o.pop (o.rename σ).pop := by
  obtain ⟨locals, _ | ⟨v, stack⟩⟩ := o
  · exact throw h _
  · have hstack := List.forall_mem_cons.mp ho.stack
    exact pure (r := Prod.map (Value.rename σ) (Operands.rename σ))
      (E := fun r t => t.Has r.1 ∧ t.HasOperands r.2) h ⟨hstack.1, ho.locals, hstack.2⟩

theorem popArgs (h : Twins S σ x s s') (ho : s.HasOperands o) (count : Nat) :
    Alike S σ x s s' (Prod.map (List.map (Value.rename σ)) (Operands.rename σ))
      (fun r t => (∀ v ∈ r.1, t.Has v) ∧ t.HasOperands r.2) (o.popArgs count) ((o.rename σ).popArgs count) := by
  unfold Operands.popArgs
  have hlength : (o.rename σ).stack.length = o.stack.length := List.length_map _
  rw [hlength]
  split
  · have hargs : ((o.rename σ).stack.take count).reverse = (o.stack.take count).reverse.map (Value.rename σ) := by
      rw [List.map_reverse, List.map_take]
      rfl
    have hrest : (o.rename σ).stack.drop count = (o.stack.drop count).map (Value.rename σ) := List.map_drop.symm
    rw [hargs, hrest]
    refine pure (r := Prod.map (List.map (Value.rename σ)) (Operands.rename σ))
      (E := fun r t => (∀ v ∈ r.1, t.Has v) ∧ t.HasOperands r.2) h ⟨fun v hv => ?_, ho.locals, fun v hv => ?_⟩
    · exact ho.stack v (List.mem_of_mem_take (List.mem_reverse.mp hv))
    · exact ho.stack v (List.mem_of_mem_drop hv)
  · exact throw h _

theorem load (h : Twins S σ x s s') (ho : s.HasOperands o) (slot : UInt8) :
    AlikeValue S σ x s s' (o.load slot) ((o.rename σ).load slot) := by
  unfold Operands.load
  have hget : (o.rename σ).locals[slot.toNat]? = (o.locals[slot.toNat]?).map (Value.rename σ) := Array.getElem?_map
  rw [hget]
  rcases hlocal : o.locals[slot.toNat]? with _ | v
  · exact throw h _
  · exact value h (ho.locals v (Array.mem_of_getElem? hlocal)) rfl

theorem operands (h : Twins S σ x s s') (ho : s.HasOperands o) :
    AlikeOperands S σ x s s' (Pure.pure o) (Pure.pure (o.rename σ)) := pure h ho

theorem push (h : Twins S σ x s s') (ho : s.HasOperands o) (hv : s.Has v) :
    AlikeOperands S σ x s s' (Pure.pure (o.push v)) (Pure.pure ((o.rename σ).push (v.rename σ))) :=
  operands h (ho.push hv)

theorem receive (h : Twins S σ x s s') (ho : s.HasOperands o) (hv : s.Has v) (keeps : Bool) :
    AlikeOperands S σ x s s' (Pure.pure (o.receive keeps v))
      (Pure.pure ((o.rename σ).receive keeps (v.rename σ))) := by
  rw [← Operands.rename_receive]
  exact operands h (ho.receive hv keeps)

/-- A constant is the same value on both stores. -/
theorem constantValue (h : Twins S σ x s s') (c : Constant) :
    Alike S σ x s s' (Value.rename σ) (fun v _ => v.refs = []) (constantValue c) (constantValue c) := by
  cases c <;> first
    | exact pure (r := Value.rename σ) (E := fun v _ => v.refs = []) h rfl
    | exact throw h _

/-- A call, of a method on an object or a static one, by its signature. -/
theorem callWith (h : Twins S σ x s s') (hp : p.Pure S) (ho : s.HasOperands o) (signature : Signature)
    (owner : String) {isStatic : Bool} (hname : isStatic = false → p.Quiet name ∧ name ∉ statefulNames) :
    AlikeOperands S σ x s s' (p.callWith signature owner name isStatic o)
      (p.callWith signature owner name isStatic (o.rename σ)) := by
  unfold Program.callWith
  refine bind (popArgs h ho _) fun ⟨args, o⟩ t t' ht _ hargs => ?_
  dsimp only [Prod.map]
  cases isStatic with
  | true =>
      refine bind (callStatic ht hp owner name hargs.1) fun v u u' hu hle hv => ?_
      exact receive hu (hargs.2.mono hle) hv _
  | false =>
      refine bind (pop ht hargs.2) fun ⟨receiver, o⟩ u u' hu hle hreceiver => ?_
      refine bind (invoke hu hp (hname rfl).1 (hname rfl).2 hreceiver.1 fun v hv => (hargs.1 v hv).mono hle)
        fun v w w' hw hle hv => ?_
      exact receive hw (hreceiver.2.mono hle) hv _

end Alike

/-! ## Instructions -/

/-- An instruction that writes neither to an object nor to an array, and calls on objects only what no unit has and has
nothing to do with responses and routes. -/
structure Instr.IsMild (p : Program) (i : Instr Constant) : Prop where
  arrays : i ≠ .arrayStore
  objects : ∀ c, i ≠ .onConst .putField c ∧ i ≠ .onConst .newObject c
  calls : ∀ m, i.callee? = some m → p.Quiet m.name ∧ m.name ∉ statefulNames

namespace Alike

variable {p : Program} {o : Operands} {i : Instr Constant}

/-- An array is made alike, each behind those that are there. -/
theorem newArray (h : Twins S σ x s s') (className : String) (size : Nat) :
    Alike S σ x s s' (Value.rename σ) (fun v t => v = .array className s.arrays.size ∧ t.Has v)
      (modifyGet (·.newArray className size) : Action Value)
      (modifyGet (·.newArray className size) : Action Value) where
  outcome := by
    show Except.ok (Value.array className s'.arrays.size) = .ok (.array className (σ.array s.arrays.size))
    rw [h.renames.array_size]
  twins := h.newArray className size
  below := s.below_newArray className size
  result w hw := by
    cases hw
    refine ⟨rfl, fun ref href => ?_⟩
    obtain rfl := List.mem_singleton.mp href
    simp [Resolves, Store.newArray]

/-- Mild instructions with a constant are alike on both stores. -/
theorem constEffect (h : Twins S σ x s s') (hp : p.Pure S) {op : ConstOp} {c : Constant}
    (hi : Instr.IsMild p (.onConst op c)) (ho : s.HasOperands o) :
    AlikeOperands S σ x s s' (p.constEffect op c o) (p.constEffect op c (o.rename σ)) := by
  unfold Program.constEffect
  split
  case h_1 =>
    exact bind (constantValue h c) fun v t t' ht hle hv => push ht (ho.mono hle) (has_of_refs hv)
  case h_2 m =>
    refine bind (pop h ho) fun ⟨target, o⟩ t t' ht _ htarget => ?_
    refine bind (asObject ht) fun number u u' hu hle _ => get ?_
    have hfield : u.Has (u.field number m.name) := hu.closed.field number m.name
    dsimp only [id]
    rw [hu.renames.field number m.name]
    exact push hu (htarget.2.mono hle) hfield
  case h_3 m => exact absurd rfl (hi.objects (.field m)).1
  case h_4 m =>
    have hplain : (staticField m.owner m.name).refs = [] := by
      unfold staticField
      split <;> rfl
    have hpush := push h ho (has_of_refs hplain)
    rw [Value.rename_of_refs hplain] at hpush
    exact hpush
  case h_5 unit => exact absurd rfl (hi.objects (.classRef unit)).2
  case h_6 name =>
    refine bind (orUnitFault h _) fun element t t' ht hle _ => ?_
    refine bind (pop ht (ho.mono hle)) fun ⟨size, o⟩ u u' hu _ hsize => ?_
    refine bind (asInt hu) fun n w w' hw hle _ => ?_
    dsimp only [id, Prod.map]
    split
    · exact throw hw _
    · refine bind (newArray hw _ _) fun v y y' hy hle' hv => ?_
      exact push hy ((hsize.2.mono hle).mono hle') hv.2
  case h_7 target =>
    refine bind (top h ho) fun v t t' ht hle hv => ?_
    rw [Value.className?_rename]
    split
    · split
      · exact operands ht (ho.mono hle)
      · exact mismatch ht _
    · exact operands ht (ho.mono hle)
  case h_8 m =>
    refine bind (orUnitFault h _) fun signature t t' ht hle _ => ?_
    exact callWith ht hp (ho.mono hle) signature m.owner (by simp)
  case h_9 m =>
    refine bind (orUnitFault h _) fun signature t t' ht hle _ => ?_
    exact callWith ht hp (ho.mono hle) signature m.owner fun _ => hi.calls m rfl
  case h_10 m =>
    refine bind (orUnitFault h _) fun signature t t' ht hle _ => ?_
    exact callWith ht hp (ho.mono hle) signature m.owner fun _ => hi.calls m rfl
  case h_11 m =>
    refine bind (orUnitFault h _) fun signature t t' ht hle _ => ?_
    exact callWith ht hp (ho.mono hle) signature m.owner fun _ => hi.calls m rfl
  case h_12 => exact operands h ho

/-- **A mild instruction** does alike. -/
theorem effect (h : Twins S σ x s s') (hp : p.Pure S) (hi : Instr.IsMild p i) (ho : s.HasOperands o) :
    AlikeOperands S σ x s s' (p.effect i o) (p.effect i (o.rename σ)) := by
  unfold Program.effect
  split
  case h_1 => exact push h ho (has_of_refs rfl)
  case h_2 => exact absurd rfl hi.arrays
  case h_3 => exact bind (top h ho) fun v t t' ht hle hv => push ht (ho.mono hle) hv
  case h_4 => exact bind (pop h ho) fun r t t' ht _ hr => operands ht hr.2
  case h_5 =>
    refine bind (pop h ho) fun ⟨v, o⟩ t t' ht _ hv => ?_
    refine bind (pop ht hv.2) fun ⟨w, o⟩ u u' hu hle hw => ?_
    exact push hu (hw.2.push (hv.1.mono hle)) hw.1
  case h_6 slot => exact bind (load h ho slot) fun v t t' ht hle hv => push ht (ho.mono hle) hv
  case h_7 slot =>
    refine bind (pop h ho) fun ⟨v, o⟩ t t' ht _ hv => ?_
    have hstore := operands ht (hv.2.store hv.1 slot)
    rw [Operands.rename_store] at hstore
    exact hstore
  case h_8 n => exact push h ho (has_of_refs rfl)
  case h_9 op c => exact constEffect h hp hi ho
  case h_10 => exact operands h ho

end Alike

/-! ## Runs -/

namespace Alike

variable {p : Program} {f : Frame} {labels : Array (Option UInt16)} {pc b : Nat} {is js : List (Instr Constant)}
  {o o' : Operands}

/-- A run that has no steps left. -/
theorem run_zero (h : Twins S σ x s s') (f f' : Frame) :
    AlikeValue S σ x s s' (p.run 0 f []) (p.run 0 f' []) := throw h _

/-- **A run through straight code** does alike if the code does, as far as it is run, and what comes behind it. -/
theorem run_effects (hahead : f.Ahead labels pc (is ++ js)) (hstraight : ∀ i ∈ is, i.isStraight)
    (htame : ∀ i ∈ is, p.Tame False i) (hlimit : b ≤ p.stepLimit)
    (his : AlikeOperands S σ x s s' (p.effects (is.take b) o) (p.effects (is.take b) o'))
    (hjs : ∀ n w t t', s.perform (p.effects is o) = (.ok w, t) → n ≤ p.stepLimit → Twins S σ x t t' → s.Below t →
      t.HasOperands w → AlikeValue S σ x t t' (p.run n (f.placed (pc + is.length) w) [])
        (p.run n (f.placed (pc + is.length) (w.rename σ)) [])) :
    AlikeValue S σ x s s' (p.run b (f.placed pc o) []) (p.run b (f.placed pc o') []) := by
  have hrun := Program.perform_run_take hahead hstraight htame hlimit
  refine of_perform (bind_of his fun w t t' hw ht hle hhas => ?_) (hrun ..) (hrun ..)
  by_cases hlt : b < is.length
  · rw [Nat.sub_eq_zero_of_le (Nat.le_of_lt hlt)]
    exact run_zero ht _ _
  · rw [List.take_of_length_le (Nat.not_lt.mp hlt)] at hw ⊢
    exact hjs _ w t t' hw (by omega) ht hle hhas

/-- A run that comes to its end. -/
theorem run_returnValue (hahead : f.Ahead labels pc (.bare .returnValue :: is)) (h : Twins S σ x s s')
    (ho : s.HasOperands o) :
    AlikeValue S σ x s s' (p.run b (f.placed pc o) []) (p.run b (f.placed pc (o.rename σ)) []) := by
  cases b with
  | zero => exact run_zero h _ _
  | succ b =>
      rw [Program.run_return hahead, Program.run_return hahead]
      exact bind (pop h ho) fun r t t' ht _ hr => value ht hr.1 rfl

end Alike

end Routecraft.Machine
