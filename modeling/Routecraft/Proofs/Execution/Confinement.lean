import Routecraft.Proofs.Execution.Limits
import Routecraft.Proofs.Verification.Members

/-!
# The units that a run comes across

An instruction for an object brings up a reference, and so may code of the application. All else only moves references
about: instructions do between stacks, locals, fields and arrays, and the code of the framework does between these and
the objects of the host. So if there is a unit for every class that instructions make objects of, a run finds only
objects of loaded units wherever it looks, and it is never at a loss for the unit of an object.

* `Program.Loaded`, `Program.Complete`: the objects of loaded units, and programs that make no others.
* `HostCode.UsesOnly`: code of the application that brings up no others, either.
* `Program.Confines`: an action that leads to objects of loaded units only.
* `Program.call_confines`, `Program.advance_confines`: **calls and steps**.
* `Program.invoke_confines`, `Program.Executes.only`: **runs**, and all that they pass through.
-/

namespace Routecraft.Machine

open Bytecode

variable {α : Type} {p : Program} {P : String → Nat → Prop}

/-! ## Units -/

namespace Program

/-- The objects of loaded units. -/
def Loaded (p : Program) (unit : String) (_number : Nat) : Prop := (p.unit? unit).isSome

/-- Instructions for objects are for those of loaded units. -/
def Complete (p : Program) : Prop :=
  ∀ {u : CodeUnit} {k : UInt16} {name : String},
    p.Has u (.onConst .newObject k) → u.pool.classAt k = .ok name → (p.unit? name).isSome

end Program

/-! ## Frames -/

/-- A frame runs a method of a loaded unit, and holds only references to objects of loaded units. -/
structure Frame.Inside (p : Program) (f : Frame) : Prop where
  only : f.Only p.Loaded
  unit : f.unit ∈ p.units
  method : f.method ∈ f.unit.methods

/-- What has come of a step refers only to objects of loaded units, and so do all frames that wait. -/
def Progress.Inside (p : Program) : Progress → Prop
  | .running f callers => f.Inside p ∧ ∀ w ∈ callers, w.Inside p
  | .finished v => v.Only p.Loaded

/-- So does what has come of a call. -/
def Called.Inside (p : Program) : Called → Prop
  | .result v => v.Only p.Loaded
  | .entered f => f.Inside p

namespace Frame.Inside

variable {f g : Frame} {v : Value}

/-- A frame stays inside if its method does, and what it holds is loaded. -/
theorem congr (h : f.Inside p) (hunit : g.unit = f.unit) (hmethod : g.method = f.method) (hg : g.Only p.Loaded) :
    g.Inside p where
  only := hg
  unit := hunit ▸ h.unit
  method := hunit ▸ hmethod ▸ h.method

/-- Where a frame goes on does not matter to what it holds. -/
theorem jump (h : f.Inside p) (pc : Nat) : ({ f with pc } : Frame).Inside p :=
  h.congr rfl rfl ⟨h.only.locals, h.only.stack⟩

theorem push (h : f.Inside p) (hv : v.Only p.Loaded) : (f.push v).Inside p :=
  h.congr rfl rfl (Frame.only_push.mpr ⟨hv, h.only⟩)

theorem receive (h : f.Inside p) (keeps : Bool) (hv : v.Only p.Loaded) : (f.receive keeps v).Inside p := by
  cases keeps
  · exact h
  · exact h.push hv

theorem store (h : f.Inside p) (slot : UInt8) (hv : v.Only p.Loaded) : (f.store slot v).Inside p :=
  h.congr rfl rfl (h.only.store slot hv)

end Frame.Inside

/-- A run that is inside holds only what is loaded. -/
theorem Progress.Inside.only {r : Progress} (h : r.Inside p) : r.Only p.Loaded := by
  cases r with
  | running f callers => exact ⟨h.1.only, fun w hw => (h.2 w hw).only⟩
  | finished v => exact h

/-! ## Code of the application -/

/-- Code of the application uses only objects of a kind: it gives nothing else if it is called with nothing else, and
leaves nothing else in the store, even if it fails. -/
def HostCode.UsesOnly (P : String → Nat → Prop) (code : HostCode) : Prop :=
  ∀ (args : List Value) (s : Store), (∀ w ∈ args, w.Only P) → s.Only P →
    (s.perform (code args)).2.Only P ∧ ∀ v, (s.perform (code args)).1 = .ok v → v.Only P

/-- Code that brings up no references uses only objects of whatever kind. -/
theorem HostCode.UsesOnly.of_keeps {code : HostCode}
    (h : ∀ args : List Value, (∀ w ∈ args, w.Only P) → Keeps P (code args) (·.Only P)) : code.UsesOnly P := by
  intro args s hargs hs
  obtain ⟨hs', hv, -⟩ := (h args hargs).guards (S := fun _ => False) s hs
  exact ⟨hs', hv⟩

/-- Code that gives one of its arguments uses nothing else. -/
theorem HostCode.usesOnly_argument (n : Nat) : (HostCode.argument n).UsesOnly P := by
  refine .of_keeps fun args hargs => .pure ?_
  rw [List.getD_eq_getElem?_getD]
  cases harg : args[n]? with
  | none => exact .of_leaf rfl
  | some v => exact hargs v (List.mem_of_getElem? harg)

namespace Program

/-- All code of the application uses only objects of a kind. -/
def HostsUseOnly (p : Program) (P : String → Nat → Prop) : Prop := ∀ code, p.Hosts code → code.UsesOnly P

/-- Code of the application fails by itself for want of a unit, though it is called with objects of loaded units. -/
def HostLacks (p : Program) (name : String) : Prop :=
  ∃ (code : HostCode) (args : List Value) (s s' : Store), p.Hosts code ∧ (∀ w ∈ args, w.Only p.Loaded) ∧
    s.Only p.Loaded ∧ s.perform (code args) = (.error (.unknownUnit name), s')

/-- An action leads to objects of loaded units only, and is for want of a unit only if code of the application is. -/
abbrev Confines (p : Program) (a : Action α) (Q : α → Prop) : Prop := Guards (·.Only p.Loaded) p.HostLacks a Q

/-- Host code gives back what is loaded, if it is given such. -/
theorem code_confines (hhosts : p.HostsUseOnly p.Loaded) {code : HostCode} (hcode : p.Hosts code) {args : List Value}
    (hargs : ∀ v ∈ args, v.Only p.Loaded) : p.Confines (code args) (·.Only p.Loaded) := by
  intro s hs
  obtain ⟨hs', hv⟩ := hhosts code hcode args s hargs hs
  exact ⟨hs', hv, fun name hname => ⟨code, args, s, _, hcode, hargs, hs, Prod.ext hname rfl⟩⟩

/-! ## Calls -/

section

variable {args : List Value} {name : String} (hhosts : p.HostsUseOnly p.Loaded)

include hhosts

/-- Calls on host objects give back what is loaded. -/
theorem callStub_confines (number : Nat) (hargs : ∀ v ∈ args, v.Only p.Loaded) :
    p.Confines (callStub p.stubs number name args) (·.Only p.Loaded) := by
  unfold callStub
  dsimp only
  split
  · next code hcode =>
    exact .bind (.modify fun s hs => hs.answered number name hargs) fun _ _ =>
      code_confines hhosts (hosts_of_lookup hcode) hargs
  · exact .throw nofun

theorem hostCall_confines {object : HostObject} (hobject : object.Only p.Loaded) (hargs : ∀ v ∈ args, v.Only p.Loaded) :
    p.Confines (object.call p.stubs name args) (·.Only p.Loaded) := by
  by_cases hstub : ∃ number, object = .stub number
  · obtain ⟨number, rfl⟩ := hstub
    exact callStub_confines hhosts number hargs
  · exact (HostObject.call_keeps p.stubs hobject (fun number heq => hstub ⟨number, heq⟩) name hargs).guards

/-- Static calls give back what is loaded. -/
theorem callStatic_confines (owner : String) (hargs : ∀ v ∈ args, v.Only p.Loaded) :
    p.Confines (p.callStatic owner name args) (·.Only p.Loaded) := by
  unfold callStatic
  split
  · next code hcode => exact code_confines hhosts (.inr ⟨_, mem_of_lookup hcode⟩) hargs
  · exact (callFramework_keeps owner name hargs).guards

/-- **A call finds the unit of its receiver**, since there is one for every object that can be reached. -/
theorem call_confines {receiver : Value} (hreceiver : receiver.Only p.Loaded) (hargs : ∀ v ∈ args, v.Only p.Loaded) :
    p.Confines (p.call receiver name args) (·.Inside p) := by
  unfold call
  split
  -- This is the only place where a run looks for the unit of an object.
  · next unit number =>
    obtain ⟨u, hu⟩ := Option.isSome_iff_exists.mp (Value.only_object.mp hreceiver)
    simp only [hu]
    unfold enter
    split
    · next method hmethod =>
      refine .pure ⟨⟨fun v hv => ?_, fun v hv => nomatch hv⟩, (unit?_eq_some hu).1, List.mem_of_find?_eq_some hmethod⟩
      rcases List.mem_cons.mp (List.mem_toArray.mp hv) with rfl | hv
      · exact hreceiver
      · exact hargs v hv
    · exact .throw nofun
  · refine .bind .get fun s hs => ?_
    split
    · next object hobject =>
      exact .bind (hostCall_confines hhosts (hs.hostObject? hobject) hargs) fun v hv => .pure hv
    · exact .throw nofun
  · exact .throw nofun
  · split
    · exact .pure (Value.only_boxed.mp hreceiver)
    · exact .throw nofun
  · exact .throw nofun

end

/-! ## Operands -/

variable {f : Frame} {callers : List Frame}

/-- What is popped is loaded. -/
theorem pop_confines (hf : f.Inside p) : p.Confines f.pop fun x => x.1.Only p.Loaded ∧ x.2.Inside p := by
  unfold Frame.pop
  split
  · next v rest hstack =>
    have hvalues := hf.only.stack
    rw [hstack, List.forall_mem_cons] at hvalues
    exact .pure ⟨hvalues.1, hf.congr rfl rfl ⟨hf.only.locals, hvalues.2⟩⟩
  · exact .throw nofun

theorem popArgs_confines (hf : f.Inside p) (count : Nat) :
    p.Confines (f.popArgs count) fun x => (∀ v ∈ x.1, v.Only p.Loaded) ∧ x.2.Inside p := by
  unfold Frame.popArgs
  split
  · refine .pure ⟨fun v hv => ?_, hf.congr rfl rfl ⟨hf.only.locals, fun v hv => ?_⟩⟩
    · exact hf.only.stack v (List.mem_of_mem_take (List.mem_reverse.mp hv))
    · exact hf.only.stack v (List.mem_of_mem_drop hv)
  · exact .throw nofun

theorem top_confines (hf : f.Inside p) : p.Confines f.top (·.Only p.Loaded) := by
  unfold Frame.top
  split
  · next v rest hstack => exact .pure (hf.only.stack v (hstack ▸ List.mem_cons_self))
  · exact .throw nofun

theorem load_confines (hf : f.Inside p) (slot : UInt8) : p.Confines (f.load slot) (·.Only p.Loaded) := by
  unfold Frame.load
  split
  · next v hv => exact .pure (hf.only.locals v (Array.mem_of_getElem? hv))
  · exact .throw nofun

/-- Reading a number makes nothing. -/
theorem asInt_confines (v : Value) : p.Confines v.asInt fun _ => True := by
  cases v <;> first | exact .pure trivial | exact .mismatch _ _

/-- Reading an object makes nothing. -/
theorem asObject_confines (v : Value) : p.Confines v.asObject fun _ => True := by
  cases v <;> first | exact .pure trivial | exact .mismatch _ _

/-- A constant names no unit that is not loaded. -/
theorem constantValue_confines (x : Constant) : p.Confines (constantValue x) (·.Only p.Loaded) := by
  cases x <;> first | exact .pure (.of_leaf rfl) | exact .throw nofun

/-! ## Steps -/

/-- Storing into an array stays inside. -/
theorem stepArrayStore_confines (hf : f.Inside p) : p.Confines (stepArrayStore f) (·.Inside p) := by
  unfold stepArrayStore
  refine .bind (pop_confines hf) fun ⟨v, f⟩ ⟨hv, hf⟩ => .bind (pop_confines hf) fun ⟨index, f⟩ ⟨_, hf⟩ => ?_
  refine .bind (asInt_confines index) fun n _ => .bind (pop_confines hf) fun ⟨target, f⟩ ⟨_, hf⟩ => ?_
  dsimp only
  split
  · refine .bind .get fun s _ => ?_
    split
    · exact .bind (.modify fun s hs => hs.setItem _ _ hv) fun _ _ => .pure hf
    · exact .throw nofun
  · exact .mismatch _ _

/-- An instruction for an object is for one of a loaded unit, as linking has seen to it. -/
theorem stepConst_confines (hcomplete : p.Complete) (hf : f.Inside p) {op : ConstOp} {k : UInt16}
    (hhas : p.Has f.unit (.onConst op k)) : p.Confines (p.stepConst f op k) (·.Inside p) := by
  unfold stepConst
  dsimp only
  cases op with
  | loadConst =>
      exact .bind (.orUnitFault fun _ _ => trivial) fun x _ => .bind (constantValue_confines x) fun v hv =>
        .pure (hf.push hv)
  | getField =>
      refine .bind (.orUnitFault fun _ _ => trivial) fun m _ => .bind (pop_confines hf) fun ⟨target, f⟩ ⟨_, hf⟩ => ?_
      exact .bind (asObject_confines target) fun number _ => .bind .get fun s hs => .pure (hf.push (hs.field _ _))
  | putField =>
      refine .bind (.orUnitFault fun _ _ => trivial) fun m _ => .bind (pop_confines hf) fun ⟨v, f⟩ ⟨hv, hf⟩ => ?_
      refine .bind (pop_confines hf) fun ⟨target, f⟩ ⟨_, hf⟩ => .bind (asObject_confines target) fun number _ => ?_
      exact .bind (.modify fun s hs => hs.setField _ _ hv) fun _ _ => .pure hf
  | getStatic => exact .bind (.orUnitFault fun _ _ => trivial) fun m _ => .pure (hf.push (only_staticField _ _))
  | newObject =>
      -- The one reference that does not come from a frame or from the store.
      refine .bind (.orUnitFault fun _ => id) fun unit hunit => ?_
      have hnew : (p.unit? unit).isSome := hcomplete hhas hunit
      exact .bind (.modifyGet fun s hs => ⟨hs.newObject unit, Value.only_object.mpr hnew⟩) fun v hv =>
        .pure (hf.push hv)
  | newArray =>
      refine .bind (.orUnitFault fun _ _ => trivial) fun element _ => ?_
      refine .bind (pop_confines hf) fun ⟨size, f⟩ ⟨_, hf⟩ => .bind (asInt_confines size) fun n _ => ?_
      split
      · exact .bind (Q := fun _ => False) (.throw nofun) fun _ => False.elim
      · exact .bind (.modifyGet fun s hs => ⟨hs.newArray _ _, .of_leaf rfl⟩) fun v hv => .pure (hf.push hv)
  | checkCast =>
      refine .bind (.orUnitFault fun _ _ => trivial) fun target _ => .bind (top_confines hf) fun v _ => ?_
      split
      · split
        · exact .pure hf
        · exact .mismatch _ _
      · exact .pure hf
  | invokeVirtual | invokeInterface | invokeStatic | invokeSpecial => exact .pure hf

/-- A value given back to a caller that is inside leaves the run there. -/
theorem inside_giveBack (hcallers : ∀ w ∈ callers, w.Inside p) {v : Value} (hv : v.Only p.Loaded) :
    (giveBack f callers v).Inside p := by
  cases callers with
  | nil => exact hv
  | cons g callers =>
      obtain ⟨hg, hcallers⟩ := List.forall_mem_cons.mp hcallers
      exact ⟨hg.receive _ hv, hcallers⟩

section

variable (hhosts : p.HostsUseOnly p.Loaded)

include hhosts

/-- A call stays inside, whatever it reaches. -/
theorem stepCall_confines (hf : f.Inside p) (hcallers : ∀ w ∈ callers, w.Inside p) (op : ConstOp) (k : UInt16) :
    p.Confines (p.stepCall f callers op k) (·.Inside p) := by
  unfold stepCall
  refine .bind (.orUnitFault fun _ _ => trivial) fun m _ => .bind (.orUnitFault fun _ _ => trivial) fun sig _ => ?_
  refine .bind (popArgs_confines hf _) fun ⟨args, f⟩ ⟨hargs, hf⟩ => ?_
  dsimp only
  split
  · exact .bind (callStatic_confines hhosts m.owner hargs) fun v hv => .pure ⟨hf.receive _ hv, hcallers⟩
  · refine .bind (pop_confines hf) fun ⟨receiver, f⟩ ⟨hreceiver, hf⟩ => ?_
    refine .bind (call_confines hhosts hreceiver hargs) fun called hcalled => ?_
    cases called with
    | result v => exact .pure ⟨hf.receive _ hcalled, hcallers⟩
    | entered g => exact .pure ⟨hcalled.congr rfl rfl ⟨hcalled.only.locals, hcalled.only.stack⟩,
        List.forall_mem_cons.mpr ⟨hf, hcallers⟩⟩

variable (hcomplete : p.Complete)

include hcomplete

/-- **A step leads to objects of loaded units only.** -/
theorem step_confines (hf : f.Inside p) (hcallers : ∀ w ∈ callers, w.Inside p) {i : Instr UInt16}
    (hhas : p.Has f.unit i) : p.Confines (p.step f callers i) (·.Inside p) := by
  have hgo {g : Frame} (hg : g.Inside p) : p.Confines (pure (Progress.running g callers)) (·.Inside p) :=
    .pure ⟨hg, hcallers⟩
  -- By the kinds of operands. What is pushed was popped or loaded before, unless it is no reference.
  rcases i with op | ⟨op, slot⟩ | n | ⟨op, k⟩ | ⟨op, target⟩
  · cases op with
    | pushNull => exact hgo (hf.push (.of_leaf rfl))
    | arrayStore => exact .bind (stepArrayStore_confines hf) fun _ => hgo
    | dup => exact .bind (top_confines hf) fun v hv => hgo (hf.push hv)
    | pop => exact .bind (pop_confines hf) fun x hx => hgo hx.2
    | swap =>
        refine .bind (pop_confines hf) fun ⟨v, f⟩ ⟨hv, hf⟩ => .bind (pop_confines hf) fun ⟨w, f⟩ ⟨hw, hf⟩ => ?_
        exact hgo ((hf.push hv).push hw)
    | returnVoid => exact .pure (inside_giveBack hcallers (.of_leaf rfl))
    | returnValue => exact .bind (pop_confines hf) fun x hx => .pure (inside_giveBack hcallers hx.1)
  · cases op with
    | load => exact .bind (load_confines hf _) fun v hv => hgo (hf.push hv)
    | store => exact .bind (pop_confines hf) fun ⟨v, f⟩ ⟨hv, hf⟩ => hgo (hf.store _ hv)
  · exact hgo (hf.push (.of_leaf rfl))
  · cases op with
    | invokeVirtual | invokeInterface | invokeStatic | invokeSpecial => exact stepCall_confines hhosts hf hcallers _ _
    | _ => exact .bind (stepConst_confines hcomplete hf hhas) fun _ => hgo
  · cases op with
    | goto => exact hgo (hf.jump _)
    | ifFalse =>
        refine .bind (pop_confines hf) fun ⟨v, f⟩ ⟨_, hf⟩ => .bind (asInt_confines v) fun n _ => hgo ?_
        split
        · exact hf.jump _
        · exact hf

/-- One step stays inside. -/
theorem advance_confines (hf : f.Inside p) (hcallers : ∀ w ∈ callers, w.Inside p) :
    p.Confines (p.advance f callers) (·.Inside p) := by
  unfold advance
  split
  · next i hi =>
    refine step_confines hhosts hcomplete (hf.jump (f.pc + 1)) hcallers ?_
    exact ⟨hf.unit, f.method, hf.method, Array.mem_of_getElem? hi⟩
  · exact .throw nofun

/-! ## Runs -/

/-- A run stays inside, by induction on its budget. -/
theorem run_confines (budget : Nat) (hf : f.Inside p) (hcallers : ∀ w ∈ callers, w.Inside p) :
    p.Confines (p.run budget f callers) (·.Only p.Loaded) := by
  induction budget generalizing f callers with
  | zero => exact .throw nofun
  | succ budget ih =>
      refine .bind (advance_confines hhosts hcomplete hf hcallers) fun progress hprogress => ?_
      cases progress with
      | running g callers => exact ih hprogress.1 hprogress.2
      | finished v => exact .pure hprogress

variable {receiver : Value} {name : String} {args : List Value} (hreceiver : receiver.Only p.Loaded)
  (hargs : ∀ v ∈ args, v.Only p.Loaded)

include hreceiver hargs

/-- **An invocation leads to objects of loaded units only.** -/
theorem invoke_confines : p.Confines (p.invoke receiver name args) (·.Only p.Loaded) := by
  unfold invoke
  refine .bind (call_confines hhosts hreceiver hargs) fun called hcalled => ?_
  cases called with
  | result v => exact .pure hcalled
  | entered f => exact run_confines hhosts hcomplete _ hcalled (by simp)

omit hreceiver hargs in

/-- An object is made of a loaded unit, and stays inside. -/
theorem instantiate_confines {unit : String} {provider : Value} (hunit : (p.unit? unit).isSome)
    (hprovider : provider.Only p.Loaded) : p.Confines (p.instantiate unit provider) (·.Only p.Loaded) := by
  obtain ⟨u, hu⟩ := Option.isSome_iff_exists.mp hunit
  unfold instantiate
  rw [hu, if_neg (by simp)]
  refine .bind (Q := (·.Only p.Loaded)) (.modifyGet fun s hs => ?_) fun object hobject => ?_
  · exact ⟨hs.newObject unit, Value.only_object.mpr hunit⟩
  · exact .bind (invoke_confines hhosts hcomplete hobject (by simpa using hprovider)) fun _ _ => .pure hobject

omit hcomplete in

/-- The frame that a call begins with is inside. -/
theorem opening_confines : p.Confines (p.opening receiver name args) (·.Inside p) := by
  refine .bind (call_confines hhosts hreceiver hargs) fun called hcalled => ?_
  cases called with
  | result v => exact .pure hcalled
  | entered f => exact .pure ⟨hcalled, by simp⟩

end

/-- All that a run passes through. -/
theorem Executes.only (hcomplete : p.Complete) (hhosts : p.HostsUseOnly p.Loaded) {start x : RunState} {n : Nat}
    (h : p.Executes start n x) (hs : start.2.Only p.Loaded) (hstart : ∀ r, start.1 = .ok r → r.Inside p) :
    x.2.Only p.Loaded ∧ ∀ r, x.1 = .ok r → r.Inside p := by
  induction h with
  | start => exact ⟨hs, hstart⟩
  | @step n f callers s _ ih =>
      obtain ⟨hs, hinside⟩ := ih
      obtain ⟨hf, hcallers⟩ := hinside _ rfl
      obtain ⟨hs', hr, -⟩ := advance_confines hhosts hcomplete hf hcallers s hs
      exact ⟨hs', hr⟩

end Program

end Routecraft.Machine
