import Routecraft.Proofs.Compile.Handling
import Routecraft.Proofs.Compile.Repetition
import Routecraft.Proofs.Execution.Sparing

/-!
# Handlers leave the objects alone

No handler writes a field after it has been constructed, and neither does the framework, so what the application does
not change by itself stays as it is, whatever comes of a dispatch.

* `Gentle.spares`: the code that takes the arguments.
* `Spares.run_answer`: a run through the code of an answer.
-/

namespace Routecraft.Machine

open Bytecode Compile

variable {p : Program} {is : List (Instr Constant)} {i : Instr Constant}

/-! ## Code -/

/-- Code that builds values is sparing. -/
theorem Builds.spares (hp : p.Sparing) {ks ks' : List Mark} (h : Builds is ks ks') :
    ∀ i ∈ is, ∀ o, Spares (p.effect i o) := by
  induction h with
  | nil => exact List.forall_mem_nil _
  | cons hstep _ ih =>
      refine List.forall_mem_cons.mpr ⟨fun o => ?_, ih⟩
      cases hstep
      all_goals refine .effect hp ?_ ?_ o
      all_goals first | exact fun _ => ⟨nofun, nofun⟩ | exact nofun

/-- Gentle code is sparing, if no unit is called in place of the framework. -/
theorem Gentle.spares (hp : p.Sparing) (hquiet : ∀ c ∈ Framework.catalogue, p.Quiet c.name) (h : Gentle is) :
    ∀ i ∈ is, ∀ o, Spares (p.effect i o) := by
  induction h with
  | nil => exact List.forall_mem_nil _
  | cons hi _ ih =>
      refine List.forall_mem_cons.mpr ⟨.effect hp hi.objects fun m hm => ?_, ih⟩
      obtain ⟨c, hc, hname, -⟩ := hi.calls m hm
      rw [hname]
      exact hquiet c hc
  | literal t _ ih => exact List.forall_mem_append.mpr ⟨(builds_typeCode t []).spares hp, ih⟩

/-! ## Answers -/

namespace Spares

variable {f : Frame} {labels : Array (Option UInt16)} {pc b : Nat}

/-- A call of the framework. -/
theorem run_framework (hp : p.Sparing) (hquiet : ∀ c ∈ Framework.catalogue, p.Quiet c.name) {c : Call}
    (hc : c ∈ Framework.catalogue) (hahead : f.Ahead labels pc (c.instr :: is)) (hlimit : b ≤ p.stepLimit)
    (hrest : ∀ n w, n ≤ p.stepLimit → Spares (p.run n (f.placed (pc + 1) w) [])) (o : Operands) :
    Spares (p.run b (f.placed pc o) []) := by
  unfold Call.instr at hahead
  cases hdispatch : c.dispatch
  all_goals rw [hdispatch] at hahead
  all_goals refine run_effect hp hahead rfl (fun _ => ⟨nofun, nofun⟩) (fun m hm => ?_) hlimit hrest o
  all_goals cases hm
  all_goals exact hquiet c hc

/-- An instruction that calls nothing on an object. -/
theorem run_simple (hp : p.Sparing) (hahead : f.Ahead labels pc (i :: is)) (hstraight : i.isStraight)
    (hcallee : i.callee? = none) (hobjects : ∀ c, i ≠ .onConst .putField c ∧ i ≠ .onConst .newObject c)
    (hlimit : b ≤ p.stepLimit) (hrest : ∀ n w, n ≤ p.stepLimit → Spares (p.run n (f.placed (pc + 1) w) []))
    (o : Operands) : Spares (p.run b (f.placed pc o) []) := by
  refine run_effect hp hahead hstraight hobjects (fun m hm => ?_) hlimit hrest o
  rw [hcallee] at hm
  cases hm

/-- **A run through the code of an answer.** -/
theorem run_answer (hp : p.Sparing) (hquiet : ∀ c ∈ Framework.catalogue, p.Quiet c.name) {o : Outcome}
    (hahead : f.Ahead labels pc (answerCode o)) (hlabels : labels = answerLabels pc o)
    (hsize : f.method.code.size < 65536) (hlimit : b ≤ p.stepLimit) (w : Operands) :
    Spares (p.run b (f.placed pc w) []) := by
  have hload {pc b : Nat} {is : List (Instr Constant)} (hahead : f.Ahead labels pc (loadContext :: is))
      (hlimit : b ≤ p.stepLimit) (hrest : ∀ n w, n ≤ p.stepLimit → Spares (p.run n (f.placed (pc + 1) w) []))
      (w : Operands) : Spares (p.run b (f.placed pc w) []) :=
    run_simple hp hahead rfl rfl (fun _ => ⟨nofun, nofun⟩) hlimit hrest w
  have hsend : Framework.send ∈ Framework.catalogue := by decide
  cases o with
  | void =>
      have htail : f.Ahead labels (pc + 5) ((answerCode .void).drop 5) := hahead.tail.tail.tail.tail.tail
      obtain ⟨last, hlast, -⟩ := htail.tail.tail.tail.head
      have hlt : pc + 8 < f.method.code.size := (Array.getElem?_eq_some_iff.mp hlast).1
      refine hload hahead hlimit (fun n w hn => ?_) w
      refine run_framework hp hquiet (c := Framework.isResponseStarted) (by decide) hahead.tail hn (fun n w hn => ?_) w
      cases n with
      | zero => exact throw _
      | succ n =>
          -- At the branch the context has said whether a response was started; both ways on are followed.
          obtain ⟨target, hlabel, hjump⟩ := Program.run_branch (p := p) (b := n) hahead.tail.tail
          rw [hlabels] at hlabel
          cases hlabel
          rw [hjump, toNat_saturate16_of_lt (by omega)]
          refine bind (pop w) fun r => bind (asInt r.1) fun started => ?_
          have hn : n ≤ p.stepLimit := Nat.le_of_succ_le hn
          split
          · refine hload htail hn (fun n w hn => ?_) r.2
            refine run_simple hp htail.tail rfl rfl (fun _ => ⟨nofun, nofun⟩) hn (fun n w hn => ?_) w
            exact run_framework hp hquiet hsend htail.tail.tail hn
              (fun n w _ => run_returnValue htail.tail.tail.tail w) w
          · exact hload hahead.tail.tail.tail hn (fun n w _ => run_returnValue hahead.tail.tail.tail.tail w) r.2
  | primitive kind =>
      exact run_framework hp hquiet (Framework.box_mem kind) hahead hlimit
        (fun n w _ => run_returnValue hahead.tail w) w
  | statusCode =>
      refine hload hahead hlimit (fun n w hn => ?_) w
      refine run_simple hp hahead.tail rfl rfl (fun _ => ⟨nofun, nofun⟩) hn (fun n w hn => ?_) w
      exact run_framework hp hquiet hsend hahead.tail.tail hn
        (fun n w _ => run_returnValue hahead.tail.tail.tail w) w
  | reference t => exact run_returnValue hahead w
  | context => exact run_returnValue hahead w
  | parameterized base args => exact run_returnValue hahead w

end Spares

/-! ## Dispatching -/

/-- An object has a provider of a controller: of an object of the application. -/
structure Store.Provides (s : Store) (number : Nat) (className : String) (controller : Nat) : Prop where
  provider : ∃ className' handle, s.field number Framework.providerField = .host className' handle ∧
    s.handles[handle]? = some (.provider (.host className controller))
  stub : ∃ stub, s.handles[controller]? = some (.stub stub)

/-- A provider that gives a controller still does so when the store grows. -/
theorem Store.Provides.mono {s t : Store} {number controller : Nat} {className : String}
    (h : s.Provides number className controller) (hle : s.Below t) (hobjects : t.objects = s.objects) :
    t.Provides number className controller := by
  obtain ⟨⟨className', handle, hfield, hprovider⟩, stub, hstub⟩ := h
  refine ⟨⟨className', handle, ?_, hle.hostObject hprovider⟩, stub, hle.hostObject hstub⟩
  rw [← hfield]
  unfold Store.field
  rw [hobjects]

namespace Program

/-- A handler gets the controller from its provider, or fails. -/
theorem controller_of_ok {s s' : Store} {number controller : Nat} {className owner : String} {v : Value}
    (hs : s.Provides number className controller)
    (h : s.perform (p.controllerOf number owner) = (.ok v, s')) : v = .host className controller := by
  obtain ⟨⟨className', handle, hfield, hprovider⟩, -⟩ := hs
  have hget : s.perform (p.invoke (.host className' handle) "get" []) = (.ok (.host className controller), s) := by
    rw [Program.invoke_host]
    simp only [Store.perform_bind, Store.perform_get, Store.hostObject?, hprovider]
    rfl
  unfold controllerOf at h
  simp only [Store.perform_bind, Store.perform_get, hfield, hget] at h
  unfold cast at h
  split at h
  · split at h
    · cases h
      rfl
    · cases h
  · cases h
    rfl

section

variable {e : Endpoint} {u : CodeUnit} {m : Method} {i : Inference}

/-- A dispatch runs the method of the handler, from its start. -/
theorem dispatch_eq (hunit : p.unit? u.name = some u) (hm : Handling e u m i) (number x : Nat) :
    p.dispatch (.object u.name number) x = handleTo Platform.context (.context x) >>= fun ctx =>
      p.run p.stepLimit ((Frame.start u m (.object u.name number) [ctx] true).placed 0
        ⟨#[.object u.name number, ctx], []⟩) [] := by
  unfold dispatch
  refine bind_congr fun ctx => ?_
  exact invoke_object hunit hm.method number [ctx]

/-- Where the method of the endpoint is to be called, there are the controller and the arguments. -/
theorem operands_beforeCall (hp : p.Unshadowed) (hm : Handling e u m i) {s s' : Store} {number controller : Nat}
    {className className' : String} (hs : s.Provides number className controller) {ctx : Value} {o : Operands}
    (h : s.perform (p.effects (callCode (handlerName e) e).dropLast ⟨#[.object className' number, ctx], []⟩) =
      (.ok o, s')) :
    ∃ args : List Value, args.length = e.params.length ∧
      o = ⟨#[.object className' number, ctx], args.reverse ++ [.host className controller]⟩ := by
  have hsize : (callCode (handlerName e) e).length ≤ 2147483647 := by
    have hlength := hm.code.length_eq
    rw [List.length_append, Array.length_toList] at hlength
    have := hm.size
    omega
  rw [effects_beforeCall hp (handlerName e) hm.supported hsize
    (fun q hq m name args hbinding htype => hm.signatureOf_binder hq hbinding htype) className' number ctx] at h
  obtain ⟨v, s₁, hcontroller, h⟩ := Store.perform_bind_eq_ok.mp h
  obtain rfl := controller_of_ok hs hcontroller
  obtain ⟨args, s₂, hargs, h⟩ := Store.perform_bind_eq_ok.mp h
  cases h
  exact ⟨args, length_of_mapM_eq_ok hargs, rfl⟩

end

end Program

/-- **A dispatch leaves the objects alone**, whatever comes of it. -/
theorem Spares.dispatch (hp : p.Sparing) (hquiet : ∀ c ∈ Framework.catalogue, p.Quiet c.name)
    (hunshadowed : p.Unshadowed) {e : Endpoint} {u : CodeUnit} (hu : handlerUnit e = .ok u)
    (hunit : p.unit? u.name = some u) {s : Store} {number controller : Nat} {className : String}
    (hs : s.Provides number className controller) (x : Nat) :
    (s.perform (p.dispatch (.object u.name number) x)).2.objects = s.objects := by
  obtain ⟨m, i, hm⟩ := handling_of_handlerUnit hu
  let s₀ : Store := (s.newHandle Platform.context (.context x)).2
  let ctx : Value := .host Platform.context s.handles.size
  have hs₀ : s₀.Provides number className controller := hs.mono (s.below_newHandle _ _) rfl
  have hplain := plain_callCode (handlerName e) e
  have hstraight : ∀ i ∈ (callCode (handlerName e) e).dropLast, i.isStraight = true := fun i hi =>
    (hplain i hi).straight
  have hahead := hm.ahead (.object u.name number) [ctx] true
  rw [Program.dispatch_eq hunit hm]
  show (s₀.perform (p.run p.stepLimit ((Frame.start u m (.object u.name number) [ctx] true).placed 0
    ⟨#[.object u.name number, ctx], []⟩) [])).2.objects = s₀.objects
  -- What is called before the method of the endpoint leaves the objects alone.
  refine run_effects hahead hstraight (fun i hi => Program.tame_of_plain (hplain i hi) fun _ => hquiet) (Nat.le_refl _)
    ((Gentle.beforeCall (handlerName e) e).spares hp hquiet) fun n w t hw hn => ?_
  obtain ⟨args, hlength, rfl⟩ := Program.operands_beforeCall hunshadowed hm hs₀ hw
  have hentry : p.Activation (.start u m (.object u.name number) [ctx] true)
      ((Frame.start u m (.object u.name number) [ctx] true).placed 0 ⟨#[.object u.name number, ctx], []⟩) := .entry
  have hframe := hentry.effects hahead hstraight hw
  rw [Nat.zero_add] at hframe ⊢
  cases n with
  | zero => rfl
  | succ n =>
      rw [Program.run_call hm hlength rfl hframe _ rfl controller]
      -- The controller is code of the application, which spares the objects by assumption.
      refine bind (invokeHost hp className controller) (fun v => ?_) t
      have hanswer := (Program.ahead_call hm (f := .start u m (.object u.name number) [ctx] true) rfl).tail
      rw [Program.length_dropLast_callCode] at hanswer
      exact run_answer hp hquiet hanswer rfl hm.size (Nat.le_of_succ_le hn) _

end Routecraft.Machine
