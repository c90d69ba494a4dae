import Routecraft.Proofs.Compile.Sparing

/-!
# Handlers without state

A handler keeps nothing from one request to the next. Beside a run that answers an exchange, the same run on a store
that other exchanges have been answered on comes to the same, up to the numbers of what is new.

* `Alike.dispatch`: a handler answers alike on twin stores.
* `Program.since_dispatch`: a dispatch leaves all as it was, apart from the response to its exchange.
* `Program.storeAfter`: the store after a sequence of dispatches.
* `dispatches_independent`: dispatches with different exchanges do not depend on each other.
* `dispatches_interfere`: they can if other units or static methods come in between.
-/

namespace Routecraft.Machine

open Bytecode Compile Store

/-! ## Answers -/

namespace Alike

variable {p : Program} {S s s' : Store} {σ : Renaming} {x : Nat} {f : Frame} {labels : Array (Option UInt16)}
  {pc b : Nat} {is : List (Instr Constant)} {ls : Array Value} {st args : List Value} {handle : Nat} {v : Value}

/-- A call of the framework on the context of the exchange that is answered. -/
theorem run_onContext (args : List Value) (hp : p.Steady S) {c : Call} (hc : Framework.OnObject c args.length)
    (hahead : f.Ahead labels pc (c.instr :: is)) (h : Twins S σ x s s')
    (hhandle : s.handles[handle]? = some (.context x)) (ho : s.HasOperands ⟨ls, args⟩)
    (hrest : ∀ n v t t', Twins S σ x t t' → s.Below t → t.Has v →
      AlikeValue S σ x t t' (p.run n (f.placed (pc + 1) ⟨ls, [v]⟩) [])
        (p.run n (f.placed (pc + 1) ⟨ls.map (Value.rename σ), [v.rename σ]⟩) [])) :
    AlikeValue S σ x s s' (p.run b (f.placed pc ⟨ls, args.reverse ++ [.host Platform.context handle]⟩) [])
      (p.run b (f.placed pc ⟨ls.map (Value.rename σ),
        (args.map (Value.rename σ)).reverse ++ [.host Platform.context (σ.handle handle)]⟩) []) := by
  cases b with
  | zero => exact run_zero h _ _
  | succ b =>
      have hc' : Framework.OnObject c (args.map (Value.rename σ)).length := by rwa [List.length_map]
      rw [Program.run_onHost args hc hahead, Program.run_onHost _ hc' hahead]
      refine bind (invokeHost h hp.pure _ (fun object hobject => .inr (.inl ?_)) ho.stack) fun v t t' ht hle hv => ?_
      · rw [hhandle] at hobject
        exact (Option.some.inj hobject).symm
      · exact hrest b v t t' ht hle hv

/-- The context is put on the stack. -/
theorem run_loadContext {st st' : List Value} (hahead : f.Ahead labels pc (loadContext :: is)) (h : Twins S σ x s s')
    (hctx : ls[1]? = some (.host Platform.context handle))
    (hrest : ∀ n, AlikeValue S σ x s s'
      (p.run n (f.placed (pc + 1) ⟨ls, .host Platform.context handle :: st⟩) [])
      (p.run n (f.placed (pc + 1) ⟨ls.map (Value.rename σ), .host Platform.context (σ.handle handle) :: st'⟩) [])) :
    AlikeValue S σ x s s' (p.run b (f.placed pc ⟨ls, st⟩) [])
      (p.run b (f.placed pc ⟨ls.map (Value.rename σ), st'⟩) []) := by
  have hctx' : (ls.map (Value.rename σ))[1]? = some (.host Platform.context (σ.handle handle)) := by
    rw [Array.getElem?_map, hctx]
    rfl
  cases b with
  | zero => exact run_zero h _ _
  | succ b =>
      rw [Program.run_simple hahead rfl rfl, Program.run_simple hahead rfl rfl, Program.effect_loadContext hctx,
        Program.effect_loadContext hctx', pure_bind, pure_bind]
      exact hrest b

/-- Sending is a call on the context, with one argument. -/
theorem onContext_send : Framework.OnObject Framework.send 1 := ⟨by decide, nofun, rfl⟩

/-- The answer of a method without a result: unless the response has been started, it is sent. -/
theorem run_answer_void (hp : p.Steady S) (hahead : f.Ahead labels pc (answerCode .void))
    (hlabels : labels = answerLabels pc .void) (hsize : f.method.code.size < 65536) (h : Twins S σ x s s')
    (hctx : ls[1]? = some (.host Platform.context handle)) (hhandle : s.handles[handle]? = some (.context x))
    (hls : s.HasOperands ⟨ls, []⟩) :
    AlikeValue S σ x s s' (p.run b (f.placed pc ⟨ls, []⟩) [])
      (p.run b (f.placed pc ⟨ls.map (Value.rename σ), []⟩) []) := by
  have hstarted : Framework.OnObject Framework.isResponseStarted 0 := ⟨by decide, nofun, rfl⟩
  have htail : f.Ahead labels (pc + 5) ((answerCode .void).drop 5) := hahead.tail.tail.tail.tail.tail
  obtain ⟨last, hlast, -⟩ := htail.tail.tail.tail.head
  have hlt : pc + 8 < f.method.code.size := (Array.getElem?_eq_some_iff.mp hlast).1
  refine run_loadContext hahead h hctx fun n => ?_
  refine run_onContext [] hp hstarted hahead.tail h hhandle hls fun n v t t' ht hle hv => ?_
  cases n with
  | zero => exact run_zero ht _ _
  | succ n =>
      -- The branch goes behind the return if no response was started; the place has to fit into the jump.
      have hjump (ls : Array Value) (v : Value) :
          p.run (n + 1) (f.placed (pc + 1 + 1) ⟨ls, [v]⟩) [] = v.asInt >>= fun started =>
            p.run n (f.placed (if started == 0 then pc + 5 else pc + 3) ⟨ls, []⟩) [] := by
        obtain ⟨target, hlabel, hjump⟩ := Program.run_ifFalse (p := p) (b := n) hahead.tail.tail ls v [] []
        rw [hlabels] at hlabel
        cases hlabel
        rwa [toNat_saturate16_of_lt (by omega)] at hjump
      rw [hjump, hjump]
      refine bind (asInt ht) fun started u u' hu hle' _ => ?_
      dsimp only [id]
      have hhandle := hle'.hostObject (hle.hostObject hhandle)
      have hls := (hls.mono hle).mono hle'
      split
      · -- No response yet: one without content is sent.
        refine run_loadContext htail hu hctx fun n => ?_
        cases n with
        | zero => exact run_zero hu _ _
        | succ n =>
            rw [Program.run_simple htail.tail rfl rfl, Program.run_simple htail.tail rfl rfl]
            refine run_onContext [.status noContent] hp onContext_send htail.tail.tail hu hhandle
              (hls.push (has_of_refs rfl)) fun n w y y' hy hle'' hw => ?_
            exact run_returnValue htail.tail.tail.tail hy ((hls.mono hle'').push hw)
      · -- There is a response already: the context is given back as it is.
        refine run_loadContext hahead.tail.tail.tail hu hctx fun n => ?_
        refine run_returnValue hahead.tail.tail.tail.tail hu (hls.push ?_)
        exact hls.locals _ (Array.mem_of_getElem? hctx)

/-- **The answer** is made alike. -/
theorem run_answer (hp : p.Steady S) {o : Outcome} (hahead : f.Ahead labels pc (answerCode o))
    (hlabels : labels = answerLabels pc o) (hsize : f.method.code.size < 65536) (h : Twins S σ x s s')
    (hctx : ls[1]? = some (.host Platform.context handle)) (hhandle : s.handles[handle]? = some (.context x))
    (hls : s.HasOperands ⟨ls, []⟩) (hv : s.Has v) (hb : b ≤ p.stepLimit) :
    AlikeValue S σ x s s'
      (p.run b (f.placed pc ((Operands.mk ls []).receive (!decide (o = .void)) v)) [])
      (p.run b (f.placed pc ((Operands.mk (ls.map (Value.rename σ)) []).receive (!decide (o = .void))
        (v.rename σ))) []) := by
  cases o with
  | void => exact run_answer_void hp hahead hlabels hsize h hctx hhandle hls
  | primitive kind =>
      have hahead : f.Ahead labels pc ([(Framework.box kind).instr] ++ [.returnValue]) := hahead
      have hname : (Framework.box kind).name ∉ statefulNames := (by decide : "valueOf" ∉ statefulNames)
      have hbox := (Gentle.call (Framework.box_mem kind) hname .nil).repeats hp
      refine run_effects hahead (by simp; rfl) ?_ hb (hbox σ x s s' ⟨ls, [v]⟩ b h (hls.push hv)) ?_
      · exact List.forall_mem_singleton.mpr (Program.tame_of_callee rfl)
      · intro n w t t' _ _ ht _ hw
        exact run_returnValue hahead.append ht hw
  | statusCode =>
      refine run_loadContext hahead h hctx fun n => ?_
      have hcode := hahead.tail
      cases n with
      | zero => exact run_zero h _ _
      | succ n =>
          rw [Program.run_simple hcode rfl rfl, Program.run_simple hcode rfl rfl]
          refine run_onContext [v] hp onContext_send hcode.tail h hhandle (hls.push hv) fun n w t t' ht hle hw => ?_
          exact run_returnValue hcode.tail.tail ht ((hls.mono hle).push hw)
  | reference t => exact run_returnValue hahead h (hls.push hv)
  | context => exact run_returnValue hahead h (hls.push hv)
  | parameterized base args => exact run_returnValue hahead h (hls.push hv)

end Alike

namespace Alike

variable {p : Program} {S s s' : Store} {σ : Renaming} {x b : Nat} {e : Endpoint} {u : CodeUnit} {m : Method}
  {i : Inference} {f : Frame} {receiver : Value} {args : List Value} {className : String} {handle controller : Nat}

/-- Once the controller and the arguments are there, the method is called and the answer made alike. -/
theorem run_callAndAnswer (hp : p.Steady S) (hm : Handling e u m i) (hlength : args.length = e.params.length)
    (hf : f = .start u m receiver [.host Platform.context handle] true)
    (hframe : p.Activation f (f.placed (callCode (handlerName e) e).dropLast.length
      ⟨#[receiver, .host Platform.context handle], args.reverse ++ [.host className controller]⟩))
    (h : Twins S σ x s s') (hhandle : s.handles[handle]? = some (.context x))
    (hcontroller : ∃ stub, s.handles[controller]? = some (.stub stub))
    (ho : s.HasOperands ⟨#[receiver, .host Platform.context handle], args.reverse ++ [.host className controller]⟩)
    (hb : b ≤ p.stepLimit) :
    AlikeValue S σ x s s'
      (p.run b (f.placed (callCode (handlerName e) e).dropLast.length
        ⟨#[receiver, .host Platform.context handle], args.reverse ++ [.host className controller]⟩) [])
      (p.run b (f.placed (callCode (handlerName e) e).dropLast.length
        ((⟨#[receiver, .host Platform.context handle], args.reverse ++ [.host className controller]⟩ :
          Operands).rename σ)) []) := by
  cases b with
  | zero => exact run_zero h _ _
  | succ b =>
      have hrename : (⟨#[receiver, .host Platform.context handle], args.reverse ++ [.host className controller]⟩ :
          Operands).rename σ = ⟨#[receiver, .host Platform.context handle].map (Value.rename σ),
            (args.map (Value.rename σ)).reverse ++ [.host className (σ.handle controller)]⟩ := by
        simp [Operands.rename, Value.rename]
      have hargs : ∀ v ∈ args, s.Has v := fun v hv =>
        ho.stack v (List.mem_append_left _ (List.mem_reverse.mpr hv))
      rw [hrename, Program.run_call hm hlength hf hframe _ rfl controller,
        Program.run_call hm hlength hf hframe _ (List.length_map _)]
      -- The controller is code of the application, and so alike by assumption.
      have hinvoke : AlikeValue S σ x s s' (p.invoke (.host className controller) e.name args)
          (p.invoke (.host className (σ.handle controller)) e.name (args.map (Value.rename σ))) := by
        obtain ⟨stub, hstub⟩ := hcontroller
        refine invokeHost h hp.pure className (fun object hobject => .inr (.inr ⟨stub, ?_⟩)) hargs
        exact Option.some.inj (hobject.symm.trans hstub)
      refine bind_of hinvoke fun v t t' hv ht hle hvHas => ?_
      rw [Program.keeps_of_call hm hlength hf hframe hv]
      have hanswer := (Program.ahead_call hm hf).tail
      rw [Program.length_dropLast_callCode] at hanswer
      have hsize : f.method.code.size < 65536 := by
        rw [hf]
        exact hm.size
      have hls : t.HasOperands ⟨#[receiver, .host Platform.context handle], []⟩ :=
        ⟨fun v hv => (ho.locals v hv).mono hle, List.forall_mem_nil _⟩
      exact run_answer hp hanswer rfl hsize ht rfl (hle.hostObject hhandle) hls hvHas (Nat.le_of_succ_le hb)

end Alike

/-! ## Dispatching -/

/-- Since then no provider has changed. -/
theorem Store.Since.provides {S s : Store} {xs : List Nat} {number controller : Nat} {className : String}
    (h : S.Since xs s) (hS : S.Provides number className controller) : s.Provides number className controller :=
  hS.mono h.below h.objects

/-- **A handler answers alike** on stores beside each other. -/
theorem Alike.dispatch {p : Program} {S s s' : Store} {σ : Renaming} {x : Nat} {e : Endpoint} {u : CodeUnit}
    {number controller : Nat} {className : String} (hu : handlerUnit e = .ok u) (hunit : p.unit? u.name = some u)
    (hp : p.Steady S) (hS : S.Provides number className controller) (h : Twins S σ x s s') :
    AlikeValue S σ x s s' (p.dispatch (.object u.name number) x) (p.dispatch (.object u.name number) x) := by
  obtain ⟨m, i, hm⟩ := handling_of_handlerUnit hu
  rw [Program.dispatch_eq hunit hm]
  have hcontext : ∀ v ∈ (HostObject.context x).held, s.Has v := List.forall_mem_nil _
  refine bind_of (handleTo h Platform.context hcontext) fun ctx t t' hctx ht _ hctxHas => ?_
  cases hctx
  let ctx : Value := .host Platform.context s.handles.size
  have hhandle : (s.newHandle Platform.context (.context x)).2.handles[s.handles.size]? = some (.context x) := by
    simp [Store.newHandle]
  have hplain := plain_callCode (handlerName e) e
  have hstraight : ∀ i ∈ (callCode (handlerName e) e).dropLast, i.isStraight = true := fun i hi =>
    (hplain i hi).straight
  have hahead := hm.ahead (.object u.name number) [ctx] true
  have hoperands : (s.newHandle Platform.context (.context x)).2.HasOperands ⟨#[.object u.name number, ctx], []⟩ := by
    refine ⟨fun v hv => ?_, List.forall_mem_nil _⟩
    rcases List.mem_cons.mp (Array.mem_toList_iff.mpr hv) with rfl | hv
    · exact has_of_refs rfl
    · rw [List.mem_singleton.mp hv]
      exact hctxHas
  -- Up to the call the code goes straight, and does the same on both stores.
  have hbefore := (Gentle.beforeCall (handlerName e) e).repeats hp σ x _ _ _ p.stepLimit ht hoperands
  have hrename : (⟨#[.object u.name number, ctx], []⟩ : Operands).rename σ =
      ⟨#[.object u.name number, ctx.rename σ], []⟩ := by simp [Operands.rename, Value.rename]
  rw [hrename] at hbefore
  have htame : ∀ i ∈ (callCode (handlerName e) e).dropLast, p.Tame False i := fun i hi =>
    Program.tame_of_plain (hplain i hi) fun _ => hp.quiet
  refine run_effects hahead hstraight htame (Nat.le_refl _) hbefore fun n w t₁ t₁' hw hn ht₁ hle hhas => ?_
  -- What has been put on the stack is the controller with the arguments.
  obtain ⟨args, hlength, rfl⟩ := Program.operands_beforeCall hp.unshadowed hm (ht.since.provides hS) hw
  have hentry : p.Activation (.start u m (.object u.name number) [ctx] true)
      ((Frame.start u m (.object u.name number) [ctx] true).placed 0 ⟨#[.object u.name number, ctx], []⟩) := .entry
  have hframe := hentry.effects hahead hstraight hw
  rw [Nat.zero_add] at hframe ⊢
  exact run_callAndAnswer hp hm hlength rfl hframe ht₁ (hle.hostObject hhandle) (ht₁.since.provides hS).stub hhas hn

/-! ## Sequences of dispatches -/

/-- The store after requests have been dispatched to a handler, one after the other, whatever came of each. -/
def Program.storeAfter (p : Program) (handler : Value) (s : Store) (xs : List Nat) : Store :=
  xs.foldl (fun s x => (s.perform (p.dispatch handler x)).2) s

/-- What has become of the response to an exchange: whether it has started, and the status codes sent. -/
def Store.response? (s : Store) (x : Nat) : Option (Bool × List UInt16) :=
  (s.exchanges[x]?).map fun e => (e.started, e.sent)

section

variable {p : Program} {s : Store} {e : Endpoint} {u : CodeUnit} {number controller : Nat} {className : String}

/-- **A dispatch leaves all as it was**, apart from the response to its exchange. -/
theorem Program.since_dispatch (hu : handlerUnit e = .ok u) (hunit : p.unit? u.name = some u) (hp : p.Steady s)
    (hs : s.Sound) (hprovides : s.Provides number className controller) (x : Nat) :
    s.Since [x] (s.perform (p.dispatch (.object u.name number) x)).2 ∧
      (s.perform (p.dispatch (.object u.name number) x)).2.Sound := by
  have h := Alike.dispatch hu hunit hp hprovides ((Since.refl s []).twins hs (x := x) List.not_mem_nil)
  exact ⟨h.twins.since, h.twins.sound⟩

/-- So does a sequence of dispatches, apart from the responses to its exchanges. -/
theorem Program.since_storeAfter (hu : handlerUnit e = .ok u) (hunit : p.unit? u.name = some u) (hp : p.Steady s)
    (hs : s.Sound) (hprovides : s.Provides number className controller) (xs : List Nat) :
    s.Since xs (p.storeAfter (.object u.name number) s xs) ∧ (p.storeAfter (.object u.name number) s xs).Sound := by
  induction xs generalizing s with
  | nil => exact ⟨.refl s [], hs⟩
  | cons x xs ih =>
      obtain ⟨hsince, hsound⟩ := since_dispatch hu hunit hp hs hprovides x
      obtain ⟨hrest, hend⟩ := ih (hp.mono hsince.below) hsound (hsince.provides hprovides)
      exact ⟨hsince.trans hrest, hend⟩

/-- A dispatch after others comes to what it comes to before them, and so does the response. -/
theorem Program.dispatch_later (hu : handlerUnit e = .ok u) (hunit : p.unit? u.name = some u) (hp : p.Steady s)
    (hs : s.Sound) (hprovides : s.Provides number className controller) {t : Store} {xs : List Nat}
    (ht : s.Since xs t) {x : Nat} (hx : x ∉ xs) :
    (t.perform (p.dispatch (.object u.name number) x)).1 =
        (s.perform (p.dispatch (.object u.name number) x)).1.map (Value.rename (s.after t)) ∧
      (t.perform (p.dispatch (.object u.name number) x)).2.response? x =
        (s.perform (p.dispatch (.object u.name number) x)).2.response? x := by
  have h := Alike.dispatch hu hunit hp hprovides (ht.twins hs hx)
  refine ⟨h.outcome, ?_⟩
  unfold Store.response?
  rw [h.twins.exchange, Option.map_map]
  rfl

end

/-- **Handlers are stateless.** Let the provider of a handler give a controller, and let the calls of generated code
reach the framework: no unit has a method that is named like one of it, and no static method of the application stands
in place of one.

Then a dispatch to the handler changes no field of any object, whatever the code of the application does with all else.
And if this code is functions of its arguments, then in a sequence of dispatches with different exchanges, in any order,
each comes to what it comes to alone, up to the numbers of new arrays and handles, and in the end the response to its
exchange is what it is after this dispatch alone. -/
theorem dispatches_independent {e : Endpoint} {enc : EncodedUnit} (h : compileHandler e = .ok enc) :
    ∃ u, CodeUnit.decode enc.bytes = .ok u ∧ u.name = handlerName e ∧
      ∀ p : Program, p.unit? u.name = some u → p.Unshadowed → (∀ c ∈ Framework.catalogue, p.Quiet c.name) →
        ∀ (s : Store) (number controller : Nat) (className : String), s.Provides number className controller →
          let handler : Value := .object u.name number
          (p.Sparing → ∀ x, (s.perform (p.dispatch handler x)).2.objects = s.objects) ∧
            (p.Pure s → s.Sound → ∀ (before : List Nat) (x : Nat) (later : List Nat), (before ++ x :: later).Nodup →
              ((p.storeAfter handler s before).perform (p.dispatch handler x)).1 =
                  (s.perform (p.dispatch handler x)).1.map (Value.rename (s.after (p.storeAfter handler s before))) ∧
                (p.storeAfter handler s (before ++ x :: later)).response? x =
                  (s.perform (p.dispatch handler x)).2.response? x) := by
  obtain ⟨u, hu, henc⟩ := compileHandler_eq_ok.mp h
  obtain ⟨a, -, hgenerated⟩ := handlerUnit_eq_ok hu
  refine ⟨u, hgenerated.decode (by decide) henc, hgenerated.name, ?_⟩
  intro p hunit hunshadowed hquiet s number controller className hprovides
  refine ⟨fun hp x => Spares.dispatch hp hquiet hunshadowed hu hunit hprovides x, ?_⟩
  intro hpure hs before x later hnodup
  have hp : p.Steady s := ⟨hpure, hunshadowed, hquiet⟩
  obtain ⟨-, hrest, hdisjoint⟩ := List.nodup_append.mp hnodup
  have hbefore : x ∉ before := fun hx => hdisjoint x hx x List.mem_cons_self rfl
  have hlater : x ∉ later := (List.nodup_cons.mp hrest).1
  obtain ⟨hsince, hsound⟩ := Program.since_storeAfter hu hunit hp hs hprovides before
  obtain ⟨houtcome, hresponse⟩ := Program.dispatch_later hu hunit hp hs hprovides hsince hbefore
  refine ⟨houtcome, ?_⟩
  -- The dispatches behind it leave the response alone.
  have hp' := hp.mono hsince.below
  have hprovides' := hsince.provides hprovides
  obtain ⟨hnext, hsound'⟩ := Program.since_dispatch hu hunit hp' hsound hprovides' x
  obtain ⟨hend, -⟩ :=
    Program.since_storeAfter hu hunit (hp'.mono hnext.below) hsound' (hnext.provides hprovides') later
  have happend : p.storeAfter (.object u.name number) s (before ++ x :: later) =
      p.storeAfter (.object u.name number) ((p.storeAfter (.object u.name number) s before).perform
        (p.dispatch (.object u.name number) x)).2 later := List.foldl_append
  rw [happend, ← hresponse]
  unfold Store.response?
  rw [hend.exchange x hlater]

/-! ## Handlers at work -/

/-- A pure program is sparing. -/
theorem Program.Pure.sparing {p : Program} {s : Store} (h : p.Pure s) : p.Sparing where
  stubs stub hstub m hm args t := congrArg Store.objects ((h.stubs stub hstub m hm).store t args)
  statics e he args t := congrArg Store.objects ((h.statics e he).store t args)

/-- The handler that counts, and two requests. -/
def tallyBoth : Store :=
  { tallyStore with
    exchanges := #[⟨{ Request.empty with texts := [(.query, "from", "3")] }, false, []⟩,
      ⟨{ Request.empty with texts := [(.query, "from", "5")] }, false, []⟩] }

/-- The store with two requests of the tally is sound. -/
theorem sound_tallyBoth : tallyBoth.Sound :=
  .of_arrays (closed_of_forall_mem (by decide) (by decide) (by decide) (by decide)) rfl

/-- The only code of the application gives back its argument. -/
theorem pure_tallyProgram (u : CodeUnit) (limit : Nat) (s : Store) : (tallyProgram u limit).Pure s where
  stubs stub hstub m hm := by
    obtain rfl := List.mem_singleton.mp (Array.mem_toList_iff.mpr hstub)
    obtain rfl := List.mem_singleton.mp hm
    exact HostCode.pure_argument 0
  statics e he := by cases he

theorem dispatches_independent_tally :
    ∃ enc u, compileHandler tally = .ok enc ∧ CodeUnit.decode enc.bytes = .ok u ∧
      (tallyProgram u 100000).unit? u.name = some u ∧ (tallyProgram u 100000).Unshadowed ∧
      (∀ c ∈ Framework.catalogue, (tallyProgram u 100000).Quiet c.name) ∧ tallyBoth.Provides 0 "app.Tally" 1 ∧
      (tallyProgram u 100000).Sparing ∧ (tallyProgram u 100000).Pure tallyBoth ∧ tallyBoth.Sound ∧
      ([1] ++ 0 :: [] : List Nat).Nodup ∧
      (tallyBoth.perform ((tallyProgram u 100000).dispatch (.object u.name 0) 1)).2.objects = tallyBoth.objects ∧
      (((tallyProgram u 100000).storeAfter (.object u.name 0) tallyBoth [1]).perform
          ((tallyProgram u 100000).dispatch (.object u.name 0) 0)).1 =
        (tallyBoth.perform ((tallyProgram u 100000).dispatch (.object u.name 0) 0)).1.map (Value.rename
          (tallyBoth.after ((tallyProgram u 100000).storeAfter (.object u.name 0) tallyBoth [1]))) ∧
      ((tallyProgram u 100000).storeAfter (.object u.name 0) tallyBoth ([1] ++ 0 :: [])).response? 0 =
        (tallyBoth.perform ((tallyProgram u 100000).dispatch (.object u.name 0) 0)).2.response? 0 := by
  obtain ⟨enc, u, hcompile, hu, hdecode⟩ := exists_tallyUnit
  obtain ⟨u', hdecode', -, hindependent⟩ := dispatches_independent hcompile
  obtain rfl := Except.ok.inj (hdecode.symm.trans hdecode')
  have hunit := unit?_tallyProgram u 100000
  have hunshadowed : (tallyProgram u 100000).Unshadowed := fun _ _ _ => rfl
  have hquiet := quiet_tallyProgram hu 100000
  have hpure := pure_tallyProgram u 100000 tallyBoth
  have hprovides : tallyBoth.Provides 0 "app.Tally" 1 := ⟨⟨_, _, rfl, rfl⟩, _, rfl⟩
  have hnodup : ([1] ++ 0 :: [] : List Nat).Nodup := by decide
  obtain ⟨hobjects, hsequence⟩ := hindependent _ hunit hunshadowed hquiet tallyBoth 0 1 "app.Tally" hprovides
  obtain ⟨houtcome, hresponse⟩ := hsequence hpure sound_tallyBoth [1] 0 [] hnodup
  exact ⟨enc, u, hcompile, hdecode, hunit, hunshadowed, hquiet, hprovides, hpure.sparing, hpure, sound_tallyBoth,
    hnodup, hobjects hpure.sparing 1, houtcome, hresponse⟩

/-! ### What other units and static methods can do -/

def polled : Endpoint :=
  { tally with
    params := [{ name := "from", source := "", binding := .context, type := .primitive .int, nullable := false }] }

/-- A unit whose objects are numbers. One takes away the provider of the handler that it holds, when it is asked for
its value. -/
def taker : CodeUnit where
  name := "gen.Taker"
  role := .handler
  interfaces := ["lang.Integer"]
  pool := ⟨#[.field ⟨"gen.Taker", "held", "Llang.Object;"⟩, .classRef (handlerName polled),
    .field ⟨handlerName polled, Framework.providerField, "Ldaedalus.runtime.Provider;"⟩]⟩
  fields := [⟨"held", .object "lang.Object"⟩]
  methods := [
    { name := "intValue"
      signature := ⟨[], some .int⟩
      maxStack := 2
      maxLocals := 1
      code := #[.onLocal .load 0, .onConst .getField 0, .onConst .checkCast 1, .bare .pushNull, .onConst .putField 2,
        .pushInt 7, .bare .returnValue] }]

def takerProgram (u : CodeUnit) : Program :=
  { tallyProgram u 100000 with
    units := [u, taker]
    hierarchy := Framework.hierarchy.add "gen.Taker" "lang.Integer" }

/-- A request with a plain number, and one with an object that holds the handler. -/
def takerStore : Store :=
  { tallyStore with
    objects := #[[(Framework.providerField, .host Platform.provider 0)], [("held", .object (handlerName polled) 0)]]
    exchanges := #[⟨{ Request.empty with values := [("lang.Integer", .boxedInt 3)] }, false, []⟩,
      ⟨{ Request.empty with values := [("lang.Integer", .object "gen.Taker" 1)] }, false, []⟩] }

/-- An endpoint without a result, that takes what there may be from the context. -/
def noted : Endpoint :=
  { tally with
    params := [{
      name := "at", source := "", binding := .context, type := .named Platform.optional [.named "app.At" []]
      nullable := false }]
    returnType := .void }

/-- A handler together with a static method in place of one of the framework, which starts the responses of the contexts
that it is given. -/
def starterProgram (u : CodeUnit) : Program :=
  { tallyProgram u 100000 with statics := [(⟨Platform.optional, "ofNullable"⟩, .starting)] }

/-- A request with a text, and one with the context of the first. -/
def starterStore : Store :=
  { tallyStore with
    handles := #[.provider (.host "app.Tally" 1), .stub 0, .context 0]
    exchanges := #[⟨{ Request.empty with values := [("app.At", .text "b")] }, false, []⟩,
      ⟨{ Request.empty with values := [("app.At", .host Platform.context 2)] }, false, []⟩] }

/-- What can be computed of the unit that is made for an endpoint. -/
theorem forall_unit_of_any {e : Endpoint} {P : CodeUnit → Prop} [DecidablePred P]
    (h : (handlerUnit e).toOption.any (fun u => decide (P u)) = true) : ∀ u, handlerUnit e = .ok u → P u := by
  intro u hu
  rw [hu] at h
  exact of_decide_eq_true h

/-- **Other units and static methods can make dispatches depend on each other.** A method of a unit that is named like
one of the framework is called in its stead, and can take away the provider of the handler; then the next dispatch
fails. A static method in place of one of the framework can start the response of another exchange; then that exchange
is not answered. -/
theorem dispatches_interfere :
    (∃ enc u, compileHandler polled = .ok enc ∧ CodeUnit.decode enc.bytes = .ok u ∧
      (takerProgram u).unit? u.name = some u ∧ (takerProgram u).Pure takerStore ∧ takerStore.Sound ∧
      takerStore.Provides 0 "app.Tally" 1 ∧ u.verify (takerProgram u).hierarchy = .ok () ∧
      taker.verify (takerProgram u).hierarchy = .ok () ∧
      ((takerStore.perform ((takerProgram u).dispatch (.object u.name 0) 1)).2.field 0
        Framework.providerField).className? = none ∧
      (takerStore.perform ((takerProgram u).dispatch (.object u.name 0) 0)).1.isOk = true ∧
      (((takerProgram u).storeAfter (.object u.name 0) takerStore [1]).perform
        ((takerProgram u).dispatch (.object u.name 0) 0)).1.isOk = false) ∧
    ∃ enc u, compileHandler noted = .ok enc ∧ CodeUnit.decode enc.bytes = .ok u ∧
      (starterProgram u).unit? u.name = some u ∧ (tallyProgram u 100000).Pure starterStore ∧ starterStore.Sound ∧
      starterStore.Provides 0 "app.Tally" 1 ∧ u.verify (starterProgram u).hierarchy = .ok () ∧
      (starterStore.perform ((starterProgram u).dispatch (.object u.name 0) 0)).2.response? 0 = some (true, [204]) ∧
      ((starterProgram u).storeAfter (.object u.name 0) starterStore [1, 0]).response? 0 = some (true, []) := by
  constructor
  · obtain ⟨enc, u, hcompile, hu, hdecode⟩ := exists_unit_of_isOk (e := polled) (by decide +kernel)
    have hsound : takerStore.Sound :=
      .of_arrays (closed_of_forall_mem (by decide) (by decide) (by decide) (by decide)) rfl
    have hpure := pure_tallyProgram u 100000 takerStore
    refine ⟨enc, u, hcompile, hdecode, by simp [Program.unit?, takerProgram, findUnit?], ⟨hpure.stubs, hpure.statics⟩,
      hsound, ⟨⟨_, _, rfl, rfl⟩, _, rfl⟩, ?_⟩
    clear hdecode hpure
    revert u
    exact forall_unit_of_any (by decide +kernel)
  · obtain ⟨enc, u, hcompile, hu, hdecode⟩ := exists_unit_of_isOk (e := noted) (by decide +kernel)
    have hsound : starterStore.Sound :=
      .of_arrays (closed_of_forall_mem (by decide) (by decide) (by decide) (by decide)) rfl
    refine ⟨enc, u, hcompile, hdecode, by simp [Program.unit?, starterProgram, tallyProgram, findUnit?],
      pure_tallyProgram u 100000 _, hsound, ⟨⟨_, _, rfl, rfl⟩, _, rfl⟩, ?_⟩
    clear hdecode
    revert u
    exact forall_unit_of_any (by decide +kernel)

end Routecraft.Machine
