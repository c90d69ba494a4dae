import Routecraft.Proofs.Compile.Interpreting
import Routecraft.Proofs.Compile.Linking
import Routecraft.Proofs.Format.Signatures
import Routecraft.Proofs.Verification.Shapes

/-!
# Handlers answer as their endpoints are described

A handler gets the controller from its provider, takes the arguments from the request, calls the method of its
endpoint, and makes the answer from the result.

* `Handling`: what is known of the code that a handler answers with.
* `Handling.signatureOf_binder`, `Handling.signatureOf_call`: its calls are read as they were written.
* `Program.run_answer`: a run through the code of an answer.
* `dispatch_responds`: a handler does what the interpreter of its endpoint does.
-/

namespace Routecraft.Machine

open Bytecode Compile

/-! ## The accepted code -/

/-- What is known of the method that a handler answers with: its code is that of the endpoint, and what is inferred
for it is stable. -/
structure Handling (e : Endpoint) (u : CodeUnit) (m : Method) (i : Inference) : Prop where
  method : u.method? Framework.applyName = some m
  supported : ∀ q ∈ e.params, (bindingCode q).fault = none
  signature : m.signature = Framework.applySignature
  size : m.code.size < 65536
  code : List.Forall₂ (Instr.Resolves u.pool (answerLabels (callCode (handlerName e) e).length e.outcome))
    m.code.toList (callCode (handlerName e) e ++ answerCode e.outcome)
  stable : i.Stable ⟨u.pool, u.hierarchyWith Framework.hierarchy, m.signature.result⟩ m.code Wider
    (.entry u.name m.signature.params)

/-- The unit of a handler handles its method. -/
theorem handling_of_handlerUnit {e : Endpoint} {u : CodeUnit} (h : handlerUnit e = .ok u) :
    ∃ m i, Handling e u m i := by
  obtain ⟨a, ha, hgenerated⟩ := handlerUnit_eq_ok h
  obtain ⟨hsupported, hinstrs, hlabels⟩ := applyCode_eq_ok ha
  obtain ⟨m, hmethod, hm⟩ := hgenerated.main? (by decide)
  have hcode := hm.code
  rw [hinstrs, hlabels] at hcode
  have hverify : u.verify Framework.hierarchy = .ok () := by
    apply hgenerated.verify (fun e he => he)
    intro code hcode hsize
    rw [hinstrs, hlabels] at hcode
    exact apply_singleEntry hcode hsize
  obtain ⟨i, hi, -, -⟩ := u.infer_of_verifyWithin hverify (List.mem_of_find?_eq_some hmethod)
  exact ⟨m, i, hmethod, hsupported, hm.signature, hm.size, hcode, u.infer_stable (wider_joinOrder _) hi⟩

namespace Handling

variable {e : Endpoint} {u : CodeUnit} {m : Method} {i : Inference}

/-- The checker has come to each instruction and accepted it. -/
theorem accepted (h : Handling e u m i) {index : Nat} {j' : Instr Constant}
    (hj' : (callCode (handlerName e) e ++ answerCode e.outcome)[index]? = some j') :
    ∃ j t flow t', Instr.Resolves u.pool (answerLabels (callCode (handlerName e) e).length e.outcome) j j' ∧
      i.at? index = some t ∧
      Checker.step ⟨u.pool, u.hierarchyWith Framework.hierarchy, m.signature.result⟩ t j = .ok (flow, t') := by
  obtain ⟨j, hj, hresolves⟩ := Code.resolved_at h.code hj'
  obtain ⟨t, ht⟩ := h.stable.reached (Array.getElem?_eq_some_iff.mp hj).1
  obtain ⟨instr, flow, t', hinstr, hstep, -⟩ := h.stable.settled ht
  rw [hj] at hinstr
  cases hinstr
  exact ⟨j, t, flow, t', hresolves, ht, hstep⟩

/-- The code has room for its indices. -/
theorem length_lt (h : Handling e u m i) :
    (callCode (handlerName e) e).length + (answerCode e.outcome).length < 65536 := by
  rw [← List.length_append, ← h.code.length_eq, Array.length_toList]
  exact h.size

/-- The code of a parameter with a binder calls the binder. -/
theorem mem_bindingCode_binder {q : Parameter} {binder : MethodName} {name : String} {args : List TypeExpr}
    (hbinding : q.binding = .bound (some binder)) (htype : q.type = .named name args) :
    .invokeStatic binder.owner binder.name (Program.binderSignature name) ∈ (bindingCode q).code := by
  unfold bindingCode
  rw [hbinding]
  unfold boundBinding
  rw [htype]
  exact List.mem_cons_of_mem _ (List.mem_singleton_self _)

/-- The signature of a binder is read as it was written. -/
theorem signatureOf_binder (h : Handling e u m i) {q : Parameter} (hq : q ∈ e.params) {binder : MethodName}
    {name : String} {args : List TypeExpr} (hbinding : q.binding = .bound (some binder))
    (htype : q.type = .named name args) :
    Bytecode.signatureOf (Program.binderSignature name).descriptor = .ok (Program.binderSignature name) := by
  have hmem : .invokeStatic binder.owner binder.name (Program.binderSignature name) ∈
      callCode (handlerName e) e ++ answerCode e.outcome := by
    apply List.mem_append_left
    apply List.mem_append_left
    apply List.mem_append_right
    rw [List.mem_flatMap]
    exact ⟨q, hq, mem_bindingCode_binder hbinding htype⟩
  obtain ⟨index, hindex⟩ := List.mem_iff_getElem?.mp hmem
  obtain ⟨j, t, flow, t', hresolves, -, hstep⟩ := h.accepted hindex
  cases hresolves with
  | @onConst op k c hk =>
      cases Checker.hasEffect_of_step hstep with
      | @invokeStatic _ member s _ _ _ hmember hs =>
          rw [Pool.methodAt_eq_ok.mpr hk] at hmember
          cases hmember
          obtain ⟨hwell, hdescriptor⟩ := signatureOf_eq_ok.mp hs
          have hread : s = Program.binderSignature name := by
            apply Signature.eq_of_params hwell hdescriptor
            exact List.forall_mem_singleton.mpr (by decide)
          rw [hread] at hs
          exact hs

/-- A frame of the method that is before an instruction of the code. -/
theorem ahead (h : Handling e u m i) (receiver : Value) (args : List Value) (keeps : Bool) :
    (Frame.start u m receiver args keeps).Ahead (answerLabels (callCode (handlerName e) e).length e.outcome) 0
      ((callCode (handlerName e) e).dropLast ++
        .invokeVirtual e.owner e.name (Compile.signatureOf e) :: answerCode e.outcome) := by
  have hcode : callCode (handlerName e) e ++ answerCode e.outcome = (callCode (handlerName e) e).dropLast ++
      .invokeVirtual e.owner e.name (Compile.signatureOf e) :: answerCode e.outcome := by
    conv_lhs => rw [callCode_concat, List.append_assoc]
    rfl
  rw [← hcode]
  exact h.code

variable {p : Program} {receiver ctx : Value} {keeps : Bool} {o : Operands}

/-- Where the method of the endpoint is called, the stack is deep enough for the signature that the call is read
with; so this is the one that was written. -/
theorem signatureOf_call (h : Handling e u m i)
    (hframe : p.Activation (.start u m receiver [ctx] keeps)
      ((Frame.start u m receiver [ctx] keeps).placed (callCode (handlerName e) e).dropLast.length o))
    (hstack : o.stack.length = e.params.length + 1) :
    Bytecode.signatureOf (Compile.signatureOf e).descriptor = .ok (Compile.signatureOf e) := by
  have hcall : (callCode (handlerName e) e ++ answerCode e.outcome)[(callCode (handlerName e) e).dropLast.length]? =
      some (.invokeVirtual e.owner e.name (Compile.signatureOf e)) := by
    conv_lhs => rw [callCode_concat]
    simp
  obtain ⟨j, t, flow, t', hresolves, ht, hstep⟩ := h.accepted hcall
  have hargs : [ctx].length = m.signature.params.length := by rw [h.signature]; rfl
  obtain ⟨t₀, ht₀, hfits⟩ := (hframe.shaped h.stable hargs).fits
  rw [Frame.pc_placed, ht] at ht₀
  cases ht₀
  have hdepth : o.stack.length = t.stack.length := hfits.stack
  cases hresolves with
  | @onConst op k c hk =>
      cases Checker.hasEffect_of_step hstep with
      | @invokeVirtual _ member s ts _ xs _ hmember hs hts =>
          rw [Pool.methodAt_eq_ok.mpr hk] at hmember
          cases hmember
          obtain ⟨hwell, hdescriptor⟩ := signatureOf_eq_ok.mp hs
          have hread : s = Compile.signatureOf e := by
            apply Signature.eq_of_length_le hwell hdescriptor
            rw [List.length_append, List.length_reverse, List.length_cons] at hdepth
            have hparams : (Compile.signatureOf e).params.length = e.params.length := List.length_map _
            have := hts.length_eq
            omega
          rw [hread] at hs
          exact hs

/-- An endpoint whose method gives no result answers without one: an answer from a result would find none on the
stack. -/
theorem outcome_of_result (h : Handling e u m i)
    (hframe : p.Activation (.start u m receiver [ctx] keeps)
      ((Frame.start u m receiver [ctx] keeps).placed (callCode (handlerName e) e).length o))
    (hstack : o.stack = []) (hresult : (Compile.signatureOf e).result = none) : e.outcome = .void := by
  have hresult : dataType? e.returnType = none := hresult
  unfold Endpoint.outcome
  cases htype : e.returnType with
  | void => rfl
  | primitive kind =>
      rw [htype] at hresult
      simp [dataType?] at hresult
  | named name args =>
      rw [htype] at hresult
      simp [dataType?] at hresult
  | array element =>
      -- An array without a descriptor would be returned from an empty stack, which the checker does not accept.
      have houtcome : answerCode e.outcome = [.returnValue] := by
        unfold Endpoint.outcome
        rw [htype]
        rfl
      have hreturn : (callCode (handlerName e) e ++ answerCode e.outcome)[(callCode (handlerName e) e).length]? =
          some .returnValue := by
        rw [houtcome]
        simp
      obtain ⟨j, t, flow, t', hresolves, ht, hstep⟩ := h.accepted hreturn
      have hargs : [ctx].length = m.signature.params.length := by rw [h.signature]; rfl
      obtain ⟨t₀, ht₀, hfits⟩ := (hframe.shaped h.stable hargs).fits
      rw [Frame.pc_placed, ht] at ht₀
      cases ht₀
      have hdepth : o.stack.length = t.stack.length := hfits.stack
      cases hresolves
      cases Checker.hasEffect_of_step hstep with
      | returnValue =>
          rw [hstack] at hdepth
          simp at hdepth

end Handling

/-- Actions done for each of a list give as many values. -/
theorem length_of_mapM_eq_ok {α : Type} {f : α → Action Value} {xs : List α} {vs : List Value} {s s' : Store}
    (h : s.perform (xs.mapM f) = (.ok vs, s')) : vs.length = xs.length := by
  induction xs generalizing vs s with
  | nil =>
      cases h
      rfl
  | cons x xs ih =>
      rw [List.mapM_cons] at h
      obtain ⟨v, s₁, -, h⟩ := Store.perform_bind_eq_ok.mp h
      obtain ⟨vs', s₂, hvs, h⟩ := Store.perform_bind_eq_ok.mp h
      cases h
      rw [List.length_cons, List.length_cons, ih hvs]

/-! ## Answers -/

namespace Program

variable {p : Program} {f : Frame} {labels : Array (Option UInt16)} {pc b : Nat} {is : List (Instr Constant)}
  {ls : Array Value} {st : List Value} {handle : Nat}

/-- A call of the catalogue on a host object. -/
theorem run_onHost {c : Call} (args : List Value) (hc : Framework.OnObject c args.length)
    (hahead : f.Ahead labels pc (c.instr :: is)) (className : String) (handle : Nat) (callers : List Frame) :
    p.run (b + 1) (f.placed pc ⟨ls, args.reverse ++ .host className handle :: st⟩) callers =
      p.invoke (.host className handle) c.name args >>= fun v => p.run b (f.placed (pc + 1) ⟨ls, v :: st⟩) callers := by
  have hcallee : c.instr.callee? = some ⟨c.owner, c.name, c.signature.descriptor⟩ := by
    unfold Call.instr
    cases hdispatch : c.dispatch
    case static => exact absurd hdispatch hc.dispatch
    all_goals rfl
  rw [run_callHost hahead hcallee (Framework.signatureOf_of_mem hc.mem) args hc.params.symm className handle ⟨ls, st⟩,
    (Framework.catalogue_answers c hc.mem).2]
  rfl

/-- The answer without a result. -/
theorem run_answerNothing (hahead : f.Ahead labels pc (answerCode .void)) (hlabels : labels = answerLabels pc .void)
    (hsize : f.method.code.size < 65536) (hctx : ls[1]? = some (.host Platform.context handle)) (v : Value) :
    p.run (b + 9) (f.placed pc ⟨ls, []⟩) [] = p.answer (.host Platform.context handle) v .void := by
  have hstarted : Framework.OnObject Framework.isResponseStarted 0 := ⟨by decide, nofun, rfl⟩
  have hsend : Framework.OnObject Framework.send 1 := ⟨by decide, nofun, rfl⟩
  have hload {pc b : Nat} {is : List (Instr Constant)} {st : List Value}
      (hahead : f.Ahead labels pc (loadContext :: is)) : p.run (b + 1) (f.placed pc ⟨ls, st⟩) [] =
        p.run b (f.placed (pc + 1) ⟨ls, .host Platform.context handle :: st⟩) [] := by
    rw [run_simple hahead rfl rfl, effect_loadContext hctx, pure_bind]
  have htail : f.Ahead labels (pc + 5) ((answerCode .void).drop 5) := hahead.tail.tail.tail.tail.tail
  obtain ⟨last, hlast, -⟩ := htail.tail.tail.tail.head
  have hlt : pc + 8 < f.method.code.size := (Array.getElem?_eq_some_iff.mp hlast).1
  rw [hload hahead]
  refine (run_onHost [] hstarted hahead.tail _ handle []).trans (bind_congr fun started => ?_)
  obtain ⟨target, hlabel, hjump⟩ := run_ifFalse (p := p) (b := b + 6) hahead.tail.tail ls started [] []
  rw [hlabels] at hlabel
  cases hlabel
  rw [show b + 7 = b + 6 + 1 from rfl, hjump, toNat_saturate16_of_lt (by omega)]
  refine bind_congr fun n => ?_
  split
  · rw [hload htail, run_simple htail.tail rfl rfl]
    refine (run_onHost [.status noContent] hsend htail.tail.tail _ handle []).trans ?_
    conv_rhs => rw [← bind_pure (p.invoke _ _ _)]
    refine bind_congr fun v => ?_
    exact run_returnValue htail.tail.tail.tail []
  · rw [hload hahead.tail.tail.tail]
    exact run_returnValue hahead.tail.tail.tail.tail []

/-- **A run through the code of an answer** makes the answer from the result. -/
theorem run_answer (hp : p.Unshadowed) {o : Outcome} (hahead : f.Ahead labels pc (answerCode o))
    (hlabels : labels = answerLabels pc o) (hsize : f.method.code.size < 65536)
    (hctx : ls[1]? = some (.host Platform.context handle)) (hb : (answerCode o).length ≤ b) (v : Value) :
    p.run b (f.placed pc ((Operands.mk ls []).receive (!decide (o = .void)) v)) [] =
      p.answer (.host Platform.context handle) v o := by
  have hreturn {pc b : Nat} {is : List (Instr Constant)} {w : Value}
      (hahead : f.Ahead labels pc (.returnValue :: is)) : p.run (b + 1) (f.placed pc ⟨ls, [w]⟩) [] = pure w :=
    run_returnValue hahead []
  obtain ⟨b, rfl⟩ := Nat.exists_eq_add_of_le' hb
  cases o with
  | void => exact run_answerNothing hahead hlabels hsize hctx v
  | primitive kind =>
      show p.run (b + 2) (f.placed pc ⟨ls, [v]⟩) [] = pure (.boxed kind v)
      rw [run_simple hahead rfl rfl, effect_box hp, pure_bind]
      exact hreturn hahead.tail
  | statusCode =>
      have hsend : Framework.OnObject Framework.send 1 := ⟨by decide, nofun, rfl⟩
      show p.run (b + 4) (f.placed pc ⟨ls, [v]⟩) [] = p.invoke _ "send" [v]
      rw [run_simple hahead rfl rfl, effect_loadContext hctx, pure_bind, run_simple hahead.tail rfl rfl]
      refine (run_onHost [v] hsend hahead.tail.tail _ handle []).trans ?_
      conv_rhs => rw [← bind_pure (p.invoke _ _ _)]
      refine bind_congr fun w => ?_
      exact hreturn hahead.tail.tail.tail
  | reference t => exact hreturn hahead
  | context => exact hreturn hahead
  | parameterized base args => exact hreturn hahead

/-! ## Requests -/

/-- What a unit gets from the provider that an object of it holds, as the class of the controller. -/
def controllerOf (p : Program) (number : Nat) (owner : String) : Action Value := do
  p.cast owner (← p.invoke ((← get).field number Framework.providerField) "get" [])

/-- The code before the arguments leaves the controller. -/
theorem effects_getController (unit owner className : String) (number : Nat) (ctx : Value) :
    p.effects [.load 0, .getField unit Framework.providerField (.object Platform.provider), Framework.providerGet.instr,
        .checkCast (.object owner)] ⟨#[.object className number, ctx], []⟩ =
      p.controllerOf number owner >>= fun controller => pure ⟨#[.object className number, ctx], [controller]⟩ := by
  have hget : Framework.OnObject Framework.providerGet 0 := ⟨by decide, nofun, rfl⟩
  have hload : p.effect (.load 0) ⟨#[.object className number, ctx], []⟩ =
      pure ⟨#[.object className number, ctx], [.object className number]⟩ := rfl
  have hfield : p.effect (.getField unit Framework.providerField (.object Platform.provider))
      ⟨#[.object className number, ctx], [.object className number]⟩ =
        (get : Action Store) >>= fun s =>
          pure ⟨#[.object className number, ctx], [s.field number Framework.providerField]⟩ := rfl
  unfold controllerOf
  simp only [effects_cons, effects_nil, hload, hfield, effect_onObject₀ hget, effect_checkCast_object, bind_assoc,
    pure_bind]
  rfl

/-- What the provider gives is the controller, if it is of the class of the controller. -/
theorem perform_controllerOf {number controller : Nat} {owner className : String} {s s' : Store}
    (hget : s.perform (p.invoke (s.field number Framework.providerField) "get" []) =
      (.ok (.host className controller), s'))
    (hclass : p.hierarchy.isSubtype className owner) :
    s.perform (p.controllerOf number owner) = (.ok (.host className controller), s') := by
  unfold controllerOf cast
  simp only [Store.perform_bind, Store.perform_get, hget]
  simp [Value.className?, hclass]

/-- The code before the call of the method leaves the controller and the arguments. -/
theorem effects_beforeCall (hp : p.Unshadowed) {e : Endpoint} (unit : String)
    (hsupported : ∀ q ∈ e.params, (bindingCode q).fault = none)
    (hlength : (callCode unit e).length ≤ 2147483647)
    (hbinder : ∀ q ∈ e.params, ∀ m name args, q.binding = .bound (some m) → q.type = .named name args →
      Bytecode.signatureOf (binderSignature name).descriptor = .ok (binderSignature name))
    (className : String) (number : Nat) (ctx : Value) :
    p.effects (callCode unit e).dropLast ⟨#[.object className number, ctx], []⟩ =
      p.controllerOf number e.owner >>= fun controller => e.params.mapM (p.argument ctx) >>= fun args =>
        pure ⟨#[.object className number, ctx], args.reverse ++ [controller]⟩ := by
  have hlengths : ∀ q ∈ e.params, (bindingCode q).code.length ≤ 2147483647 := by
    intro q hq
    have hle := (List.sublist_flatten_of_mem (List.mem_map_of_mem (f := fun q => (bindingCode q).code) hq)).length_le
    have hflat : (e.params.map fun q => (bindingCode q).code).flatten =
        e.params.flatMap fun q => (bindingCode q).code := rfl
    rw [hflat] at hle
    unfold callCode at hlength
    simp only [List.length_append] at hlength
    omega
  have hctx : (#[Value.object className number, ctx])[1]? = some ctx := rfl
  unfold callCode
  rw [List.dropLast_concat, effects_append, effects_getController, bind_assoc]
  refine bind_congr fun controller => ?_
  rw [pure_bind, effects_bindingCodes hp hctx hsupported hlengths hbinder]

/-- Only a method without a result has an answer without one. -/
theorem returnType_of_outcome {e : Endpoint} (h : e.outcome = .void) : e.returnType = .void := by
  unfold Endpoint.outcome at h
  cases htype : e.returnType with
  | void => rfl
  | primitive kind =>
      rw [htype] at h
      cases h
  | array element =>
      rw [htype] at h
      cases h
  | named name args =>
      rw [htype] at h
      simp only [Outcome.of] at h
      split_ifs at h

/-- The code of a call ends with one instruction that answers. -/
theorem length_dropLast_callCode (unit : String) (e : Endpoint) :
    (callCode unit e).dropLast.length + 1 = (callCode unit e).length := by
  conv_rhs => rw [callCode_concat]
  simp

section

variable {e : Endpoint} {u : CodeUnit} {m : Method} {i : Inference} {receiver : Value} {args : List Value}
  {className : String} {controller : Nat}

/-- The call of the method, and the answer behind it. -/
theorem ahead_call (h : Handling e u m i) (hf : f = .start u m receiver [.host Platform.context handle] true) :
    f.Ahead (answerLabels (callCode (handlerName e) e).length e.outcome) (callCode (handlerName e) e).dropLast.length
      (.invokeVirtual e.owner e.name (Compile.signatureOf e) :: answerCode e.outcome) := by
  have hcode := (h.ahead receiver [.host Platform.context handle] true).append
  rwa [Nat.zero_add, ← hf] at hcode

/-- The result of the method is kept unless the answer is one without a result. -/
theorem keeps_of_call (h : Handling e u m i) (hargs : args.length = e.params.length)
    (hf : f = .start u m receiver [.host Platform.context handle] true)
    (hframe : p.Activation f (f.placed (callCode (handlerName e) e).dropLast.length
      ⟨ls, args.reverse ++ [.host className controller]⟩))
    {v : Value} {s s' : Store} (hinvoke : s.perform (p.invoke (.host className controller) e.name args) = (.ok v, s')) :
    (Compile.signatureOf e).result.isSome = !decide (e.outcome = .void) := by
  have hsignature := h.signatureOf_call (hf ▸ hframe) (by simp [hargs])
  have hparams : args.length = (Compile.signatureOf e).params.length := by
    rw [hargs]
    exact (List.length_map _).symm
  have heffect : s.perform (p.effect (.invokeVirtual e.owner e.name (Compile.signatureOf e))
      ⟨ls, args.reverse ++ [.host className controller]⟩) =
        (.ok ((Operands.mk ls []).receive (Compile.signatureOf e).result.isSome v), s') := by
    rw [effect_callee (m := ⟨e.owner, e.name, (Compile.signatureOf e).descriptor⟩) rfl, hsignature, orUnitFault_ok,
      pure_bind, ← hparams, Operands.popArgs_mk_append]
    simp only [pure_bind, Operands.pop_mk_cons, Store.perform_bind, hinvoke, Store.perform_pure]
  -- Behind the call the stack is empty or has one value, and the answer has to fit it.
  have hnext := hframe.effect (ahead_call h hf) rfl heffect
  rw [length_dropLast_callCode] at hnext
  rcases hresult : (Compile.signatureOf e).result with _ | result
  · rw [hresult] at hnext
    rw [h.outcome_of_result (hf ▸ hnext) rfl hresult]
    rfl
  · have hne : e.outcome ≠ .void := by
      intro hvoid
      have hdata : dataType? e.returnType = some result := hresult
      have htype : e.returnType = .void := returnType_of_outcome hvoid
      rw [htype] at hdata
      cases hdata
    simp [hne]

/-- Once the controller and the arguments are there, a run calls the method. -/
theorem run_call (h : Handling e u m i) (hargs : args.length = e.params.length)
    (hf : f = .start u m receiver [.host Platform.context handle] true)
    (hframe : p.Activation f (f.placed (callCode (handlerName e) e).dropLast.length
      ⟨ls, args.reverse ++ [.host className controller]⟩))
    (ls' : Array Value) {args' : List Value} (hargs' : args'.length = args.length) (controller' : Nat) :
    p.run (b + 1) (f.placed (callCode (handlerName e) e).dropLast.length
        ⟨ls', args'.reverse ++ [.host className controller']⟩) [] =
      p.invoke (.host className controller') e.name args' >>= fun v =>
        p.run b (f.placed (callCode (handlerName e) e).length
          ((Operands.mk ls' []).receive (Compile.signatureOf e).result.isSome v)) [] := by
  have hsignature := h.signatureOf_call (hf ▸ hframe) (by simp [hargs])
  have hparams : args'.length = (Compile.signatureOf e).params.length := by
    rw [hargs', hargs]
    exact (List.length_map _).symm
  have hrun := run_callHost (p := p) (b := b) (ahead_call h hf) rfl hsignature args' hparams className controller'
    ⟨ls', []⟩ []
  rwa [length_dropLast_callCode] at hrun

/-- Once the controller and the arguments are there, a run calls the method and makes the answer. -/
theorem run_callAndAnswer (hp : p.Unshadowed) (h : Handling e u m i) (hargs : args.length = e.params.length)
    (hf : f = .start u m receiver [.host Platform.context handle] true)
    (hls : ls = #[receiver, .host Platform.context handle])
    (hframe : p.Activation f (f.placed (callCode (handlerName e) e).dropLast.length
      ⟨ls, args.reverse ++ [.host className controller]⟩))
    (hb : (answerCode e.outcome).length ≤ b) (s : Store) :
    s.perform (p.run (b + 1) (f.placed (callCode (handlerName e) e).dropLast.length
        ⟨ls, args.reverse ++ [.host className controller]⟩) []) =
      s.perform (p.invoke (.host className controller) e.name args >>= fun v =>
        p.answer (.host Platform.context handle) v e.outcome) := by
  have hctx : ls[1]? = some (.host Platform.context handle) := by rw [hls]; rfl
  have hanswer := (ahead_call h hf).tail
  rw [length_dropLast_callCode] at hanswer
  rw [run_call h hargs hf hframe ls rfl, Store.perform_bind, Store.perform_bind]
  rcases hinvoke : s.perform (p.invoke (.host className controller) e.name args) with ⟨err | v, s'⟩
  · rfl
  · have hsize : f.method.code.size < 65536 := by rw [hf]; exact h.size
    dsimp only
    rw [keeps_of_call h hargs hf hframe hinvoke, run_answer hp hanswer rfl hsize hctx hb v]

/-- **A run of the method that a handler answers with** is the interpreter of its endpoint: it gets the controller,
takes the arguments, calls the method with them, and makes the answer. -/
theorem run_responds (hp : p.Unshadowed) (h : Handling e u m i) {number : Nat} {s s' : Store}
    (hf : f = .start u m (.object u.name number) [.host Platform.context handle] true)
    (hcontroller : s.perform (p.controllerOf number e.owner) = (.ok (.host className controller), s'))
    (hb : (answerCode e.outcome).length ≤ b) :
    s.perform (p.effects (callCode (handlerName e) e).dropLast
          ⟨#[.object u.name number, .host Platform.context handle], []⟩ >>= fun o =>
        p.run (b + 1) (f.placed (callCode (handlerName e) e).dropLast.length o) []) =
      s'.perform (p.respond (.host Platform.context handle) e (.host className controller)) := by
  have hlength := h.length_lt
  have heffects := effects_beforeCall hp (handlerName e) h.supported (by omega)
    (fun q hq m name args hbinding htype => h.signatureOf_binder hq hbinding htype) u.name number
    (.host Platform.context handle)
  rw [heffects]
  simp only [bind_assoc, pure_bind, Store.perform_bind, hcontroller]
  unfold respond
  rw [Store.perform_bind]
  -- The run goes wrong at an argument just as the interpreter does.
  rcases hargs : s'.perform (e.params.mapM (p.argument (.host Platform.context handle))) with ⟨err | args, s₂⟩
  · rfl
  · have hdone : s.perform (p.effects (callCode (handlerName e) e).dropLast
        ⟨#[.object u.name number, .host Platform.context handle], []⟩) =
          (.ok ⟨#[.object u.name number, .host Platform.context handle],
            args.reverse ++ [.host className controller]⟩, s₂) := by
      rw [heffects]
      simp only [Store.perform_bind, hcontroller, hargs, Store.perform_pure]
    subst hf
    let f : Frame := .start u m (.object u.name number) [.host Platform.context handle] true
    have hentry : p.Activation f f := .entry
    have hplain := plain_callCode (handlerName e) e
    -- The frame at the call is one that the method comes to, so what was inferred for it holds.
    have hframe := hentry.effects (f := f) (h.ahead _ _ true) (fun i hi => (hplain i hi).straight) hdone
    rw [Nat.zero_add] at hframe
    exact run_callAndAnswer hp h (length_of_mapM_eq_ok hargs) rfl rfl hframe hb s₂

end

end Program

/-- **A handler answers as its endpoint is described.** Let the provider that an object of a handler holds give a
host object of the class of the endpoint. Then dispatching a request to the handler is what the interpreter of
the endpoint does with that object: the arguments are taken from the request in order, up to the first that fails;
after them the method is called, once; and the answer is made from what it gives back, as the return type asks for.

The interpreter does not count steps. A run that has too few of them ends with that error instead; this is so only
for a limit below the size of code, or when a unit has a method that is named like one of the framework, since the
steps of such a method count as well. -/
theorem dispatch_responds {e : Endpoint} {enc : EncodedUnit} (h : compileHandler e = .ok enc) :
    ∃ u, CodeUnit.decode enc.bytes = .ok u ∧ u.name = handlerName e ∧
      ∀ (p : Program), p.unit? u.name = some u → p.Unshadowed →
        ∀ (s s₁ : Store) (number exchange : Nat) (className : String) (controller : Nat),
          (s.newHandle Platform.context (.context exchange)).2.perform
              (p.invoke (s.field number Framework.providerField) "get" []) =
            (.ok (.host className controller), s₁) →
          p.hierarchy.isSubtype className e.owner →
          s.perform (p.dispatch (.object u.name number) exchange) =
              s₁.perform (p.respond (.host Platform.context s.handles.size) e (.host className controller)) ∨
            (p.stepLimit < 65536 ∨ ∃ c ∈ Framework.catalogue, ¬p.Quiet c.name) ∧
              (s.perform (p.dispatch (.object u.name number) exchange)).1 = .error (.stepLimit p.stepLimit) := by
  obtain ⟨u, hu, henc⟩ := compileHandler_eq_ok.mp h
  obtain ⟨a, -, hgenerated⟩ := handlerUnit_eq_ok hu
  obtain ⟨m, i, hm⟩ := handling_of_handlerUnit hu
  refine ⟨u, hgenerated.decode (by decide) henc, hgenerated.name, ?_⟩
  intro p hunit hp s s₁ number exchange className controller hget hclass
  let slack : Prop := p.stepLimit < 65536 ∨ ∃ c ∈ Framework.catalogue, ¬p.Quiet c.name
  let ctx : Value := .host Platform.context s.handles.size
  let s₀ : Store := (s.newHandle Platform.context (.context exchange)).2
  let f : Frame := .start u m (.object u.name number) [ctx] true
  let before : List (Instr Constant) := (callCode (handlerName e) e).dropLast
  -- What is left for the call and the answer; if the limit is too small for them, the slack stands for the rest.
  let n : Nat := max (p.stepLimit - before.length) ((answerCode e.outcome).length + 1)
  have hend : before.length + 1 = (callCode (handlerName e) e).length := Program.length_dropLast_callCode ..
  have hsize := hm.length_lt
  have hahead := hm.ahead (.object u.name number) [ctx] true
  have hplain := plain_callCode (handlerName e) e
  have htame : ∀ i ∈ before, p.Tame slack i := by
    intro i hi
    apply Program.tame_of_plain (hplain i hi)
    intro hslack c hc
    by_contra hquiet
    exact hslack (.inr ⟨c, hc, hquiet⟩)
  have hbudget : Program.Budget slack p.stepLimit (n + before.length) := by
    refine ⟨by omega, fun hslack => ?_⟩
    have hlimit : ¬p.stepLimit < 65536 := fun hlt => hslack (.inl hlt)
    omega
  -- All before the call goes in a straight line, so it is the effects of its instructions.
  have hrun := Program.run_effects hahead (fun i hi => (hplain i hi).straight) htame hbudget (Nat.le_refl _)
    ⟨#[.object u.name number, ctx], []⟩ [] s₀
  have hcontroller : s₀.perform (p.controllerOf number e.owner) = (.ok (.host className controller), s₁) :=
    Program.perform_controllerOf hget hclass
  -- From the call on, it is the interpreter, whatever is left of the budget.
  have hresponds : s₀.perform (p.effects before ⟨#[.object u.name number, ctx], []⟩ >>= fun o =>
      p.run n (f.placed (0 + before.length) o) []) = s₁.perform (p.respond ctx e (.host className controller)) := by
    obtain ⟨b, hb⟩ : ∃ b, n = b + 1 := ⟨n - 1, by omega⟩
    rw [Nat.zero_add, hb]
    exact Program.run_responds hp hm rfl hcontroller (by omega)
  have hdispatch : s.perform (p.dispatch (.object u.name number) exchange) = s₀.perform (p.run p.stepLimit f []) := by
    show s₀.perform (p.invoke (.object u.name number) Framework.applyName [ctx]) = _
    rw [Program.invoke_object hunit hm.method]
    rfl
  rw [hdispatch, ← hresponds]
  exact hrun

/-- The handler of an endpoint, as it was before it was encoded. -/
theorem exists_unit_of_isOk {e : Endpoint} (h : (compileHandler e).isOk = true) :
    ∃ enc u, compileHandler e = .ok enc ∧ handlerUnit e = .ok u ∧ CodeUnit.decode enc.bytes = .ok u := by
  rcases hcompile : compileHandler e with err | enc
  · rw [hcompile] at h
    cases h
  · obtain ⟨u, hu, henc⟩ := compileHandler_eq_ok.mp hcompile
    obtain ⟨a, -, hgenerated⟩ := handlerUnit_eq_ok hu
    exact ⟨enc, u, rfl, hu, hgenerated.decode (by decide) henc⟩

/-! ## A handler at work -/

/-- An endpoint that takes a number from the query and answers with one. -/
def tally : Endpoint where
  owner := "app.Tally"
  name := "count"
  params := [{ name := "from", source := "", binding := .query, type := .primitive .int, nullable := false }]
  returnType := .primitive .int
  verb := .get
  pattern := "/"
  consumes := []
  produces := []
  attributes := []

/-- The program of one unit, with a controller whose method gives back the number. -/
def tallyProgram (u : CodeUnit) (limit : Nat) : Program :=
  ⟨[u], Framework.hierarchy, [], limit, #[⟨"app.Tally", [("count", .argument 0)]⟩]⟩

/-- A handler with a provider of the controller, and a request. -/
def tallyStore : Store :=
  { Store.empty with
    objects := #[[(Framework.providerField, .host Platform.provider 0)]]
    handles := #[.provider (.host "app.Tally" 1), .stub 0]
    exchanges := #[⟨{ Request.empty with texts := [(.query, "from", "3")] }, false, []⟩] }

/-- The unit of the tally is found in its program. -/
theorem unit?_tallyProgram (u : CodeUnit) (limit : Nat) : (tallyProgram u limit).unit? u.name = some u := by
  simp [Program.unit?, tallyProgram, findUnit?]

/-- The provider gives the controller of the tally. -/
theorem perform_getTally (u : CodeUnit) (limit : Nat) :
    (tallyStore.newHandle Platform.context (.context 0)).2.perform
        ((tallyProgram u limit).invoke (tallyStore.field 0 Framework.providerField) "get" []) =
      (.ok (.host "app.Tally" 1), (tallyStore.newHandle Platform.context (.context 0)).2) := rfl

/-- The controller of the tally answers three. -/
theorem perform_respondTally (u : CodeUnit) (limit : Nat) :
    ((tallyStore.newHandle Platform.context (.context 0)).2.perform
        ((tallyProgram u limit).respond (.host Platform.context 2) tally (.host "app.Tally" 1))).1 =
      .ok (.boxed .int (.int 3)) := rfl

/-- No unit of the program is called where a handler calls the framework. -/
theorem quiet_tallyProgram {u : CodeUnit} (hu : handlerUnit tally = .ok u) (limit : Nat) :
    ∀ c ∈ Framework.catalogue, (tallyProgram u limit).Quiet c.name := by
  have hnames : ∀ c ∈ Framework.catalogue, Framework.constructorName ≠ c.name ∧ Framework.applyName ≠ c.name := by
    decide +kernel
  obtain ⟨a, -, hgenerated⟩ := handlerUnit_eq_ok hu
  intro c hc u' hu'
  rw [List.mem_singleton.mp hu']
  exact hgenerated.method?_eq_none (hnames c hc).1 (hnames c hc).2

/-- The tally compiles, and its unit is read back from its encoding. -/
theorem exists_tallyUnit : ∃ enc u, compileHandler tally = .ok enc ∧ handlerUnit tally = .ok u ∧
    CodeUnit.decode enc.bytes = .ok u := exists_unit_of_isOk (by decide +kernel)

theorem dispatch_responds_tally :
    ∃ enc u, compileHandler tally = .ok enc ∧ CodeUnit.decode enc.bytes = .ok u ∧
      (tallyStore.perform ((tallyProgram u 100000).dispatch (.object u.name 0) 0)).1 = .ok (.boxed .int (.int 3)) := by
  obtain ⟨enc, u, hcompile, hu, hdecode⟩ := exists_tallyUnit
  obtain ⟨u', hdecode', -, hdispatch⟩ := dispatch_responds hcompile
  obtain rfl := Except.ok.inj (hdecode.symm.trans hdecode')
  have hclass : (tallyProgram u 100000).hierarchy.isSubtype "app.Tally" tally.owner = true := rfl
  refine ⟨enc, u, hcompile, hdecode, ?_⟩
  rcases hdispatch (tallyProgram u 100000) (unit?_tallyProgram u _) (fun _ _ _ => rfl) tallyStore _ 0 0 "app.Tally" 1
    (perform_getTally u _) hclass with hresponds | ⟨hlimited, -⟩
  · rw [hresponds]
    exact perform_respondTally u _
  · rcases hlimited with hlimit | ⟨c, hc, hloud⟩
    · have hlimit : 100000 < 65536 := hlimit
      omega
    · exact absurd (quiet_tallyProgram hu _ c hc) hloud

/-- Four steps bring a handler to its controller, but not to the arguments, which the interpreter takes without
counting. -/
theorem dispatch_tally_limited :
    ∃ enc u, compileHandler tally = .ok enc ∧ CodeUnit.decode enc.bytes = .ok u ∧
      (tallyProgram u 4).unit? u.name = some u ∧ (tallyProgram u 4).Unshadowed ∧
      (tallyStore.newHandle Platform.context (.context 0)).2.perform
          ((tallyProgram u 4).invoke (tallyStore.field 0 Framework.providerField) "get" []) =
        (.ok (.host "app.Tally" 1), (tallyStore.newHandle Platform.context (.context 0)).2) ∧
      (tallyProgram u 4).hierarchy.isSubtype "app.Tally" tally.owner = true ∧
      ((tallyStore.newHandle Platform.context (.context 0)).2.perform
          ((tallyProgram u 4).respond (.host Platform.context 2) tally (.host "app.Tally" 1))).1 =
        .ok (.boxed .int (.int 3)) ∧
      tallyStore.perform ((tallyProgram u 4).dispatch (.object u.name 0) 0) =
        (.error (.stepLimit 4), (tallyStore.newHandle Platform.context (.context 0)).2) := by
  obtain ⟨enc, u, hcompile, hu, hdecode⟩ := exists_tallyUnit
  obtain ⟨m, i, hm⟩ := handling_of_handlerUnit hu
  refine ⟨enc, u, hcompile, hdecode, unit?_tallyProgram u 4, fun _ _ _ => rfl, perform_getTally u 4, rfl,
    perform_respondTally u 4, ?_⟩
  let f : Frame := .start u m (.object u.name 0) [.host Platform.context 2] true
  let before : List (Instr Constant) := (callCode (handlerName tally) tally).dropLast.take 4
  have hahead : f.Ahead (answerLabels (callCode (handlerName tally) tally).length tally.outcome) 0
      (before ++ (callCode (handlerName tally) tally ++ answerCode tally.outcome).drop 4) := hm.code
  have hplain : ∀ i ∈ before, Instr.IsPlain i := fun i hi => plain_callCode _ _ i (List.mem_of_mem_take hi)
  have hrun := Program.perform_run_effects (p := tallyProgram u 4) (n := 0) hahead (fun i hi => (hplain i hi).straight)
    (fun i hi => Program.tame_of_plain (hplain i hi) fun _ => quiet_tallyProgram hu 4) (Nat.le_refl 4)
    ⟨#[.object u.name 0, .host Platform.context 2], []⟩ [] (tallyStore.newHandle Platform.context (.context 0)).2
  have hcontroller : (tallyStore.newHandle Platform.context (.context 0)).2.perform
      ((tallyProgram u 4).controllerOf 0 "app.Tally") =
        (.ok (.host "app.Tally" 1), (tallyStore.newHandle Platform.context (.context 0)).2) := rfl
  show (tallyStore.newHandle Platform.context (.context 0)).2.perform
    ((tallyProgram u 4).invoke (.object u.name 0) Framework.applyName [.host Platform.context 2]) = _
  rw [Program.invoke_object (unit?_tallyProgram u 4) hm.method]
  refine hrun.trans ?_
  have heffects : (tallyProgram u 4).effects before ⟨#[.object u.name 0, .host Platform.context 2], []⟩ =
      (tallyProgram u 4).controllerOf 0 "app.Tally" >>= fun controller =>
        pure ⟨#[.object u.name 0, .host Platform.context 2], [controller]⟩ := Program.effects_getController ..
  rw [heffects, bind_assoc, Store.perform_bind, hcontroller]
  rfl

end Routecraft.Machine
