import Routecraft.Proofs.Compile.Arguments

/-!
# What the checker says of handlers

Units are checked while they are generated, and what the checker says of a method is known from running through
its code as it was written down.

* `effects_beforeCall`, `effect_call`, `effects_answer`: running through the code of an endpoint.
* `handler_rejected_iff`: the endpoints whose handlers the checker refuses.
-/

namespace Routecraft.Compile

open Bytecode Hierarchy

/-! ## The call of the endpoint's method -/

/-- The locals of a handler that answers a request. -/
def handlerLocals (unit : String) : List (Option SlotType) := [some (.ref unit), some (.ref Platform.context)]

/-- What the call of the endpoint's method leaves. -/
def resultSlots (e : Endpoint) : List SlotType := ((dataType? e.returnType).map SlotType.of).toList

/-- The signature of the endpoint's method is read with other types than it was written with: a class name in it has
a semicolon. -/
def Misread (e : Endpoint) : Prop :=
  ∃ s, Bytecode.signatureOf (signatureOf e).descriptor = .ok s ∧ s ≠ signatureOf e

/-- The signature of the endpoint's method is read as it was written. -/
def WellRead (e : Endpoint) : Prop := Bytecode.signatureOf (signatureOf e).descriptor = .ok (signatureOf e)

section

variable {h : Hierarchy} {r : Option DataType} {unit : String} {e : Endpoint} {f : FrameType} {x : StepError}

/-- A value is refused for the frame alone. -/
theorem popAccepted_eq_error {type : DataType} (hx : f.popAccepted h type = .error x) : ∃ fault, x = .frame fault := by
  obtain ⟨_ | ⟨t, st⟩, ls⟩ := f
  · cases hx
    exact ⟨_, rfl⟩
  · change (if h.accepts type t then Except.ok (FrameType.mk st ls)
      else .error (StepError.frame (.expected type t))) = _ at hx
    split at hx
    · cases hx
    · cases hx
      exact ⟨_, rfl⟩

/-- Arguments are refused for the frame alone. -/
theorem popArgs_eq_error {params : List DataType} (hx : f.popArgs h params = .error x) : ∃ fault, x = .frame fault := by
  unfold FrameType.popArgs at hx
  generalize params.reverse = types at hx
  induction types generalizing f with
  | nil => cases hx
  | cons type types ih =>
      rw [List.foldlM_cons] at hx
      rcases hpop : f.popAccepted h type with x' | g
      · rw [hpop] at hx
        cases hx
        exact popAccepted_eq_error hpop
      · rw [hpop] at hx
        exact ih hx

/-- The code before the call leaves the controller and the arguments. -/
theorem effects_beforeCall (r : Option DataType) (unit : String)
    (hedges : ∀ e ∈ Framework.hierarchy.edges, e ∈ h.edges)
    (hsupported : ∀ q ∈ e.params, (bindingCode q).fault = none) :
    Yields (∀ q ∈ e.params, BinderReadable q)
      (h.effects r (.entry unit [.object Platform.context]) (callCode unit e).dropLast)
      ⟨(e.params.map fun q => .of (argumentType q)).reverse ++ [.ref e.owner], handlerLocals unit⟩ := by
  have hfield {st : List SlotType} {ls : List (Option SlotType)} :
      h.effect r ⟨.ref unit :: st, ls⟩ (.getField unit Framework.providerField (.object Platform.provider)) =
        .ok ⟨.ref Platform.provider :: st, ls⟩ :=
    effect_getField (by decide) (h.accepts_of (.object unit))
  have hget {st : List SlotType} {ls : List (Option SlotType)} :
      h.effect r ⟨.ref Platform.provider :: st, ls⟩ Framework.providerGet.instr =
        .ok ⟨.ref Platform.object :: st, ls⟩ :=
    effect_onObject₀ (c := Framework.providerGet) ⟨by decide, by decide, rfl⟩ rfl
  have hctx : (handlerLocals unit)[1]? = some (some (.ref Platform.context)) := rfl
  unfold callCode
  rw [List.dropLast_concat, effects_append]
  show Yields _ (h.effects r ⟨[], some (.ref unit) :: [some (.ref Platform.context)]⟩ _ >>= _) _
  simp only [effects_cons, effects_nil, effect_load_zero, hfield, hget, effect_checkCast, ok_bind]
  exact effects_bindingCodes hedges hctx hsupported _

/-- The call leaves the result, if its signature is read as it was written. -/
theorem effect_call (hread : WellRead e) (ls : List (Option SlotType)) :
    h.effect r ⟨(e.params.map fun q => .of (argumentType q)).reverse ++ [.ref e.owner], ls⟩
      (.invokeVirtual e.owner e.name (signatureOf e)) = .ok ⟨resultSlots e, ls⟩ := by
  have hargs : List.Forall₂ (fun p t => h.accepts p t = true) (signatureOf e).params
      (e.params.map fun q => .of (argumentType q)) := by
    rw [signatureOf, List.forall₂_map_left_iff, List.forall₂_map_right_iff, List.forall₂_same]
    exact fun q _ => h.accepts_of (argumentType q)
  have howner : h.accepts (.object e.owner) (.ref e.owner) = true := h.accepts_of (.object e.owner)
  rw [effect_ofMethod hread hargs howner]
  unfold Checker.pushResult resultSlots
  rw [show (signatureOf e).result = dataType? e.returnType from rfl]
  cases dataType? e.returnType <;> rfl

/-- The stack is too short for a signature that is read with more parameters. -/
theorem effect_call_misread (hread : Misread e) (ls : List (Option SlotType)) :
    ∃ fault, h.effect r ⟨(e.params.map fun q => .of (argumentType q)).reverse ++ [.ref e.owner], ls⟩
      (.invokeVirtual e.owner e.name (signatureOf e)) = .error (.frame fault) := by
  obtain ⟨s, hs, hne⟩ := hread
  obtain ⟨hwell, hdescriptor⟩ := signatureOf_eq_ok.mp hs
  -- A descriptor that is read otherwise has more parameters.
  have hlonger : e.params.length < s.params.length := by
    refine Nat.lt_of_not_le fun hle => hne (Signature.eq_of_length_le hwell hdescriptor ?_)
    rw [signatureOf, List.length_map]
    exact hle
  rw [effect_invokeVirtual, hs]
  show ∃ fault, (FrameType.popArgs _ h s.params >>= _) = _
  rcases hargs : FrameType.popArgs _ h s.params with x | g
  · obtain ⟨fault, rfl⟩ := popArgs_eq_error hargs
    exact ⟨fault, rfl⟩
  · rw [ok_bind]
    rcases howner : g.popAccepted h (.object e.owner) with x | g'
    · obtain ⟨fault, rfl⟩ := popAccepted_eq_error howner
      exact ⟨fault, rfl⟩
    · -- The parameters that are read and the controller would be more than the arguments and the controller.
      obtain ⟨args, hforall, hstack⟩ := FrameType.popArgs_eq_ok.mp hargs
      obtain ⟨t, -, rfl⟩ := FrameType.popAccepted_eq_ok.mp howner
      have hlength := congrArg (fun f => f.stack.length) hstack
      simp only [List.length_append, List.length_reverse, List.length_map, List.length_cons, List.length_nil] at hlength
      have := hforall.length_eq
      omega

/-- What running through the code up to the answer comes to. -/
theorem effects_callCode (r : Option DataType) (unit : String)
    (hedges : ∀ e ∈ Framework.hierarchy.edges, e ∈ h.edges)
    (hsupported : ∀ q ∈ e.params, (bindingCode q).fault = none) :
    ((∀ q ∈ e.params, BinderReadable q) → WellRead e →
      h.effects r (.entry unit [.object Platform.context]) (callCode unit e) =
        .ok ⟨resultSlots e, handlerLocals unit⟩) ∧
    ((∀ q ∈ e.params, BinderReadable q) → Misread e →
      ∃ fault, h.effects r (.entry unit [.object Platform.context]) (callCode unit e) = .error (.frame fault)) ∧
    (¬((∀ q ∈ e.params, BinderReadable q) ∧ (WellRead e ∨ Misread e)) →
      ∃ text cause, h.effects r (.entry unit [.object Platform.context]) (callCode unit e) =
        .error (.unit (.malformed text cause))) := by
  have hbefore := effects_beforeCall r unit hedges hsupported
  rw [callCode_concat, effects_append]
  refine ⟨fun hreadable hread => ?_, fun hreadable hread => ?_, fun hnot => ?_⟩
  · rw [hbefore.ok hreadable, ok_bind, effects_cons, effect_call hread]
    rfl
  · obtain ⟨fault, hcall⟩ := effect_call_misread (h := h) (r := r) hread (handlerLocals unit)
    rw [hbefore.ok hreadable, ok_bind, effects_cons, hcall]
    exact ⟨fault, rfl⟩
  · by_cases hreadable : ∀ q ∈ e.params, BinderReadable q
    · rw [hbefore.ok hreadable, ok_bind, effects_cons, effect_invokeVirtual]
      rcases hs : Bytecode.signatureOf (signatureOf e).descriptor with x | s
      · obtain ⟨cause, rfl⟩ := naming_eq_error hs
        exact ⟨_, cause, rfl⟩
      · by_cases heq : s = signatureOf e
        · exact absurd ⟨hreadable, .inl (by rw [WellRead, hs, heq])⟩ hnot
        · exact absurd ⟨hreadable, .inr ⟨s, hs, heq⟩⟩ hnot
    · obtain ⟨text, cause, herror⟩ := hbefore.malformed hreadable
      rw [herror]
      exact ⟨text, cause, rfl⟩

/-! ## The answer -/

/-- The method gives no result, although its return type is not that of no result: it is an array of nothing. -/
def AnswersNothing (e : Endpoint) : Prop := dataType? e.returnType = none ∧ e.returnType ≠ .void

/-- The answer takes what the call leaves, if there is a result where one is expected. -/
theorem effects_answer (h : Hierarchy) (unit : String) (hanswer : ¬AnswersNothing e) :
    ∃ g, h.effects (some (.object Platform.object)) ⟨resultSlots e, handlerLocals unit⟩ (answerCode e.outcome) =
      .ok g := by
  have hctx : (handlerLocals unit)[1]? = some (some (.ref Platform.context)) := rfl
  have hsend {st : List SlotType} {ls : List (Option SlotType)} :
      h.effect (some (.object Platform.object)) ⟨.ref Platform.statusCode :: .ref Platform.context :: st, ls⟩
        Framework.send.instr = .ok ⟨.ref Platform.context :: st, ls⟩ :=
    effect_onObject₁ (c := Framework.send) ⟨by decide, by decide, rfl⟩ rfl (h.accepts_of _)
  have hreturn {name : String} {st : List SlotType} {ls : List (Option SlotType)} :
      h.effect (some (.object Platform.object)) ⟨.ref name :: st, ls⟩ .returnValue = .ok ⟨st, ls⟩ :=
    effect_returnValue (h.accepts_root name)
  unfold Endpoint.outcome resultSlots
  cases htype : e.returnType with
  | void =>
      -- The context is asked whether a response was started; if not, one without content is sent.
      have hstarted {st : List SlotType} {ls : List (Option SlotType)} :
          h.effect (some (.object Platform.object)) ⟨.ref Platform.context :: st, ls⟩
            Framework.isResponseStarted.instr = .ok ⟨.int :: st, ls⟩ :=
        effect_onObject₀ (c := Framework.isResponseStarted) ⟨by decide, by decide, rfl⟩ rfl
      have hstatic {st : List SlotType} {ls : List (Option SlotType)} :
          h.effect (some (.object Platform.object)) ⟨st, ls⟩
            (.getStatic Platform.statusCode Framework.noContent (.object Platform.statusCode)) =
              .ok ⟨.ref Platform.statusCode :: st, ls⟩ :=
        (effect_getStatic Platform.statusCode Framework.noContent (.object Platform.statusCode)).ok (by decide)
      refine ⟨⟨[], handlerLocals unit⟩, ?_⟩
      simp only [Outcome.of, answerCode, dataType?, Option.map_none, Option.toList_none, effects_cons, effects_nil,
        effect_loadContext hctx, hstarted, effect_ifFalse, hreturn, hstatic, hsend, ok_bind]
  | primitive kind =>
      have hbox : h.effect (some (.object Platform.object)) ⟨[.of (Framework.primitive kind)], handlerLocals unit⟩
          (Framework.box kind).instr = .ok ⟨[.ref kind.boxClass], handlerLocals unit⟩ :=
        effect_onClass₁ (Machine.Program.onClass_box kind) rfl (h.accepts_of _)
      refine ⟨⟨[], handlerLocals unit⟩, ?_⟩
      simp only [Outcome.of, answerCode, dataType?, Option.map_some, Option.toList_some, effects_cons, effects_nil,
        hbox, hreturn, ok_bind]
  | named name args =>
      refine ⟨⟨[], handlerLocals unit⟩, ?_⟩
      rw [show (dataType? (.named name args)).map SlotType.of = some (.ref name) from rfl]
      simp only [Outcome.of]
      split
      · next hstatus =>
        rw [hstatus]
        simp only [answerCode, Option.toList_some, effects_cons, effects_nil, effect_loadContext hctx, effect_swap,
          hsend, hreturn, ok_bind]
      · split
        · simp only [answerCode, Option.toList_some, effects_cons, effects_nil, hreturn, ok_bind]
        · split <;> simp only [answerCode, Option.toList_some, effects_cons, effects_nil, hreturn, ok_bind]
  | array element =>
      -- An array of what has no descriptor leaves nothing, which is the case that was excluded.
      cases hdata : dataType? (.array element) with
      | none => exact absurd ⟨by rw [htype]; exact hdata, by simp [htype]⟩ hanswer
      | some type =>
          refine ⟨⟨[], handlerLocals unit⟩, ?_⟩
          rw [Option.map_some, ← of_dataType?_array hdata]
          simp only [Outcome.of, answerCode, Option.toList_some, effects_cons, effects_nil, hreturn, ok_bind]

/-- There is nothing on the stack that a method without a result could answer with. -/
theorem effects_answer_fails (hanswer : AnswersNothing e) :
    h.effects (some (.object Platform.object)) ⟨resultSlots e, handlerLocals unit⟩ (answerCode e.outcome) =
      .error (.frame .underflow) := by
  obtain ⟨hdata, hvoid⟩ := hanswer
  unfold Endpoint.outcome resultSlots
  cases htype : e.returnType with
  | void => exact absurd htype hvoid
  | primitive kind => simp [htype, dataType?] at hdata
  | named name args => simp [htype, dataType?] at hdata
  | array element =>
      rw [htype] at hdata
      rw [hdata]
      rfl

/-! ## Running through in order -/

/-- An answer ends with a return. -/
theorem answerCode_concat (o : Outcome) : answerCode o = (answerCode o).dropLast ++ [.returnValue] := by
  cases o <;> rfl

/-- Of the answers only the one without a result has a jump or a return before its end. -/
theorem answerCode_straight {o : Outcome} (ho : o ≠ .void) : ∀ i ∈ (answerCode o).dropLast, i.isStraight = true := by
  cases o with
  | void => exact absurd rfl ho
  | primitive kind => exact List.forall_mem_singleton.mpr rfl
  | statusCode => decide
  | reference t => exact fun i hi => absurd hi List.not_mem_nil
  | context => exact fun i hi => absurd hi List.not_mem_nil
  | parameterized base args => exact fun i hi => absurd hi List.not_mem_nil

/-- The answer suits a method that returns an object. -/
theorem answerCode_suits (o : Outcome) : ∀ i ∈ answerCode o, i.suits = true := by
  cases o with
  | void | statusCode => decide
  | primitive kind => exact List.forall_mem_cons.mpr ⟨rfl, List.forall_mem_singleton.mpr rfl⟩
  | reference | context | parameterized => exact List.forall_mem_singleton.mpr rfl

/-- The code of the method of a handler suits it. -/
theorem suits_applyCode (unit : String) (e : Endpoint) :
    ∀ i ∈ callCode unit e ++ answerCode e.outcome, i.suits = true := by
  rw [List.forall_mem_append]
  exact ⟨fun i hi => Instr.suits_of_isStraight (callCode_straight unit e i hi).1, answerCode_suits e.outcome⟩

/-- The label of the only jump has a place. -/
theorem bound_applyCode (unit : String) (e : Endpoint) (start : Nat) :
    ∀ i ∈ callCode unit e ++ answerCode e.outcome, Assembler.Bound (answerLabels start e.outcome) i := by
  rw [List.forall_mem_append]
  constructor
  · intro i hi label hlabel
    rw [Instr.target?_of_isStraight (callCode_straight unit e i hi).1] at hlabel
    cases hlabel
  · intro i hi label hlabel
    by_cases ho : e.outcome = .void
    · rw [ho] at hi ⊢
      simp only [answerCode, List.mem_cons, List.not_mem_nil, or_false] at hi
      rcases hi with rfl | rfl | rfl | rfl | rfl | rfl | rfl | rfl | rfl
      case inr.inr.inl =>
        cases hlabel
        exact ⟨_, rfl⟩
      all_goals cases hlabel
    · rw [answerCode_concat] at hi
      rcases List.mem_append.mp hi with hi | hi
      · rw [Instr.target?_of_isStraight (answerCode_straight ho i hi)] at hlabel
        cases hlabel
      · rw [List.mem_singleton.mp hi] at hlabel
        cases hlabel

/-- Where the call leaves a frame type, it is the one that is expected. -/
theorem callCode_eq_ok (hedges : ∀ e ∈ Framework.hierarchy.edges, e ∈ h.edges)
    (hsupported : ∀ q ∈ e.params, (bindingCode q).fault = none)
    (hf : h.effects r (.entry unit [.object Platform.context]) (callCode unit e) = .ok f) :
    f = ⟨resultSlots e, handlerLocals unit⟩ := by
  obtain ⟨hok, hmisread, hmalformed⟩ := effects_callCode r unit hedges hsupported
  by_cases hreadable : ∀ q ∈ e.params, BinderReadable q
  · by_cases hread : WellRead e
    · exact Except.ok.inj (hf.symm.trans (hok hreadable hread))
    · by_cases hother : Misread e
      · obtain ⟨fault, herror⟩ := hmisread hreadable hother
        cases hf.symm.trans herror
      · obtain ⟨text, cause, herror⟩ := hmalformed (by tauto)
        cases hf.symm.trans herror
  · obtain ⟨text, cause, herror⟩ := hmalformed (fun hall => hreadable hall.1)
    cases hf.symm.trans herror

/-- In the answer without a result, control goes on behind all but the jump and the returns. -/
theorem answerCode_void_at {k : Nat} {i : Instr Constant} (hi : (answerCode .void)[k]? = some i) (hk : k ≠ 2) :
    i.isStraight = true ∧ k ≠ 4 ∧ k ≠ 8 ∨ i = .returnValue ∧ (k = 4 ∨ k = 8) := by
  match k with
  | 2 => exact absurd rfl hk
  | 0 | 1 | 3 | 5 | 6 | 7 =>
      cases hi
      exact .inl ⟨rfl, by decide, by decide⟩
  | 4 | 8 =>
      cases hi
      exact .inr ⟨rfl, by decide⟩
  | k + 9 =>
      have hnone : (answerCode .void)[k + 9]? = none := List.getElem?_eq_none (Nat.le_add_left 9 k)
      rw [hnone] at hi
      cases hi

/-- The context that is answered with where the response is started leaves the stack as it is. -/
theorem effects_answerStarted (hedges : ∀ e ∈ Framework.hierarchy.edges, e ∈ h.edges)
    (hsupported : ∀ q ∈ e.params, (bindingCode q).fault = none) {g : FrameType}
    (hg : h.effects (some (.object Platform.object)) (.entry unit [.object Platform.context])
      (callCode unit e ++ (answerCode .void).take 3) = .ok g) :
    h.effects (some (.object Platform.object)) g ((answerCode .void).drop 3 |>.take 2) = .ok g := by
  have hctx : (handlerLocals unit)[1]? = some (some (.ref Platform.context)) := rfl
  rw [effects_append] at hg
  obtain ⟨f, hf, hg⟩ := bind_eq_ok.mp hg
  obtain rfl := callCode_eq_ok hedges hsupported hf
  have hstarted : h.effect (some (.object Platform.object))
      ⟨.ref Platform.context :: resultSlots e, handlerLocals unit⟩ Framework.isResponseStarted.instr =
        .ok ⟨.int :: resultSlots e, handlerLocals unit⟩ :=
    effect_onObject₀ (c := Framework.isResponseStarted) ⟨by decide, by decide, rfl⟩ rfl
  have hjump : h.effects (some (.object Platform.object)) ⟨resultSlots e, handlerLocals unit⟩
      ((answerCode .void).take 3) = .ok ⟨resultSlots e, handlerLocals unit⟩ := by
    simp only [answerCode, List.take, effects_cons, effects_nil, effect_loadContext hctx, hstarted, effect_ifFalse,
      ok_bind]
  obtain rfl := Except.ok.inj (hjump.symm.trans hg)
  simp only [answerCode, List.take, List.drop, effects_cons, effects_nil, effect_loadContext hctx, ok_bind,
    effect_returnValue (h.accepts_root Platform.context)]

/-- The code of an endpoint is run through in order. -/
theorem apply_inOrder (hedges : ∀ e ∈ Framework.hierarchy.edges, e ∈ h.edges)
    (hsupported : ∀ q ∈ e.params, (bindingCode q).fault = none) {pool : Pool} {code : Code}
    (hcode : List.Forall₂ (Instr.Resolves pool (answerLabels (callCode unit e).length e.outcome)) code.toList
      (callCode unit e ++ answerCode e.outcome)) (hsize : code.size < 65536) :
    code.InOrder ⟨pool, h, some (.object Platform.object)⟩ (.entry unit [.object Platform.context]) := by
  have hcall : ∀ i ∈ callCode unit e, i.isStraight = true := fun i hi => (callCode_straight unit e i hi).1
  by_cases ho : e.outcome = .void
  · have hsuits := suits_applyCode unit e
    rw [ho] at hcode hsuits
    obtain ⟨target, hjump, htarget⟩ := answer_jump hcode hsize
    have hlength := hcode.length_eq
    rw [List.length_append, Array.length_toList, show (answerCode .void).length = 9 from rfl] at hlength
    -- The frame types up to a place of the answer are those of the written code.
    have hprefix (k : Nat) (c : Checker) (hc : c = ⟨pool, h, some (.object Platform.object)⟩) :
        c.afterAll (.entry unit [.object Platform.context]) (code.toList.take ((callCode unit e).length + k)) =
          h.effects (some (.object Platform.object)) (.entry unit [.object Platform.context])
            (callCode unit e ++ (answerCode .void).take k) := by
      have htake := List.forall₂_take ((callCode unit e).length + k) hcode
      rw [List.take_append, List.take_of_length_le (Nat.le_add_right _ k), Nat.add_sub_cancel_left] at htake
      rw [hc]
      refine Checker.afterAll_eq_effects htake fun i hi => hsuits i ?_
      rcases List.mem_append.mp hi with hi | hi
      · exact List.mem_append_left _ hi
      · exact List.mem_append_right _ (List.mem_of_mem_take hi)
    refine Code.inOrder_of_branch hjump htarget (by omega) ?_ ?_
    · intro q i hi hq
      obtain ⟨i', hi', hresolves⟩ := Code.resolves_at hcode hi
      rcases Nat.lt_or_ge q (callCode unit e).length with hlt | hge
      · rw [List.getElem?_append_left hlt] at hi'
        rw [hresolves.targets (hcall i' (List.mem_of_getElem? hi')), if_pos (by omega)]
      · rw [List.getElem?_append_right hge] at hi'
        rcases answerCode_void_at hi' (by omega) with ⟨hstraight, hne⟩ | ⟨rfl, hends⟩
        · have hq' : q < code.size := (Array.getElem?_eq_some_iff.mp hi).1
          rw [hresolves.targets hstraight, if_pos (by omega)]
        · cases hresolves
          rw [if_neg (by omega)]
          rfl
    · intro g hg
      rw [Nat.add_assoc, hprefix 3 _ rfl] at hg
      rw [Nat.add_assoc, hprefix 5 _ rfl, show (answerCode .void).take 5 = (answerCode .void).take 3 ++
        ((answerCode .void).drop 3).take 2 from rfl, ← List.append_assoc, effects_append, hg]
      exact effects_answerStarted hedges hsupported hg
  · rw [answerCode_concat, ← List.append_assoc] at hcode
    refine Code.inOrder_of_straight hcode ?_ ⟨rfl, rfl⟩
    rw [List.forall_mem_append]
    exact ⟨hcall, answerCode_straight ho⟩

end

/-! ## Handlers -/

/-- Parameters are refused for their bindings only. -/
theorem bindParams_eq_error {method : String} {ps : List Parameter} {a : Assembler} {x : CompileError}
    (hx : bindParams a method ps = .error x) :
    ∃ param binding type fault, x = .unsupportedBinding method param binding type fault := by
  induction ps generalizing a with
  | nil => cases hx
  | cons p ps ih =>
      unfold bindParams bindParam at hx
      simp only at hx
      cases hfault : (bindingCode p).fault with
      | none =>
          rw [hfault] at hx
          exact ih hx
      | some fault =>
          rw [hfault] at hx
          cases hx
          exact ⟨_, _, _, _, rfl⟩

/-- Parameters are bound if no binding has a fault. -/
theorem bindParams_ok (method : String) {ps : List Parameter} (hps : ∀ p ∈ ps, (bindingCode p).fault = none)
    (a : Assembler) : ∃ a', bindParams a method ps = .ok a' := by
  induction ps generalizing a with
  | nil => exact ⟨a, rfl⟩
  | cons p ps ih =>
      obtain ⟨hp, hps⟩ := List.forall_mem_cons.mp hps
      obtain ⟨a', ha'⟩ := ih hps (a.emitAll (bindingCode p).code)
      refine ⟨a', ?_⟩
      unfold bindParams bindParam
      simp only [hp]
      exact ha'

/-- The code of an endpoint is there if all its parameters can be bound. -/
theorem applyCode_ok {e : Endpoint} (hsupported : ∀ q ∈ e.params, (bindingCode q).fault = none) (unit : String) :
    ∃ a, applyCode unit e = .ok a := by
  obtain ⟨a, ha⟩ := bindParams_ok e.qualifiedName hsupported (Assembler.empty.emitAll [
    .load 0, .getField unit Framework.providerField (.object Platform.provider), Framework.providerGet.instr,
    .checkCast (.object e.owner)])
  exact ⟨_, bind_eq_ok.mpr ⟨a, ha, rfl⟩⟩

/-- The classes that the handler of an endpoint is checked against. -/
def handlerClasses (e : Endpoint) : Hierarchy := classesOf Framework.hierarchy (handlerName e) Platform.handler

/-- What is known when the code of an endpoint is run through. -/
def runThrough (e : Endpoint) : Except StepError FrameType :=
  (handlerClasses e).effects (some (.object Platform.object)) (.entry (handlerName e) [.object Platform.context])
    (callCode (handlerName e) e ++ answerCode e.outcome)

section

variable {e : Endpoint}

/-- **The verdict on a handler** is that of running through the code of its endpoint. -/
theorem handlerUnit_of_runThrough (hsupported : ∀ q ∈ e.params, (bindingCode q).fault = none)
    (hsize : (callCode (handlerName e) e ++ answerCode e.outcome).length < 65536) :
    (∀ g, runThrough e = .ok g → ∃ u, handlerUnit e = .ok u) ∧
      ∀ x, runThrough e = .error x → ∃ q, handlerUnit e = .error (.internal (x.at Framework.applyName q)) := by
  obtain ⟨d, hd, hstarted⟩ := startUnit_ok (handlerName e) .handler Framework.hierarchy Platform.handler
  obtain ⟨a, ha⟩ := applyCode_ok hsupported (handlerName e)
  obtain ⟨-, hinstrs, hlabels⟩ := applyCode_eq_ok ha
  have hasize : a.size = (callCode (handlerName e) e ++ answerCode e.outcome).length := by
    rw [Assembler.size, ← Array.length_toList, hinstrs]
  have hedges : ∀ e ∈ Framework.hierarchy.edges, e ∈ d.hierarchy.edges := by
    rw [hstarted.hierarchy]
    exact fun _ hedge => List.mem_append_left _ hedge
  have hcount := Assembler.constantCount_le (callCode (handlerName e) e ++ answerCode e.outcome)
  have hstart := hstarted.room
  -- The side conditions are those of any method: room in the pool, labels that are bound, code of one entry.
  have hverdict := Draft.addMethod_of_effects (d := d) (s := Framework.applySignature) (a := a) Framework.applyName
    (by omega) (by rw [hinstrs, poolLimit]; omega) (by decide)
    (by rw [hinstrs, hlabels]; exact bound_applyCode (handlerName e) e _)
    (by rw [hinstrs]; exact suits_applyCode (handlerName e) e) (by
      intro pool code hcode hsize'
      rw [hinstrs, hlabels] at hcode
      rw [hstarted.name]
      exact apply_inOrder hedges hsupported hcode hsize')
  have hunit : handlerUnit e =
      addMethod d Framework.applyName Framework.applySignature a >>= fun d => .ok d.toUnit := by
    unfold handlerUnit
    simp only [hd, ha, ok_bind]
  rw [hinstrs, hstarted.name, hstarted.hierarchy] at hverdict
  rw [hunit]
  constructor
  · intro g hg
    obtain ⟨d', hd', -⟩ := hverdict.1 g hg
    refine ⟨d'.toUnit, ?_⟩
    unfold addMethod
    rw [hd']
    rfl
  · intro x hx
    obtain ⟨d', q, hd'⟩ := hverdict.2 x hx
    refine ⟨q, ?_⟩
    unfold addMethod
    rw [hd']
    rfl

/-- An endpoint with too much code is refused for that. -/
theorem handlerUnit_of_length (hsupported : ∀ q ∈ e.params, (bindingCode q).fault = none)
    (hsize : ¬(callCode (handlerName e) e ++ answerCode e.outcome).length < 65536) :
    handlerUnit e = .error (.internal (.tableOverflow "code")) := by
  obtain ⟨d, hd, -⟩ := startUnit_ok (handlerName e) .handler Framework.hierarchy Platform.handler
  obtain ⟨a, ha⟩ := applyCode_ok hsupported (handlerName e)
  obtain ⟨-, hinstrs, -⟩ := applyCode_eq_ok ha
  have hasize : ¬a.size < 65536 := by
    rw [Assembler.size, ← Array.length_toList, hinstrs]
    exact hsize
  unfold handlerUnit
  simp only [hd, ha, ok_bind]
  unfold addMethod Draft.addMethod Assembler.assemble
  simp only [if_neg hasize]
  rfl

/-- An endpoint with a parameter that cannot be bound is refused for that. -/
theorem handlerUnit_of_unsupported (hsupported : ¬∀ q ∈ e.params, (bindingCode q).fault = none) :
    ∃ param binding type fault,
      handlerUnit e = .error (.unsupportedBinding e.qualifiedName param binding type fault) := by
  obtain ⟨d, hd, -⟩ := startUnit_ok (handlerName e) .handler Framework.hierarchy Platform.handler
  rcases ha : applyCode (handlerName e) e with x | a
  · have herror : ∃ param binding type fault, x = .unsupportedBinding e.qualifiedName param binding type fault := by
      have hparams : (bindParams (Assembler.empty.emitAll [.load 0,
          .getField (handlerName e) Framework.providerField (.object Platform.provider), Framework.providerGet.instr,
          .checkCast (.object e.owner)]) e.qualifiedName e.params >>= fun a => Except.ok
            (answer (a.emit (.invokeVirtual e.owner e.name (signatureOf e))) e.outcome)) = .error x := ha
      rcases hbind : bindParams _ e.qualifiedName e.params with x' | a
      · rw [hbind] at hparams
        cases hparams
        exact bindParams_eq_error hbind
      · rw [hbind] at hparams
        cases hparams
    obtain ⟨param, binding, type, fault, rfl⟩ := herror
    refine ⟨param, binding, type, fault, ?_⟩
    unfold handlerUnit
    simp only [hd, ha, ok_bind]
    rfl
  · exact absurd (applyCode_eq_ok ha).1 hsupported

/-- The classes of the framework are among them. -/
theorem mem_handlerClasses (e : Endpoint) : ∀ edge ∈ Framework.hierarchy.edges,
    edge ∈ (handlerClasses e).edges :=
  fun _ hedge => List.mem_append_left _ hedge

/-- A run through the method of a handler is one through the call and then the answer. -/
theorem runThrough_eq (e : Endpoint) : runThrough e =
    ((handlerClasses e).effects (some (.object Platform.object)) (.entry (handlerName e) [.object Platform.context])
      (callCode (handlerName e) e) >>= fun f =>
        (handlerClasses e).effects (some (.object Platform.object)) f (answerCode e.outcome)) := effects_append ..

/-- The method of a handler passes if all can be read and there is an answer. -/
theorem runThrough_ok (hsupported : ∀ q ∈ e.params, (bindingCode q).fault = none)
    (hreadable : ∀ q ∈ e.params, BinderReadable q) (hread : WellRead e) (hanswer : ¬AnswersNothing e) :
    ∃ g, runThrough e = .ok g := by
  obtain ⟨g, hg⟩ := effects_answer (handlerClasses e) (handlerName e) hanswer
  refine ⟨g, ?_⟩
  rw [runThrough_eq, (effects_callCode _ _ (mem_handlerClasses e) hsupported).1 hreadable hread, ok_bind, hg]

/-- The method of a handler is refused for the frame if a call is misread, or if there is no answer. -/
theorem runThrough_frame (hsupported : ∀ q ∈ e.params, (bindingCode q).fault = none)
    (hreadable : ∀ q ∈ e.params, BinderReadable q) (hrefused : Misread e ∨ WellRead e ∧ AnswersNothing e) :
    ∃ fault, runThrough e = .error (.frame fault) := by
  obtain ⟨hok, hmisread, -⟩ := effects_callCode (some (.object Platform.object)) (handlerName e)
    (mem_handlerClasses e) hsupported
  rcases hrefused with hread | ⟨hread, hanswer⟩
  · obtain ⟨fault, herror⟩ := hmisread hreadable hread
    refine ⟨fault, ?_⟩
    rw [runThrough_eq, herror]
    rfl
  · refine ⟨.underflow, ?_⟩
    rw [runThrough_eq, hok hreadable hread, ok_bind, effects_answer_fails hanswer]

/-- The method of a handler is refused for a descriptor in all other cases. -/
theorem runThrough_malformed (hsupported : ∀ q ∈ e.params, (bindingCode q).fault = none)
    (hnot : ¬((∀ q ∈ e.params, BinderReadable q) ∧ (WellRead e ∨ Misread e))) :
    ∃ text cause, runThrough e = .error (.unit (.malformed text cause)) := by
  obtain ⟨text, cause, herror⟩ := (effects_callCode (some (.object Platform.object)) (handlerName e)
    (mem_handlerClasses e) hsupported).2.2 hnot
  refine ⟨text, cause, ?_⟩
  rw [runThrough_eq, herror]
  rfl

/-- **The endpoints whose handlers the checker refuses.** Everything about such an endpoint can be compiled but for
one of two things: the signature of its method is read with other types than it was written with, or its return
type is an array of nothing. -/
theorem handler_rejected_iff (e : Endpoint) :
    (∃ method index fault, handlerUnit e = .error (.internal (.verify method index fault))) ↔
      (∀ q ∈ e.params, (bindingCode q).fault = none ∧ BinderReadable q) ∧
        (callCode (handlerName e) e ++ answerCode e.outcome).length < 65536 ∧
          (Misread e ∨ WellRead e ∧ AnswersNothing e) := by
  constructor
  · -- Were one of the conditions missing, there would be another error, or the handler.
    rintro ⟨method, index, fault, hrejected⟩
    have hsupported : ∀ q ∈ e.params, (bindingCode q).fault = none := by
      by_contra hnot
      obtain ⟨param, binding, type, fault, herror⟩ := handlerUnit_of_unsupported hnot
      cases hrejected.symm.trans herror
    have hsize : (callCode (handlerName e) e ++ answerCode e.outcome).length < 65536 := by
      by_contra hnot
      cases hrejected.symm.trans (handlerUnit_of_length hsupported hnot)
    obtain ⟨hok, hfails⟩ := handlerUnit_of_runThrough hsupported hsize
    obtain ⟨hreadable, hread⟩ : (∀ q ∈ e.params, BinderReadable q) ∧ (WellRead e ∨ Misread e) := by
      by_contra hnot
      obtain ⟨text, cause, herror⟩ := runThrough_malformed hsupported hnot
      obtain ⟨q, hq⟩ := hfails _ herror
      cases hrejected.symm.trans hq
    refine ⟨fun q hq => ⟨hsupported q hq, hreadable q hq⟩, hsize, ?_⟩
    rcases hread with hread | hread
    · refine .inr ⟨hread, ?_⟩
      by_contra hanswer
      obtain ⟨g, hg⟩ := runThrough_ok hsupported hreadable hread hanswer
      obtain ⟨u, hu⟩ := hok g hg
      cases hrejected.symm.trans hu
    · exact .inl hread
  · -- All is well but the frame, so the run through the code ends there.
    rintro ⟨hparams, hsize, hrefused⟩
    have hsupported := fun q hq => (hparams q hq).1
    obtain ⟨fault, hfault⟩ := runThrough_frame hsupported (fun q hq => (hparams q hq).2) hrefused
    obtain ⟨q, hq⟩ := (handlerUnit_of_runThrough hsupported hsize).2 _ hfault
    exact ⟨Framework.applyName, q, fault, hq⟩

/-- An endpoint that returns an array of nothing. -/
def listing : Endpoint where
  owner := "app.Files"
  name := "list"
  params := []
  returnType := .array .void
  verb := .get
  pattern := "/"
  consumes := []
  produces := []
  attributes := []

/-- Its method is called for no result, but the answer is made from one. -/
theorem listing_rejected :
    handlerUnit listing = .error (.internal (.verify Framework.applyName 5 .underflow)) := by decide +kernel

/-- A single parameter may be read as two. -/
example :
    handlerUnit { listing with
      returnType := .void
      params := [{ name := "file", source := "", binding := .body, type := .plain "a;Lb", nullable := false }] } =
        .error (.internal (.verify Framework.applyName 9 (.expected (.object "b") (.ref "a;Lb")))) := by
  decide +kernel

end

end Routecraft.Compile
