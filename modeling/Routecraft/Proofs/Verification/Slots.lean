import Routecraft.Proofs.Execution.Stepping
import Routecraft.Proofs.Verification.Effects
import Routecraft.Proofs.Verification.Settling

/-!
# What slot types say of values

A sense of slot types says which values may be in a slot of a type. If the sense goes along with joins, and with the
values that instructions bring up, then what the checker infers for the slots of a method is true of its frames: an
instruction takes a frame that holds what a frame type says to one that holds what its effect says. What that asks
of fields, of static fields, of new objects and of the results of calls is left open, as it depends on more than the
method.

* `Frame.Holds`: a frame holds what a frame type says, in a sense of slot types.
* `Above`: the order of frame types by what they say, in which joins are above.
* `Program.Sense`, `Program.Supplies`: what the instructions ask of the sense.
* `Program.Does.carries`: **the instructions go along with a sense**.
-/

namespace Routecraft.Machine

open Bytecode

/-! ## Frames -/

/-- The stack and the locals of a frame hold what a frame type says, in a sense of slot types. A local that is not
there is null, as it is once there are locals behind it. -/
structure Frame.Holds (V : SlotType → Value → Prop) (f : Frame) (t : FrameType) : Prop where
  stack : List.Forall₂ V t.stack f.stack
  locals : ∀ {slot : Nat} {x : SlotType}, t.locals[slot]? = some (some x) → V x (f.locals.getD slot .null)

/-- A value may stand where a data type is declared, as far as the checker knows. -/
def Accepted (h : Hierarchy) (V : SlotType → Value → Prop) (type : DataType) (v : Value) : Prop :=
  ∃ x, h.accepts type x ∧ V x v

/-- Whatever holds what the second frame type says holds what the first one says, in each of some senses. -/
def Above {ι : Type} (V : ι → SlotType → Value → Prop) (k t : FrameType) : Prop :=
  ∀ n (f : Frame), f.Holds (V n) t → f.Holds (V n) k

/-- Where two stacks meet, what is true of the values on either side is true of them afterwards. -/
theorem forall₂_of_joinStacks {h : Hierarchy} {V : SlotType → Value → Prop} {xs ys zs : List SlotType} {vs : List Value}
    (hV : ∀ x y z v, h.join x y = some z → V x v ∨ V y v → V z v) (hzs : FrameType.joinStacks h xs ys = some zs)
    (hvs : List.Forall₂ V xs vs ∨ List.Forall₂ V ys vs) : List.Forall₂ V zs vs := by
  obtain ⟨hlength, hlength', hjoin⟩ := FrameType.joinStacks_eq_some hzs
  have hsize : zs.length = vs.length := by
    rcases hvs with hvs | hvs <;> have := hvs.length_eq <;> omega
  rw [List.forall₂_iff_get]
  refine ⟨hsize, fun m hz hv => ?_⟩
  have hx : m < xs.length := hlength' ▸ hz
  have hy : m < ys.length := hlength ▸ hx
  have hm := hjoin m _ _ _ (List.getElem?_eq_getElem hx) (List.getElem?_eq_getElem hy) (List.getElem?_eq_getElem hz)
  apply hV _ _ _ _ hm
  rcases hvs with hvs | hvs
  · exact .inl (hvs.get hx hv)
  · exact .inr (hvs.get hy hv)

/-- What joins keep of types, they keep of frames. -/
theorem above_joinOrder {ι : Type} {h : Hierarchy} {V : ι → SlotType → Value → Prop}
    (hV : ∀ n x y z v, h.join x y = some z → V n x v ∨ V n y v → V n z v) : JoinOrder h (Above V) where
  refl _ := fun _ _ hf => hf
  trans hfg hgk := fun n f hf => hfg n f (hgk n f hf)
  join := by
    intro f g k hk
    obtain ⟨hstack, hlocals⟩ := FrameType.join_eq_some hk
    constructor
    all_goals
      intro n w hw
      refine ⟨forall₂_of_joinStacks (hV n) hstack (by first | exact .inl hw.stack | exact .inr hw.stack), ?_⟩
      intro slot z hz
      rw [hlocals] at hz
      obtain ⟨x, y, hx, hy, hz⟩ := FrameType.joinLocals_eq_some hz
    · exact hV n x y z _ hz (.inl (hw.locals hx))
    · exact hV n x y z _ hz (.inr (hw.locals hy))

namespace Frame.Holds

variable {V : SlotType → Value → Prop} {f g : Frame} {t : FrameType} {x : SlotType} {xs : List SlotType}
  {locals : List (Option SlotType)} {v : Value}

/-- A frame may be pushed a value of a type. -/
theorem push (hf : f.Holds V ⟨xs, locals⟩) (hv : V x v) : (f.push v).Holds V ⟨x :: xs, locals⟩ :=
  ⟨.cons hv hf.stack, hf.locals⟩

/-- What is popped is of the type on top. -/
theorem pop (hf : (f.push v).Holds V ⟨x :: xs, locals⟩) : V x v ∧ f.Holds V ⟨xs, locals⟩ := by
  obtain ⟨hv, hstack⟩ := List.forall₂_cons.mp hf.stack
  exact ⟨hv, hstack, hf.locals⟩

/-- Arguments that are popped are of their types. -/
theorem popArgs {ts : List SlotType} {vs : List Value} (hlength : vs.length = ts.length)
    (hf : (f.pushAll vs).Holds V ⟨ts.reverse ++ xs, locals⟩) : List.Forall₂ V ts vs ∧ f.Holds V ⟨xs, locals⟩ := by
  have hstack : List.Forall₂ V (ts.reverse ++ xs) (vs.reverse ++ f.stack) := hf.stack
  have hargs := List.forall₂_take ts.length hstack
  have hrest := List.forall₂_drop ts.length hstack
  simp only [List.take_left', List.drop_left', List.length_reverse, hlength] at hargs hrest
  exact ⟨List.forall₂_reverse_iff.mp hargs, hrest, hf.locals⟩

theorem goes (hf : f.Holds V t) (pc : Nat) : { f with pc }.Holds V t := ⟨hf.stack, hf.locals⟩

/-- A local may be set to a value of a type. -/
theorem store (hf : f.Holds V ⟨xs, locals⟩) (slot : UInt8) (hv : V x v) :
    (f.store slot v).Holds V (FrameType.setLocal ⟨xs, locals⟩ slot.toNat x) := by
  refine ⟨hf.stack, ?_⟩
  intro slot' y hy
  simp only [Frame.store, FrameType.setLocal] at hy ⊢
  -- The slot itself; then those that were there, and those that are new in between.
  by_cases heq : slot' = slot.toNat
  · subst heq
    rw [List.getElem?_set_self (by simp; omega)] at hy
    cases hy
    simpa [Array.getD_eq_getD_getElem?, Array.getElem?_setIfInBounds_self_of_lt,
      show slot.toNat < f.locals.size + (slot.toNat + 1 - f.locals.size) by omega] using hv
  · rw [List.getElem?_set_ne (Ne.symm heq), List.getElem?_append] at hy
    split at hy
    · have hbefore := hf.locals hy
      rw [Array.getD_eq_getD_getElem?] at hbefore ⊢
      rw [Array.getElem?_setIfInBounds_ne (Ne.symm heq), Array.getElem?_append]
      split
      · exact hbefore
      · rw [Array.getElem?_eq_none (by omega)] at hbefore
        rw [Array.getElem?_replicate]
        split <;> exact hbefore
    · simp [List.getElem?_replicate] at hy

/-- Constructing changes types only, so values must be of the new one. -/
theorem constructed (hf : f.Holds V t) {name : String}
    (hV : ∀ x v, V x v → V (if x = .raw name then .ref name else x) v) : f.Holds V (t.constructed name) := by
  constructor
  · rw [FrameType.constructed, List.forall₂_map_left_iff]
    exact hf.stack.imp fun x v hv => hV x v hv
  · intro slot x hx
    simp only [FrameType.constructed, List.getElem?_map, Option.map_eq_some_iff] at hx
    obtain ⟨_, hslot, y, rfl, rfl⟩ := hx
    exact hV y _ (hf.locals hslot)

/-- The result of a call is of its type. -/
theorem receive {s : Signature} (hf : f.Holds V t) (hv : ∀ type, s.result = some type → V (.of type) v) :
    (f.receive s.result.isSome v).Holds V (Checker.pushResult t s).2 := by
  rcases Checker.pushResult_cases t s with ⟨hresult, hu⟩ | ⟨type, hresult, hu⟩
  · rw [hu, hresult]
    exact hf
  · rw [hu, hresult]
    exact hf.push (hv type hresult)

end Frame.Holds

/-- Arguments of types that are accepted are accepted. -/
theorem forall₂_accepted {h : Hierarchy} {V : SlotType → Value → Prop} {params : List DataType} {ts : List SlotType}
    {vs : List Value} (hts : List.Forall₂ (fun type x => h.accepts type x) params ts) (hvs : List.Forall₂ V ts vs) :
    List.Forall₂ (Accepted h V) params vs := by
  induction hts generalizing vs with
  | nil =>
      cases hvs
      exact .nil
  | cons hx _ ih =>
      cases hvs with
      | cons hv hvs => exact .cons ⟨_, hx, hv⟩ (ih hvs)

/-! ## Instructions -/

/-- The operands of a call suit the method that its constant names, as far as the checker knows. -/
structure Suited (h : Hierarchy) (V : SlotType → Value → Prop) (op : ConstOp) (m : Member) (signature : Signature)
    (receiver : Value) (args : List Value) : Prop where
  args : List.Forall₂ (Accepted h V) signature.params args
  constructed : op = .invokeSpecial → V (.raw m.owner) receiver
  receiver : op ≠ .invokeSpecial → Accepted h V (.object m.owner) receiver

namespace Program

/-- A sense of slot types goes along with the values that instructions bring up by themselves. -/
structure Sense (p : Program) (V : SlotType → Value → Prop) : Prop where
  null : V .null .null
  int : ∀ n, V .int (.int n)
  const : ∀ {x : Constant} {t : SlotType} {v : Value} {s s' : Store},
    Checker.loadType x = .ok t → s.perform (constantValue x) = (.ok v, s') → V t v
  array : ∀ (element : DataType) (number : Nat),
    V (.ref (DataType.array element).className) (.array (DataType.array element).className number)
  cast : ∀ {t : SlotType} {name : String} {v : Value}, t.isReference → V t v →
    (∀ className, v.className? = some className → p.hierarchy.isSubtype className name) → V (.ref name) v

/-- What a step brings up from outside of its method is in a sense of what the checker takes it for, and a
constructor does make an object of what it is called on. -/
structure Supplies (p : Program) (c : Checker) (V : SlotType → Value → Prop) (f : Frame) (s s' : Store)
    (i : Instr UInt16) : Prop where
  field : ∀ {g : Frame} {k : UInt16} {m : Member} {type : DataType} {unit : String} {number : Nat},
    i = .onConst .getField k → c.pool.fieldAt k = .ok m → dataTypeOf m.descriptor = .ok type →
    f = g.push (.object unit number) → Accepted c.hierarchy V (.object m.owner) (.object unit number) →
    V (.of type) (s.field number m.name)
  static : ∀ {k : UInt16} {m : Member} {type : DataType},
    i = .onConst .getStatic k → c.pool.fieldAt k = .ok m → dataTypeOf m.descriptor = .ok type →
    V (.of type) (staticField m.owner m.name)
  object : ∀ {k : UInt16} {name : String},
    i = .onConst .newObject k → c.pool.classAt k = .ok name → V (.raw name) (.object name s.objects.size)
  ready : ∀ {g : Frame} {k : UInt16} {m : Member} {signature : Signature} {receiver : Value} {args : List Value},
    i = .onConst .invokeSpecial k → c.pool.methodAt k false = .ok m → signatureOf m.descriptor = .ok signature →
    f = (g.push receiver).pushAll args → Suited c.hierarchy V .invokeSpecial m signature receiver args →
    ∀ x v, V x v → V (if x = .raw m.owner then .ref m.owner else x) v
  answerStatic : ∀ {g : Frame} {k : UInt16} {m : Member} {signature : Signature} {args : List Value} {v : Value},
    i = .onConst .invokeStatic k → c.pool.methodAt k false = .ok m → signatureOf m.descriptor = .ok signature →
    f = g.pushAll args → List.Forall₂ (Accepted c.hierarchy V) signature.params args →
    s.perform (p.callStatic m.owner m.name args) = (.ok v, s') → ∀ type, signature.result = some type → V (.of type) v
  answer : ∀ {g : Frame} {op : ConstOp} {k : UInt16} {m : Member} {signature : Signature} {receiver : Value}
      {args : List Value} {v : Value},
    i = .onConst op k → op ∈ [.invokeVirtual, .invokeInterface, .invokeSpecial] →
    c.pool.methodAt k (op == .invokeInterface) = .ok m → signatureOf m.descriptor = .ok signature →
    f = (g.push receiver).pushAll args → Suited c.hierarchy V op m signature receiver args →
    s.perform (p.call receiver m.name args) = (.ok (.result v), s') →
    ∀ type, signature.result = some type → V (.of type) v

/-- What comes of the step of the instruction at `index` is what its effect on types says. The frame goes on where the
effect leads and holds what it says; or so it does once it has got a result for the call that its instruction has
entered, whose operands suit it; or else what it returns may stand where the result of its method is declared. -/
def Carries (p : Program) (c : Checker) (V : SlotType → Value → Prop) (index : Nat) (flow : Flow) (u : FrameType)
    (f : Frame) (s s' : Store) (i : Instr UInt16) : Progress → Prop
  | .running g [] => g.pc ∈ flow.targets index ∧ g.Holds V u
  | .running g (w :: _) =>
    w.pc ∈ flow.targets index ∧ ∃ op k m signature receiver args g₀,
      i = .onConst op k ∧ op ∈ [ConstOp.invokeVirtual, .invokeInterface, .invokeSpecial] ∧
      c.pool.methodAt k (op == .invokeInterface) = .ok m ∧ signatureOf m.descriptor = .ok signature ∧
      f = (w.push receiver).pushAll args ∧ Suited c.hierarchy V op m signature receiver args ∧
      s.perform (p.call receiver m.name args) = (.ok (.entered g₀), s') ∧
      g = { g₀ with keeps := signature.result.isSome } ∧
      ∀ v, (∀ type, signature.result = some type → V (.of type) v) → (w.receive signature.result.isSome v).Holds V u
  | .finished v => ∀ type, c.result = some type → Accepted c.hierarchy V type v

variable {p : Program} {c : Checker} {V : SlotType → Value → Prop} {index : Nat} {flow : Flow} {t u : FrameType}
  {f g : Frame} {s s' : Store} {i : Instr UInt16} {r : Progress} {k : UInt16} {m : Member} {signature : Signature}
  {args : List Value}

/-- The operands of a call that is checked suit it; and the frame goes on behind the call, with a result that is what
the method is declared to give. -/
theorem invoke_holds {op : ConstOp} {receiver : Value}
    (hop : op ∈ [ConstOp.invokeVirtual, .invokeInterface, .invokeSpecial])
    (hstep : c.step t (.onConst op k) = .ok (flow, u)) (hf : ((f.push receiver).pushAll args).Holds V t)
    (hm : c.pool.methodAt k (op == .invokeInterface) = .ok m) (hsignature : signatureOf m.descriptor = .ok signature)
    (hargs : args.length = signature.params.length) :
    Suited c.hierarchy V op m signature receiver args ∧ flow = .next ∧
      ((op = .invokeSpecial → ∀ x v, V x v → V (if x = .raw m.owner then .ref m.owner else x) v) →
        ∀ v, (∀ type, signature.result = some type → V (.of type) v) →
          (f.receive signature.result.isSome v).Holds V u) := by
  cases Checker.hasEffect_of_step hstep with
  | invokeVirtual hm' hsignature' hts hx | invokeInterface hm' hsignature' hts hx =>
      obtain rfl := Except.ok.inj (hm'.symm.trans hm)
      obtain rfl := Except.ok.inj (hsignature'.symm.trans hsignature)
      obtain ⟨hvs, hf⟩ := hf.popArgs (hargs.trans hts.length_eq)
      obtain ⟨hreceiver, hf⟩ := hf.pop
      exact ⟨⟨forall₂_accepted hts hvs, by simp, fun _ => ⟨_, hx, hreceiver⟩⟩, rfl, fun _ _ hv => hf.receive hv⟩
  | invokeSpecial hm' hsignature' _ hts =>
      obtain rfl := Except.ok.inj (hm'.symm.trans hm)
      obtain rfl := Except.ok.inj (hsignature'.symm.trans hsignature)
      obtain ⟨hvs, hf⟩ := hf.popArgs (hargs.trans hts.length_eq)
      obtain ⟨hreceiver, hf⟩ := hf.pop
      exact ⟨⟨forall₂_accepted hts hvs, fun _ => hreceiver, fun h => absurd rfl h⟩, rfl,
        fun hready _ hv => (hf.constructed (hready rfl)).receive hv⟩
  | _ => simp at hop

/-- **The instructions go along with a sense of slot types**: what comes of a step is what the effect of its
instruction on types says, if that is so of what the step brings up from outside. -/
theorem Does.carries (hdoes : p.Does f s i r s') (hV : p.Sense V) (hsupplies : p.Supplies c V f s s' i)
    (hstep : c.step t i = .ok (flow, u)) (hpool : c.pool = f.unit.pool) (hf : f.Holds V t) (hpc : f.pc = index + 1) :
    p.Carries c V index flow u f s s' i r := by
  -- Most instructions go on behind themselves.
  have next : ∀ {g : Frame}, g.pc = index + 1 → g.pc ∈ Flow.targets index .next := by
    intro g hg
    simp [Flow.targets, hg]
  have heffect := Checker.hasEffect_of_step hstep
  cases hdoes with
  | pushNull =>
      cases heffect
      exact ⟨next hpc, hf.push hV.null⟩
  | dup =>
      cases heffect
      exact ⟨next hpc, hf.push hf.pop.1⟩
  | pop =>
      cases heffect
      exact ⟨next hpc, hf.pop.2⟩
  | swap =>
      cases heffect
      obtain ⟨hx, hf⟩ := hf.pop
      obtain ⟨hy, hf⟩ := hf.pop
      exact ⟨next hpc, (hf.push hx).push hy⟩
  | arrayStore =>
      cases heffect
      exact ⟨next hpc, hf.pop.2.pop.2.pop.2⟩
  | returnVoid =>
      cases heffect with
      | returnVoid hresult =>
          intro type htype
          rw [hresult] at htype
          cases htype
  | returnValue =>
      cases heffect with
      | @returnValue result x _ _ hresult hx =>
          intro type htype
          obtain rfl : result = type := Option.some.inj (hresult.symm.trans htype)
          exact ⟨x, hx, hf.pop.1⟩
  | load hv =>
      cases heffect with
      | load hx =>
          have hslot := hf.locals hx
          rw [Array.getD_eq_getD_getElem?, hv] at hslot
          exact ⟨next hpc, hf.push hslot⟩
  | store =>
      cases heffect
      obtain ⟨hx, hf⟩ := hf.pop
      exact ⟨next hpc, hf.store _ hx⟩
  | pushInt =>
      cases heffect
      exact ⟨next hpc, hf.push (hV.int _)⟩
  | goto =>
      cases heffect
      exact ⟨by simp [Flow.targets], hf.goes _⟩
  | ifFalse =>
      cases heffect
      have hf := hf.pop.2
      split
      · exact ⟨by simp [Flow.targets], hf.goes _⟩
      · exact ⟨by simpa [Flow.targets] using .inl hpc, hf⟩
  | loadConst hx hv =>
      cases heffect with
      | loadConst hx' hload =>
          rw [hpool, hx] at hx'
          cases hx'
          exact ⟨next hpc, hf.push (hV.const hload hv)⟩
  | getField hm =>
      cases heffect with
      | getField hm' htype hx =>
          obtain ⟨htarget, hf⟩ := hf.pop
          have hv := hsupplies.field rfl hm' htype rfl ⟨_, hx, htarget⟩
          obtain rfl := Except.ok.inj (hm'.symm.trans (hpool ▸ hm))
          exact ⟨next hpc, hf.push hv⟩
  | putField hm =>
      cases heffect
      exact ⟨next hpc, hf.pop.2.pop.2⟩
  | getStatic hm =>
      cases heffect with
      | getStatic hm' htype =>
          have hv := hsupplies.static rfl hm' htype
          obtain rfl := Except.ok.inj (hm'.symm.trans (hpool ▸ hm))
          exact ⟨next hpc, hf.push hv⟩
  | newObject hname =>
      cases heffect with
      | newObject hname' =>
          have hv := hsupplies.object rfl hname'
          obtain rfl := Except.ok.inj (hname'.symm.trans (hpool ▸ hname))
          exact ⟨next hpc, hf.push hv⟩
  | newArray hname helement =>
      cases heffect with
      | newArray hname' helement' =>
          obtain rfl := Except.ok.inj (hname'.symm.trans (hpool ▸ hname))
          obtain rfl := Except.ok.inj (helement'.symm.trans helement)
          exact ⟨next hpc, hf.pop.2.push (hV.array _ _)⟩
  | checkCast hname hclass =>
      cases heffect with
      | checkCast hname' hx =>
          obtain rfl := Except.ok.inj (hname'.symm.trans (hpool ▸ hname))
          obtain ⟨hv, hf⟩ := hf.pop
          exact ⟨next hpc, hf.push (hV.cast hx hv hclass)⟩
  | answeredStatic hm hsignature hargs hcall =>
      cases heffect with
      | invokeStatic hm' hsignature' hts =>
          obtain rfl := Except.ok.inj (hm'.symm.trans (hpool ▸ hm))
          obtain rfl := Except.ok.inj (hsignature'.symm.trans hsignature)
          obtain ⟨hvs, hf⟩ := hf.popArgs (hargs.trans hts.length_eq)
          have hv := hsupplies.answerStatic rfl hm' hsignature rfl (forall₂_accepted hts hvs) hcall
          exact ⟨next (by rw [Frame.pc_receive]; exact hpc), hf.receive hv⟩
  | answered hop hm hsignature hargs hcall =>
      replace hm : c.pool.methodAt _ _ = .ok _ := hpool ▸ hm
      obtain ⟨hsuited, rfl, hresume⟩ := invoke_holds hop hstep hf hm hsignature hargs
      have hv := hsupplies.answer rfl hop hm hsignature rfl hsuited hcall
      refine ⟨next (by rw [Frame.pc_receive]; exact hpc), hresume (fun hspecial => ?_) _ hv⟩
      subst hspecial
      exact hsupplies.ready rfl hm hsignature rfl hsuited
  | entered hop hm hsignature hargs hcall =>
      replace hm : c.pool.methodAt _ _ = .ok _ := hpool ▸ hm
      obtain ⟨hsuited, rfl, hresume⟩ := invoke_holds hop hstep hf hm hsignature hargs
      refine ⟨next hpc, _, _, _, _, _, _, _, rfl, hop, hm, hsignature, rfl, hsuited, hcall, rfl,
        hresume fun hspecial => ?_⟩
      subst hspecial
      exact hsupplies.ready rfl hm hsignature rfl hsuited

end Program

end Routecraft.Machine
