import Routecraft.Proofs.Verification.Members
import Routecraft.Proofs.Verification.Shapes

/-!
# Linked units keep to the inferred types

While linked units run, each slot of a frame holds a value of the type that the checker has inferred for it: within a
method, as the types go along with the instructions; from one method to the next, as the members that the units name
agree; and where values come from the host, as far as they are of the types that they are called through. Three things
are asked beside the agreement of members. No class may be above the root, as the checker takes every class to be below
it. A plain number may be read only from a field that has been set, since the others are null. And the code of the
application must not spoil the fields of objects.

* `Frame.Typed`: a frame holds values of the inferred types.
* `Program.Faithful`: what the next instruction gets from outside is as declared.
* `Frame.Typed.advance`, `Program.TypedAt.step`: a step keeps to the types.
* `linked_units_typed`: **the verifier is sound for types across linked units.**
* `mixer_mismatch`: units link whose constants say different things of a field.
-/

namespace Routecraft.Machine

open Bytecode

variable {p : Program} {f g w : Frame} {callers callers' inner inner' : List Frame} {units : Nat → String}
  {s s' : Store} {instr : Instr UInt16} {r : Progress} {v : Value}

/-! ## Frames -/

/-- What suits the second frame type suits the first one, in shape and in the types of values. -/
def Covering (h : Hierarchy) (k t : FrameType) : Prop :=
  Wider k t ∧ Above (fun _ : Unit => Value.HasType h) k t

namespace Frame

/-- What the method of a frame is checked against. -/
def checker (p : Program) (f : Frame) : Checker :=
  ⟨f.unit.pool, f.unit.hierarchyWith p.hierarchy, f.method.signature.result⟩

/-- A frame of a loaded unit holds values of the types that have been inferred for its next instruction. -/
structure Typed (p : Program) (f : Frame) : Prop where
  unit : f.unit ∈ p.units
  method : f.method ∈ f.unit.methods
  slots : ∃ i t, f.unit.infer (f.unit.rounds f.method) p.hierarchy f.method = .ok i ∧ i.at? f.pc = some t ∧
    f.Fits t ∧ f.Holds (Value.HasType p.hierarchy) t

end Frame

/-- What was inferred of a method of a linked program stays stable under the types of the whole program. -/
theorem infer_covering (hp : p.Linked) (hroot : p.hierarchy.RootOnTop) {u : CodeUnit} (hu : u ∈ p.units) {m : Method}
    {rounds : Nat} {i : Inference} (hi : u.infer rounds p.hierarchy m = .ok i) :
    i.Stable ⟨u.pool, u.hierarchyWith p.hierarchy, m.signature.result⟩ m.code (Covering p.hierarchy)
      (.entry u.name m.signature.params) :=
  u.infer_stable ((wider_joinOrder _).and (hasType_joinOrder hroot fun _ _ => hp.isSubtype hu)) hi

/-- The next instruction of a typed frame has an effect on the types, and there is room for it where control goes. -/
theorem Frame.Typed.settled (hp : p.Linked) (hroot : p.hierarchy.RootOnTop) (hf : f.Typed p) :
    ∃ i t instr flow u, f.unit.infer (f.unit.rounds f.method) p.hierarchy f.method = .ok i ∧
      f.method.code[f.pc]? = some instr ∧ (f.checker p).step t instr = .ok (flow, u) ∧
      i.Covers (Covering p.hierarchy) u (flow.targets f.pc) ∧ f.Fits t ∧ f.Holds (Value.HasType p.hierarchy) t := by
  obtain ⟨i, t, hi, ht, hfits, hholds⟩ := hf.slots
  obtain ⟨instr, flow, u, hinstr, hstep, -, -, hcovers⟩ := (infer_covering hp hroot hf.unit hi).settled ht
  exact ⟨i, t, instr, flow, u, hi, hinstr, hstep, hcovers, hfits, hholds⟩

/-- Where control goes a frame is typed again. -/
theorem Frame.Typed.resume {i : Inference} {u : FrameType} {targets : List Nat} (hf : f.Typed p)
    (hi : f.unit.infer (f.unit.rounds f.method) p.hierarchy f.method = .ok i)
    (hcovers : i.Covers (Covering p.hierarchy) u targets) (hsame : f.SameCall g) (hpc : g.pc ∈ targets)
    (hfits : g.Fits u) (hholds : g.Holds (Value.HasType p.hierarchy) u) : g.Typed p := by
  obtain ⟨k, hk, hwider, habove⟩ := hcovers g.pc hpc
  have hunit : g.unit = f.unit := hsame.unit
  have hmethod : g.method = f.method := hsame.method
  exact ⟨hunit ▸ hf.unit, by rw [hunit, hmethod]; exact hf.method, i, k, by rw [hunit, hmethod]; exact hi, hk,
    hfits.wider hwider, habove () g hholds⟩

/-- The entry into a method of a loaded unit is typed. -/
theorem Frame.Typed.start (hp : p.Linked) (hroot : p.hierarchy.RootOnTop) {unit name : String} {u : CodeUnit}
    {m : Method} (hu : p.unit? unit = some u) (hm : u.method? name = some m) (number : Nat) {args : List Value}
    (hargs : List.Forall₂ (fun type v => Value.HasType p.hierarchy (.of type) v) m.signature.params args)
    (keeps : Bool) : (Frame.start u m (.object unit number) args keeps).Typed p := by
  obtain ⟨hunit, rfl⟩ := Program.unit?_eq_some hu
  have hmethod : m ∈ u.methods := List.mem_of_find?_eq_some hm
  obtain ⟨i, hi, -⟩ := u.infer_of_verifyWithin (hp.verified hunit) hmethod
  obtain ⟨k, hk, hwider, habove⟩ := (infer_covering hp hroot hunit hi).entry
  refine ⟨hunit, hmethod, i, k, hi, hk, (Frame.Fits.entry u m _ keeps hargs.length_eq.symm).wider hwider, ?_⟩
  refine habove () _ ⟨.nil, fun {slot x} hx => ?_⟩
  rw [List.forall₂_iff_get] at hargs
  cases slot with
  | zero =>
      obtain rfl : SlotType.ref u.name = x := by simpa [FrameType.entry] using hx
      exact .inr ⟨u.name, rfl, p.hierarchy.isSubtype_self _⟩
  | succ n =>
      simp only [FrameType.entry, List.getElem?_cons_succ, List.getElem?_map, Option.map_eq_some_iff] at hx
      obtain ⟨type, htype, hx⟩ := hx
      obtain rfl := Option.some.inj hx
      obtain ⟨hlt, rfl⟩ := List.getElem?_eq_some_iff.mp htype
      have hlt' : n < args.length := hargs.1 ▸ hlt
      simpa [Frame.start, hlt'] using hargs.2 n hlt hlt'

/-! ## What comes from outside -/

namespace Program

/-- The next instruction calls a method that its constant says to return a type, and the host answers with a value. -/
inductive Answers (p : Program) (f : Frame) (s : Store) (type : DataType) (v : Value) : Prop
  | static {k : UInt16} {m : Member} {signature : Signature} {args rest : List Value} {s' : Store} :
      f.method.code[f.pc]? = some (.onConst .invokeStatic k) → f.unit.pool.methodAt k false = .ok m →
      signatureOf m.descriptor = .ok signature → f.stack = args.reverse ++ rest →
      args.length = signature.params.length → signature.result = some type →
      s.perform (p.callStatic m.owner m.name args) = (.ok v, s') → Answers p f s type v
  | object {op : ConstOp} {k : UInt16} {m : Member} {signature : Signature} {receiver : Value}
      {args rest : List Value} {s' : Store} :
      op ∈ [.invokeVirtual, .invokeInterface, .invokeSpecial] → f.method.code[f.pc]? = some (.onConst op k) →
      f.unit.pool.methodAt k (op == .invokeInterface) = .ok m → signatureOf m.descriptor = .ok signature →
      f.stack = args.reverse ++ receiver :: rest → args.length = signature.params.length →
      signature.result = some type → s.perform (p.call receiver m.name args) = (.ok (.result v), s') →
      Answers p f s type v

/-- What the next instruction gets from the host is of the type that its constant says; and a plain number is read only
from a field that has been set. -/
structure Faithful (p : Program) (f : Frame) (s : Store) : Prop where
  answers : ∀ {type : DataType} {v : Value}, p.Answers f s type v → v.HasType p.hierarchy (.of type)
  fields : ∀ {k : UInt16} {m : Member} {type : DataType} {unit : String} {number : Nat} {rest : List Value},
    f.method.code[f.pc]? = some (.onConst .getField k) → f.unit.pool.fieldAt k = .ok m →
    dataTypeOf m.descriptor = .ok type → f.stack = .object unit number :: rest → type.isReference = false →
    ∃ v, s.field? number m.name = some v

/-- The states of a run of the call of `f₀` up to its return, as long as what it gets from outside is as declared: the
running frame, the frames that wait above the callers of `f₀`, and the store. -/
inductive FaithfulRun (p : Program) (callers : List Frame) (f₀ : Frame) (s₀ : Store) :
    Frame → List Frame → Store → Prop
  | entry : FaithfulRun p callers f₀ s₀ f₀ [] s₀
  | step {f g : Frame} {inner inner' : List Frame} {s s' : Store} :
      FaithfulRun p callers f₀ s₀ f inner s → p.Faithful f s →
      s.perform (p.advance f (inner ++ callers)) = (.ok (.running g (inner' ++ callers)), s') →
      FaithfulRun p callers f₀ s₀ g inner' s'

end Program

/-- An object that is of a type belongs to a class below it. -/
theorem isSubtype_of_hasType {h : Hierarchy} {unit owner : String} {number : Nat}
    (hv : (Value.object unit number).HasType h (.of (.object owner))) : h.isSubtype unit owner = true := by
  rcases hv with hv | ⟨_, hclass, hbelow⟩
  · cases hv
  · cases hclass
    exact hbelow

/-- Arguments are of the types that theirs stand for. -/
theorem forall₂_stands {h : Hierarchy} {params params' : List DataType} {args : List Value}
    (hparams : List.Forall₂ (Stands h) params params')
    (hargs : List.Forall₂ (fun type v => Value.HasType h (.of type) v) params args) :
    List.Forall₂ (fun type v => Value.HasType h (.of type) v) params' args := by
  induction hparams generalizing args with
  | nil => exact hargs
  | cons hstands _ ih =>
      cases hargs with
      | cons hv hargs => exact .cons (hstands _ hv) (ih hargs)

/-- A method without a result returns null. -/
theorem Program.Does.null_of_result {c : Checker} {t u : FrameType} {flow : Flow}
    (h : p.Does f s instr (.finished v) s') (hstep : c.step t instr = .ok (flow, u)) (hresult : c.result = none) :
    v = .null := by
  cases h with
  | returnVoid => rfl
  | returnValue =>
      cases Checker.hasEffect_of_step hstep with
      | returnValue hsome =>
          rw [hresult] at hsome
          cases hsome

section

variable (hp : p.Linked) (hroot : p.hierarchy.RootOnTop) (hagree : p.MembersAgree)

include hp hroot

/-- What the checker accepts for a data type is of it. -/
theorem Frame.Typed.accepted (hf : f.Typed p) {type : DataType}
    (hv : Accepted (f.checker p).hierarchy (Value.HasType p.hierarchy) type v) : v.HasType p.hierarchy (.of type) :=
  hv.hasType hroot fun _ _ => hp.isSubtype hf.unit

/-- A call is one of a method that its constant names. -/
theorem Frame.Typed.reaches (hf : f.Typed p) {op : ConstOp} {m : Member} {signature : Signature} {unit : String}
    {number : Nat} {args : List Value}
    (h : Suited (f.checker p).hierarchy (Value.HasType p.hierarchy) op m signature (.object unit number) args) :
    p.hierarchy.isSubtype unit m.owner = true ∧ (op = .invokeSpecial → unit = m.owner) := by
  by_cases hop : op = .invokeSpecial
  · obtain ⟨_, hreceiver⟩ := h.constructed hop
    cases hreceiver
    exact ⟨p.hierarchy.isSubtype_self _, fun _ => rfl⟩
  · exact ⟨isSubtype_of_hasType (hf.accepted hp hroot (h.receiver hop)), fun h => absurd h hop⟩

include hagree

/-- What a step of a typed frame brings up from outside is of the types that the checker takes it for. -/
theorem Frame.Typed.supplies (hf : f.Typed p) (hinstr : f.method.code[f.pc]? = some instr) (hs : s.Typed p units)
    (hknown : f.Only (s.Known units)) (hfaithful : p.Faithful f s) :
    p.Supplies (f.checker p) (Value.HasType p.hierarchy) { f with pc := f.pc + 1 } s s' instr := by
  have hhas : p.Has f.unit instr := ⟨hf.unit, f.method, hf.method, Array.mem_of_getElem? hinstr⟩
  constructor
  case field =>
    rintro g k m type unit number rfl hm htype hg haccepted
    have hstack : f.stack = .object unit number :: g.stack := congrArg Frame.stack hg
    have hobject := Value.only_object.mp (hknown.stack _ (hstack ▸ List.mem_cons_self))
    have hbelow := isSubtype_of_hasType (hf.accepted hp hroot haccepted)
    -- A field that has not been set is null, which is of every reference type.
    show Value.HasType _ _ ((s.field? number m.name).getD .null)
    cases hfield : s.field? number m.name with
    | some v => exact hs.fields ⟨_, k, hhas, hm, htype⟩ (hobject.2 ▸ hbelow) hfield
    | none =>
        cases hreference : type.isReference with
        | true => exact hasType_of_reference hreference ▸ .inl rfl
        | false =>
            obtain ⟨v, hv⟩ := hfaithful.fields hinstr hm htype hstack hreference
            rw [hv] at hfield
            cases hfield
  case static =>
    rintro k m type rfl hm htype
    exact hagree.statics ⟨_, k, hhas, hm, htype⟩
  case object =>
    intro k name _ _
    exact ⟨_, rfl⟩
  case ready =>
    intro g k m signature receiver args _ _ _ _ _ x v hv
    split
    · next heq =>
      subst heq
      obtain ⟨number, rfl⟩ := hv
      exact .inr ⟨_, rfl, p.hierarchy.isSubtype_self _⟩
    · exact hv
  case answerStatic =>
    rintro g k m signature args v rfl hm hsignature hg hargs hcall type htype
    exact hfaithful.answers
      (.static hinstr hm hsignature (congrArg Frame.stack hg) hargs.length_eq.symm htype hcall)
  case answer =>
    rintro g op k m signature receiver args v rfl hop hm hsignature hg hsuited hcall type htype
    exact hfaithful.answers
      (.object hop hinstr hm hsignature (congrArg Frame.stack hg) hsuited.args.length_eq.symm htype hcall)

/-- **A step of a typed frame leaves a typed store behind**, and refers only to what is there. -/
theorem Frame.Typed.store (hhost : p.HostSound) (hf : f.Typed p) (hs : s.Typed p units)
    (hknown : f.Only (s.Known units)) (hinstr : f.method.code[f.pc]? = some instr)
    (hdoes : p.Does { f with pc := f.pc + 1 } s instr r s') :
    ∃ units', s.Extends s' units units' ∧ s'.Typed p units' ∧ r.Only (s'.Known units') := by
  have hhas : p.Has f.unit instr := ⟨hf.unit, f.method, hf.method, Array.mem_of_getElem? hinstr⟩
  refine hdoes.typed hhost hs ⟨hknown.locals, hknown.stack⟩ ?_ ?_
  · rintro k name rfl hname
    exact hp.made hhas hname
  · rintro k m m' g unit number v type' rfl hm hg hobject hname heq hbelow'
    -- What is written is accepted for the field as it is named here, and so may be read where it is named there.
    obtain ⟨i, t, instr, flow, u, -, hinstr', heffect, -, -, hholds⟩ := hf.settled hp hroot
    obtain rfl := Option.some.inj (hinstr.symm.trans hinstr')
    cases Checker.hasEffect_of_step heffect with
    | putField hm₀ htype hvalue htarget =>
        obtain rfl := Except.ok.inj (hm.symm.trans hm₀)
        have hg' := hholds.goes (f.pc + 1)
        rw [hg] at hg'
        obtain ⟨hv, hg'⟩ := hg'.pop
        have hbelow := isSubtype_of_hasType (hf.accepted hp hroot ⟨_, htarget, hg'.pop.1⟩)
        have hunit : (p.unit? unit).isSome := hobject.2 ▸ hs.loaded hobject.1
        exact hagree.fields ⟨_, k, hhas, hm, htype⟩ hname heq.symm hunit hbelow hbelow' v
          (hf.accepted hp hroot ⟨_, hvalue, hv⟩)

/-- **A step of a typed frame keeps to the types**: its frame is typed where it goes on; a method that it enters is, and
so is the frame that waits for it once it gets what the method may return; and what it returns itself is of the type
that its method declares. -/
theorem Frame.Typed.advance (hhost : p.HostSound) (hf : f.Typed p) (hs : s.Typed p units)
    (hknown : f.Only (s.Known units)) (hfaithful : p.Faithful f s)
    (hstep : s.perform (p.advance f callers) = (.ok (.running g callers'), s')) :
    ∃ units', s.Extends s' units units' ∧ s'.Typed p units' ∧
      ((callers' = callers ∧ f.SameCall g ∧ g.Only (s'.Known units') ∧ g.Typed p) ∨
        (∃ w, callers' = w :: callers ∧ f.SameCall w ∧ g.Only (s'.Known units') ∧ w.Only (s'.Known units') ∧
          g.Typed p ∧ ∀ v, Returns p.hierarchy g.method.signature.result v → (w.receive g.keeps v).Typed p) ∨
        ∃ v w, callers = w :: callers' ∧ g = w.receive f.keeps v ∧ v.Only (s'.Known units') ∧
          Returns p.hierarchy f.method.signature.result v) := by
  obtain ⟨i, t, instr, flow, u, hi, hinstr, heffect, hcovers, hfits, hholds⟩ := hf.settled hp hroot
  obtain ⟨instr', hinstr', hcases⟩ := Program.advance_cases hstep
  obtain rfl := Option.some.inj (hinstr.symm.trans hinstr')
  -- The shape of the frame goes along with the effect, whatever the values are.
  have hagrees : p.Agrees f.pc flow u { f with pc := f.pc + 1 } callers s instr
      (s.perform (p.advance f callers)) := by
    rw [Program.advance, hinstr]
    exact Program.step_agrees heffect rfl ⟨hfits.stack, hfits.size, hfits.set⟩ rfl
  rw [hstep] at hagrees
  have carries : ∀ {r : Progress}, p.Does { f with pc := f.pc + 1 } s instr r s' →
      p.Carries (f.checker p) (Value.HasType p.hierarchy) f.pc flow u { f with pc := f.pc + 1 } s s' instr r :=
    fun hdoes => hdoes.carries (hasType_sense p) (hf.supplies hp hroot hagree hinstr hs hknown hfaithful) heffect rfl
      (hholds.goes _) rfl
  have same : ∀ {g : Frame}, { f with pc := f.pc + 1 }.SameCall g → f.SameCall g :=
    fun h => ⟨h.unit, h.method, h.keeps⟩
  rcases hcases with ⟨hdoes, rfl⟩ | ⟨w, hdoes, rfl⟩ | ⟨v, w, hdoes, hcallers, hg⟩
  all_goals
    obtain ⟨units', hextends, hs', honly⟩ := hf.store hp hroot hagree hhost hs hknown hinstr hdoes
    refine ⟨units', hextends, hs', ?_⟩
  · obtain ⟨hpc, hg⟩ := carries hdoes
    have hsame := same (hdoes.sameCall.1 g rfl)
    exact .inl ⟨rfl, hsame, honly.1, hf.resume hi hcovers hsame hpc (hagrees.1 rfl).1 hg⟩
  · obtain ⟨hpc, op, k, m, signature, receiver, args, g₀, rfl, hop, hm, hsignature, hstack, hsuited, hcall, rfl,
      hresume⟩ := carries hdoes
    have hsame := same (hdoes.sameCall.2 _ w rfl)
    -- Which method is entered does not depend on what the operands refer to.
    rcases Program.call_cases s.only_true (fun _ _ _ => trivial) (fun _ _ _ _ _ => trivial) hcall with
      ⟨unit, number, u', method, rfl, hu', hmethod, hcalled, -⟩ | ⟨v, hcalled, -⟩
    · cases hcalled
      obtain ⟨hbelow, hspecial⟩ := hf.reaches hp hroot hsuited
      -- The method that is entered takes what the constant lets be passed, as the members agree.
      have hnames : p.NamesMethod op m signature :=
        ⟨hop, f.unit, k, ⟨hf.unit, f.method, hf.method, Array.mem_of_getElem? hinstr⟩, hm, hsignature⟩
      obtain ⟨hparams, hresult⟩ := hagree.methods hnames hu' hbelow hspecial hmethod
      have hargs := forall₂_stands hparams (hsuited.args.imp fun _ _ h => hf.accepted hp hroot h)
      refine .inr (.inl ⟨w, rfl, hsame, honly.1, honly.2 w List.mem_cons_self,
        .start hp hroot hu' hmethod number hargs _, fun v hv => ?_⟩)
      have hsame' := hsame.trans (w.sameCall_receive signature.result.isSome v)
      refine hf.resume hi hcovers hsame' (by rwa [Frame.pc_receive]) ((hagrees.2 w rfl).2 v) ?_
      exact hresume v fun type htype => hresult type htype v hv
    · cases hcalled
  · refine .inr (.inr ⟨v, w, hcallers, hg, honly, ?_⟩)
    unfold Returns
    split
    · next type htype => exact hf.accepted hp hroot (carries hdoes type htype)
    · next hnone => exact hdoes.null_of_result heffect hnone

end

/-! ## Runs -/

/-- Each of the frames that wait is typed once it gets what the method above it may return. -/
def Awaited (p : Program) : Frame → List Frame → Prop
  | _, [] => True
  | f, w :: inner =>
    (∀ v, Returns p.hierarchy f.method.signature.result v → (w.receive f.keeps v).Typed p) ∧ Awaited p w inner

/-- What a caller waits for depends on its call alone. -/
theorem Awaited.congr (h : Awaited p f inner) (hsame : f.SameCall g) : Awaited p g inner := by
  cases inner with
  | nil => trivial
  | cons w inner =>
      obtain ⟨hw, hinner⟩ := h
      rw [← hsame.method, ← hsame.keeps] at hw
      exact ⟨hw, hinner⟩

/-- A state of a run in which the running frame and the store are typed, and the frames that wait will be. -/
structure Program.TypedAt (p : Program) (units : Nat → String) (f : Frame) (inner : List Frame) (s : Store) : Prop where
  store : s.Typed p units
  known : ∀ g ∈ f :: inner, g.Only (s.Known units)
  frame : f.Typed p
  awaited : Awaited p f inner

/-- **A step keeps to the types.** -/
theorem Program.TypedAt.step (hp : p.Linked) (hroot : p.hierarchy.RootOnTop) (hagree : p.MembersAgree)
    (hhost : p.HostSound) (h : p.TypedAt units f inner s) (hfaithful : p.Faithful f s)
    (hstep : s.perform (p.advance f (inner ++ callers)) = (.ok (.running g (inner' ++ callers)), s')) :
    ∃ units', p.TypedAt units' g inner' s' := by
  obtain ⟨hs, hknown, hf, hawaited⟩ := h
  obtain ⟨hknown, hinner⟩ := List.forall_mem_cons.mp hknown
  obtain ⟨units', hextends, hs', hcases⟩ := hf.advance hp hroot hagree hhost hs hknown hfaithful hstep
  refine ⟨units', ?_⟩
  have hinner : ∀ w ∈ inner, w.Only (s'.Known units') := fun w hw => (hinner w hw).mono fun _ _ => hextends.known
  rcases hcases with ⟨hcallers, hsame, hg, htyped⟩ | ⟨w, hcallers, hsame, hg, hw, htyped, hresume⟩ |
    ⟨v, w, hcallers, rfl, hv, hreturns⟩
  · -- The frame goes on.
    obtain rfl := List.append_cancel_right hcallers
    exact ⟨hs', List.forall_mem_cons.mpr ⟨hg, hinner⟩, htyped, hawaited.congr hsame⟩
  · -- A method is entered, and the frame waits for its result.
    obtain rfl : inner' = w :: inner := List.append_cancel_right hcallers
    exact ⟨hs', List.forall_mem_cons.mpr ⟨hg, List.forall_mem_cons.mpr ⟨hw, hinner⟩⟩, htyped, hresume,
      hawaited.congr hsame⟩
  · -- The frame that gets the result is one of those above the callers.
    cases inner with
    | nil =>
        have := congrArg List.length hcallers
        simp at this
        omega
    | cons w' inner =>
        rw [List.cons_append, List.cons.injEq] at hcallers
        obtain ⟨rfl, hcallers⟩ := hcallers
        obtain rfl := List.append_cancel_right hcallers
        obtain ⟨hw, hinner⟩ := List.forall_mem_cons.mp hinner
        exact ⟨hs', List.forall_mem_cons.mpr ⟨hw.receive _ hv, hinner⟩, hawaited.1 v hreturns,
          hawaited.2.congr (w'.sameCall_receive _ v)⟩

/-! ## Integers -/

/-- Instructions that take an integer from the stack. -/
def takesInt : Instr UInt16 → Bool
  | .jump .ifFalse _ | .onConst .newArray _ | .bare .arrayStore => true
  | _ => false

/-- Three instructions take an integer. -/
theorem takesInt_iff : takesInt instr = true ↔
    (∃ target, instr = .jump .ifFalse target) ∨ (∃ k, instr = .onConst .newArray k) ∨ instr = .bare .arrayStore := by
  constructor
  · intro h
    cases instr with
    | bare op => cases op <;> first | exact .inr (.inr rfl) | cases h
    | onConst op k => cases op <;> first | exact .inr (.inl ⟨k, rfl⟩) | cases h
    | jump op target => cases op <;> first | exact .inl ⟨target, rfl⟩ | cases h
    | onLocal | pushInt => cases h
  · rintro (⟨target, rfl⟩ | ⟨k, rfl⟩ | rfl) <;> rfl

/-- The operand that an instruction takes as an integer, if it takes one. -/
def intOperand? : Instr UInt16 → List Value → Option Value
  | .jump .ifFalse _, stack | .onConst .newArray _, stack => stack.head?
  | .bare .arrayStore, stack => stack.tail.head?
  | _, _ => none

/-- An instruction finds the integer that it takes. -/
theorem exists_intOperand {c : Checker} {t u : FrameType} {flow : Flow} {V : SlotType → Value → Prop}
    (hV : ∀ type v, Accepted c.hierarchy V type v → SlotType.of type = .int → ∃ n, v = .int n)
    (hstep : c.step t instr = .ok (flow, u)) (hint : takesInt instr = true) (hfits : f.Fits t)
    (hholds : f.Holds V t) : ∃ n, intOperand? instr f.stack = some (.int n) := by
  cases Checker.hasEffect_of_step hstep with
  | arrayStore _ hx =>
      obtain ⟨v, f₁, rfl, hf₁⟩ := hfits.pop
      obtain ⟨i, f₂, rfl, -⟩ := hf₁.pop
      obtain ⟨n, rfl⟩ := hV _ _ ⟨_, hx, hholds.pop.2.pop.1⟩ rfl
      exact ⟨n, rfl⟩
  | newArray _ _ hx | ifFalse hx =>
      obtain ⟨v, g, rfl, -⟩ := hfits.pop
      obtain ⟨n, rfl⟩ := hV _ _ ⟨_, hx, hholds.pop.1⟩ rfl
      exact ⟨n, rfl⟩
  | _ => cases hint

/-- A mismatch with one kind is none with another. -/
theorem Store.telling_ne_mismatch {v : Value} {expected expected' found : String} (h : expected ≠ expected') :
    s.telling v (.typeMismatch expected) ≠ .typeMismatch expected' found :=
  s.telling_of (P := (· ≠ .typeMismatch expected' found)) (fun _ => by simp [h]) nofun

/-- Storing into an array at a number is no mismatch with a number. -/
theorem Program.stepArrayStore_ne_mismatch {v : Value} {n : Int32} (found : String) (s' : Store) :
    s.perform (stepArrayStore ((f.push (.int n)).push v)) ≠ (.error (.typeMismatch "int" found), s') := by
  intro h
  simp only [stepArrayStore, Store.perform_bind, Frame.perform_pop_push, Value.asInt, Store.perform_pure] at h
  obtain ⟨u, m, pc, locals, stack, keeps⟩ := f
  cases stack with
  | nil => cases h
  | cons target stack =>
      simp only [Frame.pop, Store.perform_pure] at h
      cases target
      case array className number =>
        by_cases hin : 0 ≤ n ∧ n.toInt.toNat < (s.arrays.getD number #[]).size
        · simp only [Store.perform_bind, Store.perform_get, if_pos hin, Store.perform_modify, Store.perform_pure] at h
          cases h
        · simp only [Store.perform_bind, Store.perform_get, if_neg hin, Store.perform_throw] at h
          cases h
      all_goals
        simp only [Store.perform_mismatch, Prod.mk.injEq, Except.error.injEq] at h
        exact Store.telling_ne_mismatch (by decide) h.1

/-- With the integer there, an array is made, or refused for its size or its class. -/
theorem Program.stepNewArray_ne_mismatch {n : Int32} {k : UInt16} (found : String) (s' : Store) :
    s.perform (p.stepConst (f.push (.int n)) .newArray k) ≠ (.error (.typeMismatch "int" found), s') := by
  intro h
  simp only [stepConst, Store.perform_bind] at h
  rcases hsize : (do dataTypeOfClass (← (f.push (.int n)).unit.pool.classAt k)) with e | element <;> rw [hsize] at h
  · simp at h
  · by_cases hneg : n < 0
    · simp [Value.asInt, hneg] at h
    · simp only [Store.perform_orUnitFault_ok, Frame.perform_pop_push, Value.asInt, Store.perform_pure, if_neg hneg,
        Store.perform_bind, Store.perform_modifyGet] at h
      cases h

/-- With the integer there, an instruction that takes one does not fail over it. -/
theorem Program.step_ne_mismatch {n : Int32} (hint : takesInt instr = true)
    (hn : intOperand? instr f.stack = some (.int n)) (found : String) (s' : Store) :
    s.perform (p.step f callers instr) ≠ (.error (.typeMismatch "int" found), s') := by
  intro h
  obtain ⟨target, rfl⟩ | ⟨k, rfl⟩ | rfl := takesInt_iff.mp hint
  · obtain ⟨rest, hstack⟩ := List.head?_eq_some_iff.mp hn
    obtain ⟨g, rfl, -⟩ := Frame.exists_push hstack
    simp [step, Value.asInt] at h
  · obtain ⟨rest, hstack⟩ := List.head?_eq_some_iff.mp hn
    obtain ⟨g, rfl, -⟩ := Frame.exists_push hstack
    simp only [step, Store.perform_bind] at h
    rcases hmade : s.perform (p.stepConst (g.push (.int n)) .newArray k) with ⟨e | f, t⟩ <;> rw [hmade] at h
    · cases h
      exact stepNewArray_ne_mismatch found _ hmade
    · cases h
  · cases hstack : f.stack with
    | nil =>
        rw [hstack] at hn
        cases hn
    | cons v rest =>
        obtain ⟨f, rfl, hrest, -⟩ := Frame.exists_push hstack
        obtain ⟨rest, hstack⟩ := List.head?_eq_some_iff.mp (show f.stack.head? = some (.int n) from hn)
        obtain ⟨g, rfl, -⟩ := Frame.exists_push hstack
        simp only [step, Store.perform_bind] at h
        rcases hstore : s.perform (stepArrayStore ((g.push (.int n)).push v)) with ⟨e | f, t⟩ <;> rw [hstore] at h
        · cases h
          exact stepArrayStore_ne_mismatch found _ hstore
        · cases h

/-- Where an instruction takes a number, a typed frame has one for it. -/
theorem Frame.Typed.exists_intOperand (hp : p.Linked) (hroot : p.hierarchy.RootOnTop) (hf : f.Typed p)
    (hinstr : f.method.code[f.pc]? = some instr) (hint : takesInt instr = true) :
    ∃ n, intOperand? instr f.stack = some (.int n) := by
  obtain ⟨i, t, instr, flow, u, -, hinstr', heffect, -, hfits, hholds⟩ := hf.settled hp hroot
  obtain rfl := Option.some.inj (hinstr.symm.trans hinstr')
  refine Machine.exists_intOperand (V := Value.HasType p.hierarchy) (fun type v hv htype => ?_) heffect hint hfits
    hholds
  have hv := hf.accepted hp hroot hv
  rwa [htype] at hv

/-! ## Linked units -/

/-- **The verifier is sound for types across linked units**, if no class is above the root, the members that the units
name agree, and the code of the application is sound. Enter a method of a loaded unit with arguments of the types that
it declares, in a store whose fields are of the types that their readers expect, and run it, through all methods that it
calls, as long as what the instructions get from outside is as their constants say. Then the running frame holds, in
each slot of the stack and in each local, a value of the type that the checker has inferred for it there; the store is
typed, so that other calls may go on from there; and an instruction that takes an integer finds one. -/
theorem linked_units_typed {l : Loader} (hl : l.Built) (hlink : l.link = .ok { p with stubs := #[] })
    (hroot : p.hierarchy.RootOnTop) (hagree : p.MembersAgree) (hhost : p.HostSound) {s₀ : Store}
    (hs₀ : s₀.Typed p units) {unit name : String} {u : CodeUnit} {m : Method} (hu : p.unit? unit = some u)
    (hm : u.method? name = some m) {number : Nat} {args : List Value}
    (hargs : List.Forall₂ (fun type v => Value.HasType p.hierarchy (.of type) v) m.signature.params args)
    (hknown : ∀ v ∈ Value.object unit number :: args, v.Only (s₀.Known units)) {keeps : Bool}
    (hrun : p.FaithfulRun callers (.start u m (.object unit number) args keeps) s₀ f inner s) :
    f.unit ∈ p.units ∧ f.method ∈ f.unit.methods ∧
      (∃ (i : Inference) (t : FrameType), f.unit.infer (f.unit.rounds f.method) p.hierarchy f.method = .ok i ∧
        i.at? f.pc = some t ∧ List.Forall₂ (Value.HasType p.hierarchy) t.stack f.stack ∧
        ∀ (slot : Nat) (x : SlotType), t.locals[slot]? = some (some x) →
          ∃ v : Value, f.locals[slot]? = some v ∧ v.HasType p.hierarchy x) ∧
      (∃ units', s.Typed p units') ∧
      ∀ instr, f.method.code[f.pc]? = some instr → takesInt instr = true →
        (∃ n, intOperand? instr f.stack = some (.int n)) ∧
          ∀ found s', s.perform (p.advance f (inner ++ callers)) ≠ (.error (.typeMismatch "int" found), s') := by
  have hp := hl.linked hlink
  -- The invariant of the run, by induction on its steps.
  have hstate : ∃ units, p.TypedAt units f inner s := by
    induction hrun with
    | entry =>
        refine ⟨units, hs₀, ?_, .start hp hroot hu hm number hargs keeps, trivial⟩
        rw [List.forall_mem_singleton]
        exact ⟨fun v hv => hknown v (by simpa [Frame.start] using hv), fun v hv => absurd hv List.not_mem_nil⟩
    | step _ hfaithful hstep ih =>
        obtain ⟨units, hstate⟩ := ih
        exact hstate.step hp hroot hagree hhost hfaithful hstep
  obtain ⟨units, hs, -, hf, -⟩ := hstate
  obtain ⟨i, t, hi, ht, hfits, hholds⟩ := hf.slots
  refine ⟨hf.unit, hf.method, ⟨i, t, hi, ht, hholds.stack, fun slot x hx => ?_⟩, ⟨units, hs⟩, ?_⟩
  · have hlt := hfits.set hx
    refine ⟨f.locals[slot], Array.getElem?_eq_getElem hlt, ?_⟩
    have hv := hholds.locals hx
    rwa [Array.getD_eq_getD_getElem?, Array.getElem?_eq_getElem hlt] at hv
  · -- The integer is there, so the instruction fails over something else, if at all.
    intro instr hinstr hint
    obtain ⟨n, hn⟩ := hf.exists_intOperand hp hroot hinstr hint
    refine ⟨⟨n, hn⟩, fun found s' => ?_⟩
    rw [Program.advance, hinstr]
    exact Program.step_ne_mismatch (f := { f with pc := f.pc + 1 }) hint hn found s'

/-! ## Two units -/

/-- The loader that has taken in one unit, which has no interfaces. -/
def Loader.single (u : CodeUnit) : Loader := { Loader.empty with units := [u] }

def Program.single (u : CodeUnit) : Program :=
  ⟨[u], Compile.Framework.hierarchy, [], Loader.defaultStepLimit, #[]⟩

/-- A loader with one unit is built. -/
theorem Loader.built_single {u : CodeUnit} (hu : u.interfaces = []) : (Loader.single u).Built := by
  refine .add .empty (u := u) ?_
  simp [Loader.add, Loader.single, Loader.empty, findUnit?, Hierarchy.extend, hu]

/-- A unit that passes is linked by itself. -/
theorem Loader.link_single {u : CodeUnit} (hverify : u.verify Compile.Framework.hierarchy = .ok ())
    (hnew : ∀ m ∈ u.methods, ∀ i ∈ m.code, (Loader.single u).checkNew u.pool i = .ok ()) :
    (Loader.single u).link = .ok (Program.single u) := by
  have hcheck : (Loader.single u).check u = .ok () := Loader.check_eq_ok.mpr ⟨hverify, hnew⟩
  exact Loader.link_eq_ok.mpr ⟨List.forall_mem_singleton.mpr hcheck, rfl⟩

/-- In the framework the root is on top. -/
theorem rootOnTop_framework : Compile.Framework.hierarchy.RootOnTop :=
  Hierarchy.rootOnTop_of_edges (by decide)

/-- Without host code a program is sound for it. -/
theorem Program.hostSound_single (u : CodeUnit) : (Program.single u).HostSound := by
  rintro code (⟨stub, hstub, -⟩ | ⟨name, hname⟩)
  · simp [single] at hstub
  · simp [single] at hname

theorem Store.typed_empty (p : Program) (units : Nat → String) : Store.empty.Typed p units where
  known := by constructor <;> simp [Store.empty]
  loaded hlt := absurd hlt (Nat.not_lt_zero _)
  fields _ _ hv := by simp [field?, Store.empty] at hv

/-- A method that notes a text in its object and returns what it has noted. -/
def echo : Method where
  name := "echo"
  signature := .returning [.object Platform.string] (.object Platform.string)
  maxStack := 2
  maxLocals := 2
  code := #[.onLocal .load 0, .onLocal .load 1, .onConst .putField 0, .onLocal .load 0, .onConst .getField 0,
    .bare .returnValue]

def cell : CodeUnit :=
  ⟨"gen.Cell", .handler, [], ⟨#[.field ⟨"gen.Cell", "text", "Llang.String;"⟩]⟩, [], [echo]⟩

/-- A method that notes a text in its object, and takes what it has noted for a truth value. -/
def mix : Method where
  name := "mix"
  signature := .void []
  maxStack := 2
  maxLocals := 1
  code := #[.onLocal .load 0, .onConst .loadConst 0, .onConst .putField 1, .onLocal .load 0, .onConst .getField 2,
    .jump .ifFalse 6, .bare .returnVoid]

def mixer : CodeUnit :=
  ⟨"gen.Mixer", .handler, [],
    ⟨#[.string "a", .field ⟨"gen.Mixer", "text", "Llang.String;"⟩, .field ⟨"gen.Mixer", "text", "Z"⟩]⟩, [], [mix]⟩

/-- The cell reads and writes its only field. -/
theorem cell_names {op : ConstOp} {k : UInt16} {u : CodeUnit} (h : (Program.single cell).Has u (.onConst op k)) :
    u = cell ∧ (op = .putField ∨ op = .getField) ∧ k = 0 := by
  obtain ⟨hu, m, hm, hi⟩ := h
  obtain rfl := List.mem_singleton.mp hu
  obtain rfl := List.mem_singleton.mp hm
  simp [echo] at hi
  rcases hi with ⟨rfl, rfl⟩ | ⟨rfl, rfl⟩
  · exact ⟨rfl, .inl rfl, rfl⟩
  · exact ⟨rfl, .inr rfl, rfl⟩

/-- The field of the cell is a text. -/
theorem cell_text {m : Member} {type : DataType} (hm : cell.pool.fieldAt 0 = .ok m)
    (htype : dataTypeOf m.descriptor = .ok type) : type = .object Platform.string := by
  obtain rfl : ⟨"gen.Cell", "text", "Llang.String;"⟩ = m := Except.ok.inj hm
  have : dataTypeOf "Llang.String;" = .ok (.object Platform.string) := rfl
  exact Except.ok.inj (htype.symm.trans this)

/-- The members of the cell agree. -/
theorem membersAgree_cell : (Program.single cell).MembersAgree where
  fields := by
    rintro m m' type type' unit ⟨_, k, hi, hm, htype⟩ ⟨_, k', hi', hm', htype'⟩ - - - -
    obtain ⟨rfl, -, rfl⟩ := cell_names hi
    obtain ⟨rfl, -, rfl⟩ := cell_names hi'
    rw [cell_text hm htype, cell_text hm' htype']
    exact .refl _ _
  statics := by
    rintro m type ⟨_, k, hi, -⟩
    obtain ⟨-, hop, -⟩ := cell_names hi
    simp at hop
  methods := by
    rintro op m signature unit u method ⟨hop, _, k, hi, -⟩
    obtain ⟨-, rfl | rfl, -⟩ := cell_names hi <;> simp at hop

/-- The frame of `echo`, called with a text on the first object. -/
def echoFrame (pc : Nat) (stack : List Value) : Frame :=
  ⟨cell, echo, pc, #[.object "gen.Cell" 0, .text "x"], stack, true⟩

theorem echo_has {pc : Nat} {op : ConstOp} {k : UInt16} (hinstr : echo.code[pc]? = some (.onConst op k)) :
    (op = .putField ∨ op = .getField) ∧ k = 0 :=
  (cell_names ⟨List.mem_singleton_self _, echo, List.mem_singleton_self _, Array.mem_of_getElem? hinstr⟩).2

/-- The cell keeps to the types of its fields. -/
theorem faithful_echo (pc : Nat) (stack : List Value) (s : Store) :
    (Program.single cell).Faithful (echoFrame pc stack) s where
  answers := by
    rintro type v (⟨hinstr, -⟩ | ⟨hop, hinstr, -⟩)
    · simpa using (echo_has hinstr).1
    · rcases (echo_has hinstr).1 with rfl | rfl <;> simp at hop
  fields := by
    intro k m type unit number rest hinstr hm htype _ hreference
    obtain ⟨-, rfl⟩ := echo_has hinstr
    rw [cell_text hm htype] at hreference
    cases hreference

/-- A store with one object, of a loaded unit, is typed. -/
theorem Store.typed_one {u : CodeUnit} :
    ∃ units, ((Store.empty.newObject u.name).2).Typed (Program.single u) units ∧
      ((Store.empty.newObject u.name).2).Known units u.name 0 := by
  have hunit : ((Program.single u).unit? u.name).isSome := by simp [Program.unit?, findUnit?, Program.single]
  obtain ⟨-, hs⟩ := (Store.typed_empty (Program.single u) fun _ => "").newObject hunit
  exact ⟨_, hs, Nat.zero_lt_one, Function.update_self ..⟩

theorem linked_units_typed_cell :
    ∃ units f s, (Loader.single cell).Built ∧
      (Loader.single cell).link = .ok { Program.single cell with stubs := #[] } ∧
      (Program.single cell).hierarchy.RootOnTop ∧ (Program.single cell).MembersAgree ∧
      (Program.single cell).HostSound ∧ (Store.empty.newObject "gen.Cell").2.Typed (Program.single cell) units ∧
      (Program.single cell).unit? "gen.Cell" = some cell ∧ cell.method? "echo" = some echo ∧
      List.Forall₂ (fun type v => Value.HasType (Program.single cell).hierarchy (.of type) v) echo.signature.params
        [.text "x"] ∧
      (∀ v ∈ [Value.object "gen.Cell" 0, .text "x"], v.Only ((Store.empty.newObject "gen.Cell").2.Known units)) ∧
      (Program.single cell).FaithfulRun [] (.start cell echo (.object "gen.Cell" 0) [.text "x"] true)
        (Store.empty.newObject "gen.Cell").2 f [] s ∧
      f.pc = 5 ∧ ∃ (i : Inference) (t : FrameType),
        cell.infer (cell.rounds echo) (Program.single cell).hierarchy echo = .ok i ∧ i.at? 5 = some t ∧
          List.Forall₂ (Value.HasType (Program.single cell).hierarchy) t.stack [.text "x"] := by
  have hbuilt := Loader.built_single (u := cell) rfl
  have hlink : (Loader.single cell).link = .ok { Program.single cell with stubs := #[] } :=
    Loader.link_single (by decide +kernel) (by decide +kernel)
  obtain ⟨units, hs, hobject⟩ := Store.typed_one (u := cell)
  have hargs : List.Forall₂ (fun type v => Value.HasType (Program.single cell).hierarchy (.of type) v)
      echo.signature.params [.text "x"] := .cons (.inr ⟨_, rfl, Hierarchy.isSubtype_self _ _⟩) .nil
  have hknown : ∀ v ∈ [Value.object "gen.Cell" 0, .text "x"],
      v.Only ((Store.empty.newObject "gen.Cell").2.Known units) := by
    simpa using ⟨hobject, Value.Only.of_leaf rfl⟩
  have hloaded : (Program.single cell).FaithfulRun [] (.start cell echo (.object "gen.Cell" 0) [.text "x"] true)
      (Store.empty.newObject "gen.Cell").2 (echoFrame 2 [.text "x", .object "gen.Cell" 0]) []
      (Store.empty.newObject "gen.Cell").2 :=
    .step (f := echoFrame 1 [.object "gen.Cell" 0]) (.step .entry (faithful_echo 0 [] _) rfl) (faithful_echo ..) rfl
  have hnoted : (Program.single cell).FaithfulRun [] (.start cell echo (.object "gen.Cell" 0) [.text "x"] true)
      (Store.empty.newObject "gen.Cell").2 (echoFrame 4 [.object "gen.Cell" 0]) []
      ((Store.empty.newObject "gen.Cell").2.setField 0 "text" (.text "x")) :=
    .step (f := echoFrame 3 []) (.step hloaded (faithful_echo ..) rfl) (faithful_echo ..) rfl
  have hrun : (Program.single cell).FaithfulRun [] (.start cell echo (.object "gen.Cell" 0) [.text "x"] true)
      (Store.empty.newObject "gen.Cell").2 (echoFrame 5 [.text "x"]) []
      ((Store.empty.newObject "gen.Cell").2.setField 0 "text" (.text "x")) :=
    .step hnoted (faithful_echo ..) rfl
  have hunit : (Program.single cell).unit? "gen.Cell" = some cell := rfl
  have hmethod : cell.method? "echo" = some echo := rfl
  have htyped := linked_units_typed hbuilt hlink rootOnTop_framework membersAgree_cell (Program.hostSound_single cell)
    hs hunit hmethod hargs hknown hrun
  obtain ⟨-, -, ⟨i, t, hi, ht, hstack, -⟩, -⟩ := htyped
  exact ⟨units, _, _, hbuilt, hlink, rootOnTop_framework, membersAgree_cell, Program.hostSound_single cell, hs, hunit,
    hmethod, hargs, hknown, hrun, rfl, i, t, hi, ht, hstack⟩

def mixFrame (pc : Nat) (stack : List Value) : Frame := ⟨mixer, mix, pc, #[.object "gen.Mixer" 0], stack, true⟩

theorem mix_has {pc : Nat} {op : ConstOp} {k : UInt16} (hinstr : mix.code[pc]? = some (.onConst op k)) :
    op ∈ [.loadConst, .putField, .getField] ∧ (op = .getField → pc = 4 ∧ k = 2) := by
  rcases pc with _ | _ | _ | _ | _ | _ | _ | pc <;> simp [mix] at hinstr <;> obtain ⟨rfl, rfl⟩ := hinstr <;> simp

/-- The mixer keeps to the types of its fields when the field is set. -/
theorem faithful_mix (pc : Nat) {stack : List Value} {s : Store}
    (hset : pc = 4 → stack = [.object "gen.Mixer" 0] ∧ ∃ v, s.field? 0 "text" = some v) :
    (Program.single mixer).Faithful (mixFrame pc stack) s where
  answers := by
    rintro type v (⟨hinstr, -⟩ | ⟨hop, hinstr, -⟩)
    · simpa using (mix_has hinstr).1
    · have := (mix_has hinstr).1
      simp at hop this
      rcases this with rfl | rfl | rfl <;> simp at hop
  fields := by
    intro k m type unit number rest hinstr hm _ hstack _
    obtain ⟨hpc, rfl⟩ := (mix_has hinstr).2 rfl
    obtain ⟨rfl, hfield⟩ := hset hpc
    obtain rfl : ⟨"gen.Mixer", "text", "Z"⟩ = m := Except.ok.inj hm
    cases hstack
    exact hfield

/-- **Units link whose constants say different things of a field.** Although no class is above the root, there is no
code of the application, and the field has been set, an accepted method finds a text where the checker has inferred an
integer, and fails over it. -/
theorem mixer_mismatch :
    ∃ units f s, (Loader.single mixer).Built ∧
      (Loader.single mixer).link = .ok { Program.single mixer with stubs := #[] } ∧
      (Program.single mixer).hierarchy.RootOnTop ∧ (Program.single mixer).HostSound ∧
      (Store.empty.newObject "gen.Mixer").2.Typed (Program.single mixer) units ∧
      (Program.single mixer).unit? "gen.Mixer" = some mixer ∧ mixer.method? "mix" = some mix ∧
      mix.signature.params = [] ∧ (Store.empty.newObject "gen.Mixer").2.Known units "gen.Mixer" 0 ∧
      (Program.single mixer).FaithfulRun [] (.start mixer mix (.object "gen.Mixer" 0) [] true)
        (Store.empty.newObject "gen.Mixer").2 f [] s ∧
      (∃ (i : Inference) (t : FrameType),
        mixer.infer (mixer.rounds mix) (Program.single mixer).hierarchy mix = .ok i ∧ i.at? f.pc = some t ∧
          t.stack = [.int] ∧ f.stack = [.text "a"]) ∧
      mix.code[f.pc]? = some (.jump .ifFalse 6) ∧
      ∃ found, s.perform ((Program.single mixer).advance f []) = (.error (.typeMismatch "int" found), s) := by
  have hlink : (Loader.single mixer).link = .ok { Program.single mixer with stubs := #[] } :=
    Loader.link_single (by decide +kernel) (by decide +kernel)
  obtain ⟨units, hs, hobject⟩ := Store.typed_one (u := mixer)
  -- The run, step by step: a text is pushed and put into the field, and then read back as an integer.
  have hloaded : (Program.single mixer).FaithfulRun [] (.start mixer mix (.object "gen.Mixer" 0) [] true)
      (Store.empty.newObject "gen.Mixer").2 (mixFrame 2 [.text "a", .object "gen.Mixer" 0]) []
      (Store.empty.newObject "gen.Mixer").2 :=
    .step (f := mixFrame 1 [.object "gen.Mixer" 0]) (.step .entry (faithful_mix 0 (by simp)) rfl)
      (faithful_mix _ (by simp)) rfl
  have hnoted : (Program.single mixer).FaithfulRun [] (.start mixer mix (.object "gen.Mixer" 0) [] true)
      (Store.empty.newObject "gen.Mixer").2 (mixFrame 4 [.object "gen.Mixer" 0]) []
      ((Store.empty.newObject "gen.Mixer").2.setField 0 "text" (.text "a")) :=
    .step (f := mixFrame 3 []) (.step hloaded (faithful_mix _ (by simp)) rfl) (faithful_mix _ (by simp)) rfl
  have hrun : (Program.single mixer).FaithfulRun [] (.start mixer mix (.object "gen.Mixer" 0) [] true)
      (Store.empty.newObject "gen.Mixer").2 (mixFrame 5 [.text "a"]) []
      ((Store.empty.newObject "gen.Mixer").2.setField 0 "text" (.text "a")) :=
    .step hnoted (faithful_mix _ fun _ => ⟨rfl, _, rfl⟩) rfl
  have hinfer : (mixer.infer (mixer.rounds mix) (Program.single mixer).hierarchy mix).map
      (fun i => (i.at? 5).map (·.stack)) = .ok (some [.int]) := by decide +kernel
  refine ⟨units, _, _, Loader.built_single rfl, hlink, rootOnTop_framework, Program.hostSound_single mixer, hs, rfl,
    rfl, rfl, hobject, hrun, ?_, rfl, _, rfl⟩
  cases hi : mixer.infer (mixer.rounds mix) (Program.single mixer).hierarchy mix with
  | error e => simp [hi, Except.map] at hinfer
  | ok i =>
      simp only [hi, Except.map, Except.ok.injEq, Option.map_eq_some_iff] at hinfer
      obtain ⟨t, ht, hstack⟩ := hinfer
      exact ⟨i, t, rfl, ht, hstack, rfl⟩

end Routecraft.Machine
