import Routecraft.Proofs.Execution.References
import Routecraft.Proofs.Verification.Shapes
import Routecraft.Proofs.Verification.Slots

/-!
# Objects whose constructor has not run

The checker gives a new object a type of its own until its constructor is called, and lets no slot of this type be
given away. The type has only the name of the class, though, and the call of a constructor marks the objects in all
slots of the type as constructed. So where two objects of a class are at hand, one of them may come out of the method
as it was made. Where a method makes an object of a class only when no slot has the type of another one, it does keep
it to itself until its constructor has been called on it.

* `Frame.Gives`: the values that an instruction gives away.
* `Program.Pending`: a run of a call from the making of an object on, up to its constructor.
* `pending_stays`: **the object stays with the call.**
* `twin_escapes`: a method that is accepted and returns an object as it was made.
-/

namespace Routecraft.Machine

open Bytecode

/-! ## What is given away -/

namespace Frame

/-- A value leaves the frame with its next instruction: it is returned, stored in an item or a field, handed over as an
argument, or has a method called on it that is not a constructor. -/
inductive Gives (f : Frame) : Instr UInt16 → Value → Prop
  | returned {v : Value} {rest : List Value} : f.stack = v :: rest → Gives f (.bare .returnValue) v
  | item {v : Value} {rest : List Value} : f.stack = v :: rest → Gives f (.bare .arrayStore) v
  | field {k : UInt16} {v : Value} {rest : List Value} : f.stack = v :: rest → Gives f (.onConst .putField k) v
  | argument {op : ConstOp} {k : UInt16} {m : Member} {signature : Signature} {v : Value} {args rest : List Value} :
      op ∈ [.invokeVirtual, .invokeInterface, .invokeStatic, .invokeSpecial] →
      f.unit.pool.methodAt k (op == .invokeInterface) = .ok m → signatureOf m.descriptor = .ok signature →
      args.length = signature.params.length → f.stack = args.reverse ++ rest → v ∈ args →
      Gives f (.onConst op k) v
  | receiver {op : ConstOp} {k : UInt16} {m : Member} {signature : Signature} {v : Value} {args rest : List Value} :
      op ∈ [.invokeVirtual, .invokeInterface] →
      f.unit.pool.methodAt k (op == .invokeInterface) = .ok m → signatureOf m.descriptor = .ok signature →
      args.length = signature.params.length → f.stack = args.reverse ++ v :: rest → Gives f (.onConst op k) v

/-- What an instruction gives away does not depend on where the frame goes on. -/
theorem Gives.of_pc {f : Frame} {i : Instr UInt16} {v : Value} {pc : Nat} (h : { f with pc }.Gives i v) :
    f.Gives i v := by
  cases h with
  | returned hstack => exact .returned hstack
  | item hstack => exact .item hstack
  | field hstack => exact .field hstack
  | argument hop hm hsignature hargs hstack hv => exact .argument hop hm hsignature hargs hstack hv
  | receiver hop hm hsignature hargs hstack => exact .receiver hop hm hsignature hargs hstack

/-- What an instruction gives away is on the stack. -/
theorem Gives.mem_stack {f : Frame} {i : Instr UInt16} {v : Value} (h : f.Gives i v) : v ∈ f.stack := by
  cases h with
  | returned hstack | item hstack | field hstack => exact hstack ▸ List.mem_cons_self
  | argument _ _ _ _ hstack hv => exact hstack ▸ List.mem_append_left _ (List.mem_reverse.mpr hv)
  | receiver _ _ _ _ hstack => exact hstack ▸ List.mem_append_right _ List.mem_cons_self

/-- The next instruction calls the constructor of an object. -/
def Constructs (f : Frame) (number : Nat) : Prop :=
  ∃ (k : UInt16) (m : Member) (signature : Signature) (args : List Value) (unit : String) (rest : List Value),
    f.method.code[f.pc]? = some (.onConst .invokeSpecial k) ∧ f.unit.pool.methodAt k false = .ok m ∧
    m.name = "<init>" ∧ signatureOf m.descriptor = .ok signature ∧
    args.length = signature.params.length ∧ f.stack = args.reverse ++ .object unit number :: rest

end Frame

/-- Anything but one object. -/
def Other (n : Nat) : String → Nat → Prop := fun _ number => number ≠ n

/-- Code of the application that brings up only references that it has been given or could find, and those to objects
that have been made meanwhile. -/
def HostCode.Honest (code : HostCode) : Prop :=
  ∀ (P : String → Nat → Prop) (args : List Value) (s s' : Store) (v : Value),
    s.Only P → (∀ w ∈ args, w.Only P) → s.perform (code args) = (.ok v, s') →
      s.objects.size ≤ s'.objects.size ∧
        ((∀ unit number, s.objects.size ≤ number → number < s'.objects.size → P unit number) → s'.Only P ∧ v.Only P)

namespace Program

/-- All code of the application is honest. -/
def Honest (p : Program) : Prop := ∀ code, p.Hosts code → code.Honest

/-- The states of a run of the call of `f₀`, from where the call has made the object with a number, of a class, on, as
long as no constructor is called on this object: the running frame, the frames that wait above the callers of `f₀`,
and the store. -/
inductive Pending (p : Program) (name : String) (n : Nat) (callers : List Frame) (f₀ : Frame) (s₀ : Store) :
    Frame → List Frame → Store → Prop
  | made {f g : Frame} {k : UInt16} {s s' : Store} :
      p.Within callers f₀ s₀ f [] s → f.method.code[f.pc]? = some (.onConst .newObject k) →
      f.unit.pool.classAt k = .ok name → s.objects.size = n →
      s.perform (p.advance f callers) = (.ok (.running g callers), s') → Pending p name n callers f₀ s₀ g [] s'
  | step {f g : Frame} {inner inner' : List Frame} {s s' : Store} :
      Pending p name n callers f₀ s₀ f inner s → ¬f.Constructs n →
      s.perform (p.advance f (inner ++ callers)) = (.ok (.running g (inner' ++ callers)), s') →
      Pending p name n callers f₀ s₀ g inner' s'

/-! ## Stores -/

variable {p : Program} {P : String → Nat → Prop} {f g w : Frame} {s s' : Store} {i : Instr UInt16} {r : Progress}
  {args : List Value} {v : Value}

/-- Honest host code takes no objects away. -/
theorem AnsweredBy.size_le (hp : p.Honest) (h : p.AnsweredBy P s args v s') (hargs : ∀ w ∈ args, w.Only P) :
    s.objects.size ≤ s'.objects.size := by
  cases h with
  | framework _ hobjects _ => exact Nat.le_of_eq (congrArg Array.size hobjects.symm)
  | application hcode hs₁ hobjects hcall =>
      rw [← hobjects]
      exact (hp _ hcode P args _ s' v hs₁ hargs hcall).1

/-- Honest host code brings up no object but those that it was given or has made. -/
theorem AnsweredBy.only (hp : p.Honest) (h : p.AnsweredBy P s args v s') (hargs : ∀ w ∈ args, w.Only P)
    (hnew : ∀ unit number, s.objects.size ≤ number → number < s'.objects.size → P unit number) :
    s'.Only P ∧ v.Only P := by
  cases h with
  | framework hs' _ hv => exact ⟨hs', hv⟩
  | application hcode hs₁ hobjects hcall =>
      rw [← hobjects] at hnew
      exact (hp _ hcode P args _ s' v hs₁ hargs hcall).2 hnew

/-- No step unmakes an object. -/
theorem Does.size_le (hp : p.Honest) (h : p.Does f s i r s') : s.objects.size ≤ s'.objects.size := by
  cases h.alters with
  | nothing hobjects _ => exact Nat.le_of_eq (congrArg Array.size hobjects.symm)
  | objects _ _ hs' _ => simp [hs', Store.newObject]
  | field _ _ _ hs' _ => simp [hs', Store.setField]
  | host args _ honly _ =>
      obtain ⟨-, hargs, hby⟩ := honly (fun _ _ => True) s.only_true (f.only_true)
      exact hby.size_le hp hargs

/-- The operands of a call are what it gives away, and what it calls a constructor on. -/
theorem operands_only {op : ConstOp} {k : UInt16} {m : Member} {signature : Signature} {receiver : Value}
    (hop : op ∈ [ConstOp.invokeVirtual, .invokeInterface, .invokeSpecial])
    (hm : f.unit.pool.methodAt k (op == .invokeInterface) = .ok m)
    (hsignature : signatureOf m.descriptor = .ok signature)
    (hlength : args.length = signature.params.length)
    (hgives : ∀ v, ((f.push receiver).pushAll args).Gives (.onConst op k) v → v.Only P)
    (hspecial : op = .invokeSpecial → receiver.Only P) : receiver.Only P ∧ ∀ v ∈ args, v.Only P := by
  constructor
  · by_cases hop' : op = .invokeSpecial
    · exact hspecial hop'
    · exact hgives _ (.receiver (by cases op <;> simp_all) hm hsignature hlength rfl)
  · intro v hv
    exact hgives v (.argument (by cases op <;> simp_all) hm hsignature hlength rfl hv)

/-- What a step leaves behind in the store, and for a method that it enters, is what its instruction gives away, and
what it calls a constructor on. -/
theorem Does.only_of_gives (h : p.Does f s i r s') (hs : s.Only P) (hgives : ∀ v, f.Gives i v → v.Only P)
    (hspecial : ∀ k m signature (args : List Value) receiver rest, i = .onConst .invokeSpecial k →
      f.unit.pool.methodAt k false = .ok m → signatureOf m.descriptor = .ok signature →
      args.length = signature.params.length → f.stack = args.reverse ++ receiver :: rest → receiver.Only P)
    (hanswer : ∀ args v, (∀ w ∈ args, w.Only P) → p.AnsweredBy P s args v s' → s'.Only P) :
    s'.Only P ∧ ∀ g w, r = .running g [w] → g.Only P := by
  have same : ∀ {g' : Frame}, ∀ g w, Progress.running g' [] = .running g [w] → g.Only P := by simp
  cases h with
  | arrayStore => exact ⟨hs.setItem _ _ (hgives _ (.item rfl)), same⟩
  | putField => exact ⟨hs.setField _ _ (hgives _ (.field rfl)), same⟩
  | newObject => exact ⟨hs.newObject _, same⟩
  | newArray => exact ⟨hs.newArray _ _, same⟩
  | returnVoid => exact ⟨hs, by simp⟩
  | returnValue => exact ⟨hs, by simp⟩
  | answeredStatic hm hsignature hlength hcall =>
      have hargs := fun v hv => hgives v (.argument (by simp) hm hsignature hlength rfl hv)
      exact ⟨hanswer _ _ hargs (callStatic_answered hs hargs hcall), same⟩
  | @answered f _ _ op k m signature receiver args v hop hm hsignature hlength hcall =>
      obtain ⟨hreceiver, hargs⟩ := operands_only hop hm hsignature hlength hgives fun h => by
        subst h
        exact hspecial k m signature args receiver f.stack rfl hm hsignature hlength rfl
      rcases call_cases hs hreceiver hargs hcall with ⟨_, _, _, _, -, -, -, hcalled, -⟩ | ⟨v, -, hby⟩
      · cases hcalled
      · exact ⟨hanswer _ _ hargs hby, same⟩
  | @entered f _ _ _ op k m signature receiver args hop hm hsignature hlength hcall =>
      obtain ⟨hreceiver, hargs⟩ := operands_only hop hm hsignature hlength hgives fun h => by
        subst h
        exact hspecial k m signature args receiver f.stack rfl hm hsignature hlength rfl
      rcases call_cases hs hreceiver hargs hcall with ⟨_, _, u, m, -, -, -, hcalled, rfl⟩ | ⟨v, hcalled, -⟩
      · cases hcalled
        refine ⟨hs, fun g w hg => ?_⟩
        cases hg
        exact ⟨by simpa using ⟨hreceiver, hargs⟩, by simp⟩
      · cases hcalled
  | _ => exact ⟨hs, same⟩

end Program

/-! ## What the checker lets be given away -/

/-- Whatever an instruction gives away may stand where a data type is declared. -/
theorem Frame.Gives.accepted {c : Checker} {V : SlotType → Value → Prop} {t u : FrameType} {flow : Flow} {f : Frame}
    {i : Instr UInt16} {v : Value} (h : f.Gives i v) (hstep : c.step t i = .ok (flow, u)) (hpool : c.pool = f.unit.pool)
    (hf : f.Holds V t) : ∃ type, Accepted c.hierarchy V type v := by
  cases h with
  | returned hstack =>
      obtain ⟨g, rfl, -⟩ := Frame.exists_push hstack
      cases Checker.hasEffect_of_step hstep with
      | returnValue _ hx => exact ⟨_, _, hx, hf.pop.1⟩
  | item hstack =>
      obtain ⟨g, rfl, -⟩ := Frame.exists_push hstack
      cases Checker.hasEffect_of_step hstep with
      | arrayStore _ _ _ _ hvalue => exact ⟨_, _, hvalue, hf.pop.1⟩
  | field hstack =>
      obtain ⟨g, rfl, -⟩ := Frame.exists_push hstack
      cases Checker.hasEffect_of_step hstep with
      | putField _ _ hvalue => exact ⟨_, _, hvalue, hf.pop.1⟩
  | @argument op k m signature v args rest hop hm hsignature hlength hstack hv =>
      obtain ⟨g, rfl, hrest, -⟩ := Frame.exists_pushAll hstack
      rw [← show c.pool = _ from hpool] at hm
      cases Checker.hasEffect_of_step hstep with
      | invokeVirtual hm' hsignature' hts | invokeInterface hm' hsignature' hts | invokeStatic hm' hsignature' hts
      | invokeSpecial hm' hsignature' _ hts =>
          obtain rfl := Except.ok.inj (hm.symm.trans hm')
          obtain rfl := Except.ok.inj (hsignature.symm.trans hsignature')
          -- The checker has accepted each argument for its parameter.
          have haccepted := forall₂_accepted hts (hf.popArgs (hlength.trans hts.length_eq)).1
          obtain ⟨type, -, hv⟩ := exists_left_of_mem haccepted hv
          exact ⟨type, hv⟩
      | _ => simp at hop
  | receiver hop hm hsignature hlength hstack =>
      obtain ⟨g, rfl, hrest, -⟩ := Frame.exists_pushAll hstack
      obtain ⟨g, rfl, -⟩ := Frame.exists_push hrest
      rw [← show c.pool = _ from hpool] at hm
      obtain ⟨hsuited, -⟩ := Program.invoke_holds (by simp at hop ⊢; tauto) hstep hf hm hsignature hlength
      exact ⟨_, hsuited.receiver (by rintro rfl; simp at hop)⟩

/-! ## The sense of the types of new objects -/

/-- The object `w` is in the slots of new objects of a class, and the object `n` is in no others. -/
def Hides (name : String) (n w : Nat) (x : SlotType) (v : Value) : Prop :=
  if x = .raw name then v = .object name w else v.Only (Other n)

section

variable {name : String} {n w : Nat} {x y z : SlotType} {v : Value} {h : Hierarchy} {type : DataType}

/-- Of any type but the raw one, a value does not hold the object. -/
theorem hides_iff (hx : x ≠ .raw name) : Hides name n w x v ↔ v.Only (Other n) := by simp [Hides, hx]

/-- The raw type of the class stands for the object alone. -/
theorem hides_raw_iff : Hides name n w (.raw name) v ↔ v = .object name w := by simp [Hides]

/-- No declared type is raw. -/
theorem SlotType.of_ne_raw : SlotType.of type ≠ .raw name := by
  cases type <;> simp [SlotType.of]

theorem ne_raw_of_isReference (hx : x.isReference) : x ≠ .raw name := by
  rintro rfl
  simp [SlotType.isReference] at hx

theorem ne_raw_of_accepts (hx : h.accepts type x) : x ≠ .raw name := by
  rintro rfl
  cases type <;> simp [Hierarchy.accepts] at hx

/-- What may stand where a data type is declared is not hidden. -/
theorem Accepted.only (hv : Accepted h (Hides name n w) type v) : v.Only (Other n) := by
  obtain ⟨x, hx, hv⟩ := hv
  exact (hides_iff (ne_raw_of_accepts hx)).mp hv

/-- Arguments that are accepted hold other objects only. -/
theorem only_of_accepted {params : List DataType} {args : List Value}
    (hargs : List.Forall₂ (Accepted h (Hides name n w)) params args) : ∀ v ∈ args, v.Only (Other n) := by
  intro v hv
  obtain ⟨type, -, hv⟩ := exists_left_of_mem hargs hv
  exact hv.only

/-- Different types have a join only if they are references. -/
theorem isReference_of_join (hne : x ≠ y) (hz : h.join x y = some z) :
    x.isReference ∧ y.isReference ∧ z.isReference := by
  cases Hierarchy.join_eq_some_iff.mp hz with
  | same => exact absurd rfl hne
  | _ => exact ⟨rfl, rfl, rfl⟩

/-- Joining types hides what one of them did. -/
theorem hides_join (hz : h.join x y = some z) (hv : Hides name n w x v ∨ Hides name n w y v) :
    Hides name n w z v := by
  by_cases hne : x = y
  · subst hne
    rw [h.join_self] at hz
    cases hz
    exact hv.elim id id
  · obtain ⟨hx, hy, hz⟩ := isReference_of_join hne hz
    rw [hides_iff (ne_raw_of_isReference hx), hides_iff (ne_raw_of_isReference hy)] at hv
    exact (hides_iff (ne_raw_of_isReference hz)).mpr (hv.elim id id)

/-- Hiding is kept by joins. -/
theorem hides_joinOrder (h : Hierarchy) (name : String) (n : Nat) : JoinOrder h (Above (Hides name n)) :=
  above_joinOrder fun _ _ _ _ _ => hides_join

/-- Hiding goes along with the values that instructions bring up. -/
theorem hides_sense (p : Program) : p.Sense (Hides name n w) where
  null := (hides_iff (by simp)).mpr (.of_leaf rfl)
  int _ := (hides_iff (by simp)).mpr (.of_leaf rfl)
  const := by
    intro x t v s s' ht hv
    cases x <;> simp [Checker.loadType, constantValue] at ht hv <;> obtain ⟨rfl, -⟩ := hv <;> subst ht <;>
      exact (hides_iff (by simp)).mpr (.of_leaf rfl)
  array _ _ := (hides_iff (by simp)).mpr (.of_leaf rfl)
  cast ht hv _ := (hides_iff (by simp)).mpr ((hides_iff (ne_raw_of_isReference ht)).mp hv)

/-- Where no slot has the type, any object may be the one in the slots of the type. -/
theorem Frame.Holds.hides {f : Frame} {t : FrameType} (hf : f.Holds (Hides name n w) t) (hstack : .raw name ∉ t.stack)
    (hlocals : some (.raw name) ∉ t.locals) (w' : Nat) : f.Holds (Hides name n w') t := by
  constructor
  · have hvs := hf.stack
    rw [List.forall₂_iff_get] at hvs ⊢
    refine ⟨hvs.1, fun k hx hv => ?_⟩
    have hne : t.stack.get ⟨k, hx⟩ ≠ .raw name := fun heq => hstack (heq ▸ List.get_mem ..)
    exact (hides_iff hne).mpr ((hides_iff hne).mp (hvs.2 k hx hv))
  · intro slot x hx
    have hne : x ≠ .raw name := by
      rintro rfl
      exact hlocals (List.mem_of_getElem? hx)
    exact (hides_iff hne).mpr ((hides_iff hne).mp (hf.locals hx))

end

/-! ## Steps of the method -/

/-- An object of the class is made only where no slot has the type of another one. -/
def MakesSingly (u : CodeUnit) (m : Method) (i : Inference) (name : String) : Prop :=
  ∀ {q : Nat} {k : UInt16} {t : FrameType}, m.code[q]? = some (.onConst .newObject k) →
    u.pool.classAt k = .ok name → i.at? q = some t → .raw name ∉ t.stack ∧ some (.raw name) ∉ t.locals

/-- A frame of the method keeps the object `n` in the slots for new objects of the class, if it has it at all; and it
may have it once there are more than `n` objects. -/
structure Frame.Keeper (u : CodeUnit) (m : Method) (i : Inference) (name : String) (n size : Nat) (f : Frame) :
    Prop where
  unit : f.unit = u
  method : f.method = m
  slots : ∃ t w, i.at? f.pc = some t ∧ (w = n → n < size) ∧ f.Holds (Hides name n w) t

section

variable {u : CodeUnit} {m : Method} {i : Inference} {h : Hierarchy} {p : Program} {name : String} {n : Nat}
  {f g w : Frame} {s s' : Store} {instr : Instr UInt16} {r : Progress}

/-- A frame that keeps an object still does when more are made. -/
theorem Frame.Keeper.mono {size size' : Nat} (hf : f.Keeper u m i name n size) (hle : size ≤ size') :
    f.Keeper u m i name n size' := by
  obtain ⟨hunit, hmethod, t, w, ht, hw, hholds⟩ := hf
  exact ⟨hunit, hmethod, t, w, ht, fun h => Nat.lt_of_lt_of_le (hw h) hle, hholds⟩

def MakesOf (u : CodeUnit) (name : String) (instr : Instr UInt16) : Prop :=
  ∃ k, instr = .onConst .newObject k ∧ u.pool.classAt k = .ok name

/-- What the code of the application answers is not the object `n`, if this is there already or is not made by it. -/
theorem Program.AnsweredBy.other {args : List Value} {v : Value} (hp : p.Honest)
    (hby : p.AnsweredBy (Other n) s args v s') (hargs : ∀ w ∈ args, w.Only (Other n))
    (hn : n < s.objects.size ∨ s'.objects.size ≤ n) : s'.Only (Other n) ∧ v.Only (Other n) := by
  refine hby.only hp hargs fun _ number hge hlt => ?_
  show number ≠ n
  omega

/-- Before the next step a frame of the method keeps the object that it may be about to make, too. -/
theorem Frame.Keeper.ready (hsingle : MakesSingly u m i name) (hf : f.Keeper u m i name n s.objects.size)
    (hinstr : f.method.code[f.pc]? = some instr)
    (hdoes : p.Does { f with pc := f.pc + 1 } s instr r s') (hsize : s.objects.size ≤ s'.objects.size) :
    ∃ t w, i.at? f.pc = some t ∧ (w = n → n < s'.objects.size) ∧ f.Holds (Hides name n w) t ∧
      (MakesOf u name instr → w = s.objects.size) ∧ (¬MakesOf u name instr → w = n → n < s.objects.size) := by
  obtain ⟨hunit, hmethod, t, w, ht, hw, hholds⟩ := hf
  by_cases hmakes : MakesOf u name instr
  · obtain ⟨k, rfl, hname⟩ := hmakes
    -- No slot has the type, so the object in its slots may as well be the one that is made now.
    obtain ⟨hstack, hlocals⟩ := hsingle (hmethod ▸ hinstr) hname ht
    refine ⟨t, s.objects.size, ht, fun heq => ?_, hholds.hides hstack hlocals _, fun _ => rfl, fun h => ?_⟩
    · obtain ⟨_, -, -, rfl⟩ := hdoes.newObject_eq
      simp [Store.newObject, ← heq]
    · exact absurd ⟨k, rfl, hname⟩ h
  · exact ⟨t, w, ht, fun heq => Nat.lt_of_lt_of_le (hw heq) hsize, hholds, fun h => absurd h hmakes, fun _ => hw⟩

section

variable {c : Checker} {t t' : FrameType} {flow : Flow} {x : Nat}

/-- A constructor is not called on the object `n`, if that is not what the step does. -/
theorem Frame.Holds.other_of_special (hinstr : f.method.code[f.pc]? = some instr) (hpool : c.pool = f.unit.pool)
    (hstep : c.step t instr = .ok (flow, t')) (hf : f.Holds (Hides name n x) t)
    (hx : ¬MakesOf u name instr → x = n → n < s.objects.size) (hcon : n < s.objects.size → ¬f.Constructs n)
    {k : UInt16} {member : Member} {signature : Signature} {args rest : List Value} {receiver : Value}
    (hspecial : instr = .onConst .invokeSpecial k) (hm : f.unit.pool.methodAt k false = .ok member)
    (hsignature : signatureOf member.descriptor = .ok signature) (hargs : args.length = signature.params.length)
    (hstack : f.stack = args.reverse ++ receiver :: rest) : receiver.Only (Other n) := by
  subst hspecial
  have hname : member.name = "<init>" := by
    cases Checker.hasEffect_of_step hstep with
    | invokeSpecial hm' _ hname =>
        obtain rfl := Except.ok.inj (hm'.symm.trans (hpool ▸ hm))
        exact hname
  obtain ⟨g, hg, hrest, -⟩ := Frame.exists_pushAll hstack
  obtain ⟨g', rfl, -⟩ := Frame.exists_push hrest
  obtain ⟨hsuited, -⟩ := Program.invoke_holds (by simp) hstep (hg ▸ hf) (hpool ▸ hm) hsignature hargs
  have hreceiver := hsuited.constructed rfl
  -- Only a raw slot of the class stands for the object, and then its constructor would be called.
  by_cases howner : member.owner = name
  · rw [howner, hides_raw_iff] at hreceiver
    subst hreceiver
    rw [Value.only_object]
    intro hxn
    have hlt := hx (by rintro ⟨k, h, -⟩; cases h) hxn
    exact hcon hlt ⟨k, member, signature, args, name, rest, hinstr, hm, hname, hsignature, hargs, hxn ▸ hstack⟩
  · exact (hides_iff (by simpa using howner)).mp hreceiver

/-- What the step of a frame of the method brings up keeps the object hidden. -/
theorem Frame.Holds.supplies (hp : p.Honest) (hinstr : f.method.code[f.pc]? = some instr) (hu : f.unit = u)
    (hpool : c.pool = u.pool) (hstep : c.step t instr = .ok (flow, t')) (hs : s.Only (Other n))
    (hdoes : p.Does { f with pc := f.pc + 1 } s instr r s') (hf : f.Holds (Hides name n x) t)
    (hmakes : MakesOf u name instr → x = s.objects.size) (hx : ¬MakesOf u name instr → x = n → n < s.objects.size)
    (hcon : n < s.objects.size → ¬f.Constructs n)
    (hn : MakesOf u name instr ∨ n < s.objects.size ∨ s'.objects.size ≤ n) :
    p.Supplies c (Hides name n x) { f with pc := f.pc + 1 } s s' instr := by
  have hpool' : c.pool = f.unit.pool := hu ▸ hpool
  have hspecial := fun k member signature args receiver rest =>
    @Frame.Holds.other_of_special u name n f s instr c t t' flow x hinstr hpool' hstep hf hx hcon k member signature
      args rest receiver
  have hanswer : ∀ {op k}, instr = .onConst op k → op ≠ .newObject → n < s.objects.size ∨ s'.objects.size ≤ n := by
    rintro op k rfl hop
    refine hn.resolve_left ?_
    rintro ⟨k', h, -⟩
    cases h
    exact hop rfl
  constructor
  case field =>
    intro g k member type unit number _ _ _ _ _
    exact (hides_iff SlotType.of_ne_raw).mpr (hs.field _ _)
  case static =>
    intro k member type _ _ _
    exact (hides_iff SlotType.of_ne_raw).mpr (only_staticField _ _)
  case object =>
    intro k name' hk hname'
    subst hk
    by_cases hname : name' = name
    · subst hname
      rw [hides_raw_iff, hmakes ⟨k, rfl, hpool ▸ hname'⟩]
    · rw [hides_iff (by simpa using hname), Value.only_object]
      obtain ⟨_, -, -, rfl⟩ := hdoes.newObject_eq
      -- An object of another class is not the one that is hidden, which is there already or not made yet.
      have hother : ¬MakesOf u name (.onConst .newObject k) := by
        rintro ⟨k', h, hname''⟩
        cases h
        rw [← hpool, hname'] at hname''
        exact hname (Except.ok.inj hname'')
      have hn := hn.resolve_left hother
      simp only [Store.newObject, Array.size_push] at hn
      show s.objects.size ≠ n
      omega
  case ready =>
    intro g k member signature receiver args hk hm hsignature hf' hsuited y v hv
    split
    · next hy =>
      subst hy
      rw [hides_iff (by simp)]
      -- The slots that are marked as constructed hold the receiver, on which a constructor may be called.
      by_cases howner : member.owner = name
      · have hreceiver := hsuited.constructed rfl
        rw [howner, hides_raw_iff] at hv hreceiver
        rw [hv, ← hreceiver]
        exact hspecial k member signature args receiver g.stack hk (hpool' ▸ hm) hsignature hsuited.args.length_eq.symm
          (congrArg Frame.stack hf')
      · exact (hides_iff (by simpa using howner)).mp hv
    · exact hv
  case answerStatic =>
    intro g k member signature args v hk _ _ _ hargs hcall type _
    have hargs := only_of_accepted hargs
    have hby := Program.callStatic_answered hs hargs hcall
    exact (hides_iff SlotType.of_ne_raw).mpr (hby.other hp hargs (hanswer hk (by simp))).2
  case answer =>
    intro g op k member signature receiver args v hk hop hm hsignature hf' hsuited hcall type _
    have hargs := only_of_accepted hsuited.args
    have hreceiver : receiver.Only (Other n) := by
      by_cases hspecial' : op = .invokeSpecial
      · subst hspecial'
        exact hspecial k member signature args receiver g.stack hk (hpool' ▸ hm) hsignature
          hsuited.args.length_eq.symm (congrArg Frame.stack hf')
      · exact (hsuited.receiver hspecial').only
    rcases Program.call_cases hs hreceiver hargs hcall with ⟨_, _, _, _, -, -, -, hcalled, -⟩ | ⟨v', hcalled, hby⟩
    · cases hcalled
    · cases hcalled
      exact (hides_iff SlotType.of_ne_raw).mpr (hby.other hp hargs (hanswer hk (by rintro rfl; simp at hop))).2

/-- What a frame of the method gives away is not the object. -/
theorem Frame.Keeper.gives {start : FrameType} {v : Value}
    (hstable : i.Stable ⟨u.pool, h, m.signature.result⟩ m.code (Above (Hides name n)) start)
    (hf : f.Keeper u m i name n x) (hinstr : f.method.code[f.pc]? = some instr) (hv : f.Gives instr v) :
    v.Only (Other n) := by
  obtain ⟨rfl, rfl, t, y, ht, -, hholds⟩ := hf
  obtain ⟨instr', flow, t', hinstr', hstep, -⟩ := hstable.settled ht
  obtain rfl := Option.some.inj (hinstr.symm.trans hinstr')
  obtain ⟨type, haccepted⟩ := hv.accepted hstep rfl hholds
  exact haccepted.only

/-- **A step of the method hides the object**: from the store, from a method that it enters, and in its own frame from
all slots but those for new objects. -/
theorem Frame.Keeper.step {start : FrameType} (hp : p.Honest)
    (hstable : i.Stable ⟨u.pool, h, m.signature.result⟩ m.code (Above (Hides name n)) start)
    (hsingle : MakesSingly u m i name) (hf : f.Keeper u m i name n s.objects.size) (hs : s.Only (Other n))
    (hinstr : f.method.code[f.pc]? = some instr) (hdoes : p.Does { f with pc := f.pc + 1 } s instr r s')
    (hcon : n < s.objects.size → ¬f.Constructs n)
    (hn : MakesOf u name instr ∨ n < s.objects.size ∨ s'.objects.size ≤ n) :
    s'.Only (Other n) ∧ (∀ g, r = .running g [] → g.Keeper u m i name n s'.objects.size) ∧
      ∀ g w, r = .running g [w] → g.Only (Other n) ∧
        ∀ v, v.Only (Other n) → (w.receive g.keeps v).Keeper u m i name n s'.objects.size := by
  have hgives := fun v (hv : f.Gives instr v) => hf.gives hstable hinstr hv
  obtain ⟨t, y, ht, hy, hholds, hmakes, hother⟩ := hf.ready hsingle hinstr hdoes (hdoes.size_le hp)
  obtain ⟨instr', flow, t', hinstr', hstep, -, -, hcovers⟩ := hstable.settled ht
  obtain rfl := Option.some.inj ((hf.method ▸ hinstr).symm.trans hinstr')
  have hpool := hf.unit
  subst hpool
  have hspecial := fun k member signature args receiver rest =>
    @Frame.Holds.other_of_special f.unit name n f s instr _ t t' flow y hinstr rfl hstep hholds hother hcon k member
      signature args rest receiver
  -- An object may be new in the store only where the unit makes it, and that is no answer of the host.
  have hanswer : ∀ args v, (∀ w ∈ args, w.Only (Other n)) → p.AnsweredBy (Other n) s args v s' → s'.Only (Other n) := by
    intro args v hargs hby
    rcases hn with ⟨k, rfl, -⟩ | hn
    · obtain ⟨_, -, -, rfl⟩ := hdoes.newObject_eq
      exact hs.newObject _
    · exact (hby.other hp hargs hn).1
  obtain ⟨hs', hentered⟩ := hdoes.only_of_gives hs
    (fun v hv => hgives v hv.of_pc) hspecial hanswer
  have hsupplies := hholds.supplies hp hinstr rfl rfl hstep hs hdoes hmakes hother hcon hn
  have hcarries := hdoes.carries (hides_sense p) hsupplies hstep rfl (hholds.goes _) rfl
  refine ⟨hs', ?_, ?_⟩
  · -- The method goes on itself.
    rintro g rfl
    obtain ⟨hpc, hg⟩ := hcarries
    obtain ⟨k, hk, habove⟩ := hcovers g.pc hpc
    have hsame := hdoes.sameCall.1 g rfl
    exact ⟨hsame.unit, hsame.method.trans hf.method, k, y, hk, hy, habove y g hg⟩
  · -- Another method was entered, and this one waits for what it gives back.
    rintro g w rfl
    refine ⟨hentered g w rfl, fun v hv => ?_⟩
    obtain ⟨hpc, op, k, member, signature, receiver, args, g₀, -, -, -, -, -, -, -, rfl, hresume⟩ := hcarries
    obtain ⟨k, hk, habove⟩ := hcovers w.pc hpc
    have hsame := (hdoes.sameCall.2 _ w rfl).trans (w.sameCall_receive signature.result.isSome v)
    refine ⟨hsame.unit, hsame.method.trans hf.method, k, y, by rwa [Frame.pc_receive], hy, habove y _ ?_⟩
    exact hresume v fun type _ => (hides_iff SlotType.of_ne_raw).mpr hv

end

/-! ## Runs of the method -/

/-- The running frame and those that wait above the callers of the method do not have the object `n`, apart from the
frame of the method itself, which keeps it. -/
def Hidden (u : CodeUnit) (m : Method) (i : Inference) (name : String) (n size : Nat) : Frame → List Frame → Prop
  | f, [] => f.Keeper u m i name n size
  | f, [w] => f.Only (Other n) ∧ ∀ v, v.Only (Other n) → (w.receive f.keeps v).Keeper u m i name n size
  | f, w :: w' :: inner => f.Only (Other n) ∧ Hidden u m i name n size w (w' :: inner)

/-- An object that is hidden stays so when more are made. -/
theorem Hidden.mono {size size' : Nat} (hle : size ≤ size') {inner : List Frame} {f : Frame}
    (h : Hidden u m i name n size f inner) : Hidden u m i name n size' f inner := by
  induction inner generalizing f with
  | nil => exact Frame.Keeper.mono h hle
  | cons w inner ih =>
      cases inner with
      | nil => exact ⟨h.1, fun v hv => (h.2 v hv).mono hle⟩
      | cons w' inner => exact ⟨h.1, ih h.2⟩

/-- Of a frame above the method only matters that it does not have the object, and whether its result is kept. -/
theorem Hidden.congr {size : Nat} {inner : List Frame} (h : Hidden u m i name n size f (w :: inner))
    (hg : g.Only (Other n)) (hkeeps : g.keeps = f.keeps) : Hidden u m i name n size g (w :: inner) := by
  cases inner with
  | nil =>
      refine ⟨hg, fun v hv => ?_⟩
      rw [hkeeps]
      exact h.2 v hv
  | cons w' inner => exact ⟨hg, h.2⟩

/-- A frame above the one that keeps the object does not hold it. -/
theorem Hidden.only {size : Nat} {inner : List Frame} (h : Hidden u m i name n size f (w :: inner)) :
    f.Only (Other n) := by
  cases inner <;> exact h.1

/-- **A step of the run keeps the object hidden.** -/
theorem Hidden.step {start : FrameType} {inner inner' callers : List Frame} (hp : p.Honest)
    (hstable : i.Stable ⟨u.pool, h, m.signature.result⟩ m.code (Above (Hides name n)) start)
    (hsingle : MakesSingly u m i name) (hf : Hidden u m i name n s.objects.size f inner) (hs : s.Only (Other n))
    (hstep : s.perform (p.advance f (inner ++ callers)) = (.ok (.running g (inner' ++ callers)), s'))
    (hcon : n < s.objects.size → ¬f.Constructs n)
    (hn : (inner = [] ∧ ∀ instr, f.method.code[f.pc]? = some instr → MakesOf u name instr) ∨ n < s.objects.size ∨
      s'.objects.size ≤ n) :
    s.objects.size ≤ s'.objects.size ∧ s'.Only (Other n) ∧ Hidden u m i name n s'.objects.size g inner' := by
  obtain ⟨instr, hinstr, hcases⟩ := Program.advance_cases hstep
  cases inner with
  | nil =>
      -- The method itself is running. It goes on or enters another one; its return would end the run.
      have hn : MakesOf u name instr ∨ n < s.objects.size ∨ s'.objects.size ≤ n := hn.imp_left fun h => h.2 instr hinstr
      rcases hcases with ⟨hdoes, hcallers⟩ | ⟨w, hdoes, hcallers⟩ | ⟨v, w, -, hcallers, -⟩
      · obtain ⟨hs', hrunning, -⟩ := Frame.Keeper.step hp hstable hsingle hf hs hinstr hdoes hcon hn
        obtain rfl : inner' = [] := by simpa using hcallers
        exact ⟨hdoes.size_le hp, hs', hrunning g rfl⟩
      · obtain ⟨hs', -, hentered⟩ := Frame.Keeper.step hp hstable hsingle hf hs hinstr hdoes hcon hn
        obtain rfl : inner' = [w] := List.append_cancel_right (hcallers.trans (List.singleton_append ..).symm)
        exact ⟨hdoes.size_le hp, hs', hentered g w rfl⟩
      · have := congrArg List.length hcallers
        simp at this
        omega
  | cons w inner =>
      -- A method that it has called is running, which does not have the object.
      have hn : n < s.objects.size ∨ s'.objects.size ≤ n := hn.resolve_left (by simp)
      have step : ∀ {r : Progress}, p.Does { f with pc := f.pc + 1 } s instr r s' →
          s.objects.size ≤ s'.objects.size ∧ s'.Only (Other n) ∧ r.Only (Other n) := by
        intro r hdoes
        refine ⟨hdoes.size_le hp, hdoes.only hs ⟨hf.only.locals, hf.only.stack⟩ ?_ fun _ _ hargs hby =>
          hby.other hp hargs hn⟩
        rintro k name' rfl -
        obtain ⟨_, -, -, rfl⟩ := hdoes.newObject_eq
        simp only [Store.newObject, Array.size_push] at hn
        show s.objects.size ≠ n
        omega
      rcases hcases with ⟨hdoes, hcallers⟩ | ⟨w', hdoes, hcallers⟩ | ⟨v, w', hdoes, hcallers, rfl⟩
      · obtain ⟨hsize, hs', hg, -⟩ := step hdoes
        obtain rfl := List.append_cancel_right hcallers
        exact ⟨hsize, hs', (hf.mono hsize).congr hg (hdoes.sameCall.1 g rfl).keeps⟩
      · obtain ⟨hsize, hs', hg, hw⟩ := step hdoes
        obtain rfl : inner' = w' :: w :: inner := List.append_cancel_right hcallers
        have hw' : w'.Only (Other n) := hw w' List.mem_cons_self
        exact ⟨hsize, hs', hg, (hf.mono hsize).congr hw' (hdoes.sameCall.2 g w' rfl).keeps⟩
      · obtain ⟨hsize, hs', hv⟩ := step hdoes
        rw [List.cons_append, List.cons.injEq] at hcallers
        obtain ⟨rfl, hinner⟩ := hcallers
        obtain rfl := List.append_cancel_right hinner
        refine ⟨hsize, hs', ?_⟩
        cases inner with
        | nil => exact (hf.2 v hv).mono hsize
        | cons w' inner =>
            have hrest : Hidden u m i name n s'.objects.size w (w' :: inner) := (hf.mono hsize).2
            exact hrest.congr (hrest.only.receive _ hv) (w.sameCall_receive _ v).keeps

/-- What a method is entered with is no object that is still to be made. -/
theorem Frame.Keeper.start {receiver : Value} {args : List Value} {keeps : Bool}
    (hstable : i.Stable ⟨u.pool, h, m.signature.result⟩ m.code (Above (Hides name n))
      (.entry u.name m.signature.params))
    (hargs : ∀ v ∈ receiver :: args, v.Only (Other n)) (size : Nat) :
    (Frame.start u m receiver args keeps).Keeper u m i name n size := by
  obtain ⟨k, hk, habove⟩ := hstable.entry
  -- There are no new objects yet, so any other number does for the one in their slots.
  refine ⟨rfl, rfl, k, n + 1, hk, fun h => absurd h (Nat.succ_ne_self n), habove (n + 1) _ ⟨.nil, ?_⟩⟩
  intro slot x hx
  have hne : x ≠ .raw name := by
    rintro rfl
    rcases List.mem_cons.mp (List.mem_of_getElem? hx) with hx | hx
    · cases hx
    · obtain ⟨type, -, htype⟩ := List.mem_map.mp hx
      exact SlotType.of_ne_raw (Option.some.inj htype)
  rw [hides_iff hne, Array.getD_eq_getD_getElem?, Frame.start]
  cases hv : (receiver :: args).toArray[slot]? with
  | none => exact .of_leaf rfl
  | some v => exact hargs v (by simpa using Array.mem_of_getElem? hv)

/-- An honest program takes no objects away in a step. -/
theorem Program.advance_size_le {callers callers' : List Frame} (hp : p.Honest)
    (hstep : s.perform (p.advance f callers) = (.ok (.running g callers'), s')) : s.objects.size ≤ s'.objects.size := by
  obtain ⟨instr, -, ⟨hdoes, -⟩ | ⟨_, hdoes, -⟩ | ⟨_, _, hdoes, -⟩⟩ := Program.advance_cases hstep
  all_goals exact hdoes.size_le hp

section

variable {receiver : Value} {args : List Value} {keeps : Bool} {callers inner : List Frame} {s₀ : Store}

/-- Up to the making of the object it is not there. -/
theorem Program.Within.hidden (hp : p.Honest)
    (hstable : i.Stable ⟨u.pool, h, m.signature.result⟩ m.code (Above (Hides name n))
      (.entry u.name m.signature.params))
    (hsingle : MakesSingly u m i name) (hs₀ : s₀.Only fun _ number => number < s₀.objects.size)
    (hargs : ∀ v ∈ receiver :: args, v.Only fun _ number => number < s₀.objects.size)
    (hrun : p.Within callers (.start u m receiver args keeps) s₀ f inner s) (hsize : s.objects.size ≤ n) :
    s.Only (Other n) ∧ Hidden u m i name n s.objects.size f inner := by
  induction hrun with
  | entry =>
      have hother : ∀ (unit : String) (number : Nat), number < s₀.objects.size → Other n unit number := by
        intro unit number hlt
        show number ≠ n
        omega
      exact ⟨hs₀.mono hother, .start hstable (fun v hv => (hargs v hv).mono hother) _⟩
  | @step f g inner inner' s s' hrun hstep ih =>
      have hle := Nat.le_trans (Program.advance_size_le hp hstep) hsize
      obtain ⟨hs, hhidden⟩ := ih hle
      exact (hhidden.step hp hstable hsingle hs hstep (fun hlt => absurd hlt (by omega)) (.inr (.inr hsize))).2

/-- From the making of the object on it is hidden, as long as no constructor is called on it. -/
theorem Program.Pending.hidden (hp : p.Honest)
    (hstable : i.Stable ⟨u.pool, h, m.signature.result⟩ m.code (Above (Hides name n))
      (.entry u.name m.signature.params))
    (hsingle : MakesSingly u m i name) (hs₀ : s₀.Only fun _ number => number < s₀.objects.size)
    (hargs : ∀ v ∈ receiver :: args, v.Only fun _ number => number < s₀.objects.size)
    (hrun : p.Pending name n callers (.start u m receiver args keeps) s₀ f inner s) :
    n < s.objects.size ∧ s.Only (Other n) ∧ Hidden u m i name n s.objects.size f inner := by
  induction hrun with
  | @made f g k s s' hrun hinstr hname hsize hstep =>
      -- What ran before the object was made cannot hold it.
      obtain ⟨hs, hhidden⟩ := hrun.hidden hp hstable hsingle hs₀ hargs (Nat.le_of_eq hsize)
      have hmakes : ∀ instr, f.method.code[f.pc]? = some instr → MakesOf u name instr := by
        intro instr hinstr'
        have hunit : f.unit = u := hhidden.unit
        exact ⟨k, Option.some.inj (hinstr'.symm.trans hinstr), hunit ▸ hname⟩
      have hstep' : s.perform (p.advance f ([] ++ callers)) = (.ok (.running g ([] ++ callers)), s') := hstep
      have hstep' := hhidden.step hp hstable hsingle hs hstep' (fun hlt => absurd hlt (by omega)) (.inl ⟨rfl, hmakes⟩)
      refine ⟨?_, hstep'.2⟩
      obtain ⟨instr, hinstr', hcases⟩ := Program.advance_cases hstep
      obtain rfl := Option.some.inj (hinstr'.symm.trans hinstr)
      rcases hcases with ⟨hdoes, -⟩ | ⟨_, hdoes, -⟩ | ⟨_, _, hdoes, -⟩
      all_goals
        obtain ⟨_, -, -, rfl⟩ := hdoes.newObject_eq
        simp [Store.newObject, hsize]
  | @step f g inner inner' s s' hrun hcon hstep ih =>
      obtain ⟨hlt, hs, hhidden⟩ := ih
      obtain ⟨hle, hs', hhidden'⟩ :=
        hhidden.step hp hstable hsingle hs hstep (fun _ => hcon) (.inr (.inl hlt))
      exact ⟨Nat.lt_of_lt_of_le hlt hle, hs', hhidden'⟩

end

end

/-- **An object stays with the call that makes it, until its constructor has been called on it**, in a method that is
accepted and makes no object of its class where a slot has the type of another one. Enter the method with anything that
is there, in a program whose host code is honest, and run it from where it makes the object on, through all methods that
it calls. No instruction gives away a value that refers to the object before a constructor is called on it. -/
theorem pending_stays {u : CodeUnit} {m : Method} {rounds : Nat} {h : Hierarchy} {i : Inference}
    (hinfer : u.infer rounds h m = .ok i) {name : String} (hsingle : MakesSingly u m i name) {p : Program}
    (hp : p.Honest) {receiver : Value} {args : List Value} {s₀ : Store}
    (hs₀ : s₀.Only fun _ number => number < s₀.objects.size)
    (hargs : ∀ v ∈ receiver :: args, v.Only fun _ number => number < s₀.objects.size) {keeps : Bool}
    {callers inner : List Frame} {n : Nat} {f : Frame} {s : Store}
    (hrun : p.Pending name n callers (.start u m receiver args keeps) s₀ f inner s) {instr : Instr UInt16}
    (hinstr : f.method.code[f.pc]? = some instr) {v : Value} (hv : f.Gives instr v) (unit : String) :
    ¬v.Refers unit n := by
  have hstable := u.infer_stable (hides_joinOrder _ name n) hinfer
  obtain ⟨-, -, hhidden⟩ := hrun.hidden hp hstable hsingle hs₀ hargs
  have hother : v.Only (Other n) := by
    cases inner with
    | nil => exact Frame.Keeper.gives hstable hhidden hinstr hv
    | cons w inner => exact hhidden.only.stack v hv.mem_stack
  exact fun hrefers => hother unit n hrefers rfl

/-! ## Two classes of methods -/

/-- A constructor that does nothing. -/
def construct : Method := ⟨"<init>", .void [], 0, 1, #[.bare .returnVoid]⟩

/-- A method that makes an object of its class and notes a text in its own object before it calls the constructor. -/
def note : Method where
  name := "note"
  signature := .returning [.object Platform.string] (.object "gen.C")
  maxStack := 3
  maxLocals := 2
  code := #[.onConst .newObject 0, .onLocal .load 0, .onLocal .load 1, .onConst .putField 2, .bare .dup,
    .onConst .invokeSpecial 1, .bare .returnValue]

/-- A method that makes two objects of its class, calls the constructor of the second one and returns the first one. -/
def twin : Method where
  name := "twin"
  signature := .returning [] (.object "gen.C")
  maxStack := 2
  maxLocals := 1
  code := #[.onConst .newObject 0, .onConst .newObject 0, .onConst .invokeSpecial 1, .bare .returnValue]

def maker : CodeUnit where
  name := "gen.C"
  role := .handler
  interfaces := []
  pool := ⟨#[.classRef "gen.C", .method ⟨"gen.C", "<init>", "()V"⟩, .field ⟨"gen.C", "text", "Llang.String;"⟩]⟩
  fields := []
  methods := [construct, note, twin]

def makerProgram : Program := ⟨[maker], ∅, [], 100, #[]⟩

def makerStore : Store := { Store.empty with objects := #[[]] }

theorem honest_makerProgram : makerProgram.Honest := by
  rintro code (⟨stub, hstub, -⟩ | ⟨name, hname⟩)
  · simp [makerProgram] at hstub
  · simp [makerProgram] at hname

theorem makerStore_only {P : String → Nat → Prop} : makerStore.Only P := by
  constructor <;> simp [makerStore, Store.empty]

/-- A frame of `note`, called on the first object with a text. -/
def noteFrame (pc : Nat) (stack : List Value) : Frame :=
  ⟨maker, note, pc, #[.object "gen.C" 0, .text "x"], stack, true⟩

/-- An instruction that is no call of a constructor constructs nothing. -/
theorem Frame.not_constructs {f : Frame} {i : Instr UInt16} {n : Nat} (hinstr : f.method.code[f.pc]? = some i)
    (hi : ∀ k, i ≠ .onConst .invokeSpecial k) : ¬f.Constructs n := by
  rintro ⟨k, m, signature, args, unit, rest, hcode, -⟩
  exact hi k (Option.some.inj (hinstr.symm.trans hcode))

theorem pending_stays_note :
    ∃ i f s, maker.infer 20 ∅ note = .ok i ∧ MakesSingly maker note i "gen.C" ∧
      makerProgram.Pending "gen.C" 1 [] (.start maker note (.object "gen.C" 0) [.text "x"] true) makerStore f [] s ∧
      f.method.code[f.pc]? = some (.onConst .putField 2) ∧ f.Gives (.onConst .putField 2) (.text "x") ∧
      ¬(Value.text "x").Refers "gen.C" 1 := by
  have hfirst : (maker.infer 20 ∅ note).map (·.at? 0) =
      .ok (some ⟨[], [some (.ref "gen.C"), some (.ref Platform.string)]⟩) := by decide +kernel
  rcases hinfer : maker.infer 20 ∅ note with e | i
  · simp [hinfer, Except.map] at hfirst
  · rw [hinfer] at hfirst
    have hfirst : i.at? 0 = some ⟨[], [some (.ref "gen.C"), some (.ref Platform.string)]⟩ := by
      simpa [Except.map] using hfirst
    have hsingle : MakesSingly maker note i "gen.C" := by
      intro q k t hk _ ht
      obtain rfl : q = 0 := by
        rcases q with _ | _ | _ | _ | _ | _ | _ | q <;> simp [note] at hk ⊢
      rw [hfirst] at ht
      cases ht
      simp
    have hmade : makerProgram.Pending "gen.C" 1 [] (.start maker note (.object "gen.C" 0) [.text "x"] true) makerStore
        (noteFrame 1 [.object "gen.C" 1]) [] (makerStore.newObject "gen.C").2 := .made .entry rfl rfl rfl rfl
    have hload : makerProgram.Pending "gen.C" 1 [] (.start maker note (.object "gen.C" 0) [.text "x"] true) makerStore
        (noteFrame 2 [.object "gen.C" 0, .object "gen.C" 1]) [] (makerStore.newObject "gen.C").2 :=
      .step hmade (Frame.not_constructs (i := .onLocal .load 0) rfl (by simp)) rfl
    have hrun : makerProgram.Pending "gen.C" 1 [] (.start maker note (.object "gen.C" 0) [.text "x"] true) makerStore
        (noteFrame 3 [.text "x", .object "gen.C" 0, .object "gen.C" 1]) [] (makerStore.newObject "gen.C").2 :=
      .step hload (Frame.not_constructs (i := .onLocal .load 1) rfl (by simp)) rfl
    have hgives : (noteFrame 3 [.text "x", .object "gen.C" 0, .object "gen.C" 1]).Gives (.onConst .putField 2)
        (.text "x") := .field rfl
    have hargs : ∀ v ∈ [Value.object "gen.C" 0, .text "x"],
        v.Only fun _ number => number < makerStore.objects.size := by
      simpa [makerStore] using .of_leaf rfl
    exact ⟨i, _, _, rfl, hsingle, hrun, rfl, hgives,
      pending_stays hinfer hsingle honest_makerProgram makerStore_only hargs hrun rfl hgives "gen.C"⟩

def twinFrame (pc : Nat) (stack : List Value) : Frame := ⟨maker, twin, pc, #[.object "gen.C" 0], stack, true⟩

/-- **An object can be returned before its constructor has run**, by a method that is accepted: where there are two of
its class, the call of a constructor on one of them counts for the other one, too. -/
theorem twin_escapes :
    maker.verify ∅ = .ok () ∧ twin ∈ maker.methods ∧ ∃ f s,
      makerProgram.Pending "gen.C" 1 [] (.start maker twin (.object "gen.C" 0) [] true) makerStore f [] s ∧
        f.method.code[f.pc]? = some (.bare .returnValue) ∧ f.Gives (.bare .returnValue) (.object "gen.C" 1) := by
  have hverify : maker.verify ∅ = .ok () := by decide +kernel
  have hdescriptor : signatureOf "()V" = .ok (.void []) := by decide +kernel
  have hmade : makerProgram.Pending "gen.C" 1 [] (.start maker twin (.object "gen.C" 0) [] true) makerStore
      (twinFrame 1 [.object "gen.C" 1]) [] (makerStore.newObject "gen.C").2 := .made .entry rfl rfl rfl rfl
  have hsecond : makerProgram.Pending "gen.C" 1 [] (.start maker twin (.object "gen.C" 0) [] true) makerStore
      (twinFrame 2 [.object "gen.C" 2, .object "gen.C" 1]) []
      ((makerStore.newObject "gen.C").2.newObject "gen.C").2 :=
    .step hmade (Frame.not_constructs (i := .onConst .newObject 0) rfl (by simp)) rfl
  -- The constructor is called on the second object, not on the first one.
  have hother : ¬(twinFrame 2 [.object "gen.C" 2, .object "gen.C" 1]).Constructs 1 := by
    rintro ⟨k, m, signature, args, unit, rest, hcode, hm, -, hsignature, hargs, hstack⟩
    cases hcode
    obtain rfl : ⟨"gen.C", "<init>", "()V"⟩ = m := Except.ok.inj hm
    obtain rfl : Signature.void [] = signature := Except.ok.inj (hdescriptor.symm.trans hsignature)
    obtain rfl : args = [] := List.length_eq_zero_iff.mp hargs
    simp [twinFrame] at hstack
  have hcall : ((makerStore.newObject "gen.C").2.newObject "gen.C").2.perform
      (makerProgram.advance (twinFrame 2 [.object "gen.C" 2, .object "gen.C" 1]) []) =
        (.ok (.running ⟨maker, construct, 0, #[.object "gen.C" 2], [], false⟩ [twinFrame 3 [.object "gen.C" 1]]),
          ((makerStore.newObject "gen.C").2.newObject "gen.C").2) := by
    let f := twinFrame 3 [.object "gen.C" 2, .object "gen.C" 1]
    have hm : f.unit.pool.methodAt 1 (ConstOp.invokeSpecial == .invokeInterface) = .ok ⟨"gen.C", "<init>", "()V"⟩ := rfl
    show Store.perform _ (makerProgram.stepCall f [] .invokeSpecial 1) = _
    rw [Program.stepCall, Store.perform_bind, hm]
    simp only [Store.perform_orUnitFault_ok, Store.perform_bind, hdescriptor]
    rfl
  have hentered : makerProgram.Pending "gen.C" 1 [] (.start maker twin (.object "gen.C" 0) [] true) makerStore
      ⟨maker, construct, 0, #[.object "gen.C" 2], [], false⟩ [twinFrame 3 [.object "gen.C" 1]]
      ((makerStore.newObject "gen.C").2.newObject "gen.C").2 := .step hsecond hother hcall
  have hback : makerProgram.Pending "gen.C" 1 [] (.start maker twin (.object "gen.C" 0) [] true) makerStore
      (twinFrame 3 [.object "gen.C" 1]) [] ((makerStore.newObject "gen.C").2.newObject "gen.C").2 :=
    .step hentered (Frame.not_constructs (i := .bare .returnVoid) rfl (by simp)) rfl
  exact ⟨hverify, by decide, _, _, hback, rfl, .returned rfl⟩

end Routecraft.Machine
