import Routecraft.Proofs.Assembly.Drafting
import Routecraft.Proofs.Execution.References
import Routecraft.Proofs.Verification.Types

/-!
# The members that linked units name

Linking checks the methods of each unit, and that there is a unit for every class that an object is made of. It does
not look up the fields and the methods that the constants of a unit name. The checker believes what the constants say
of them, and the machine goes by the names alone. So types are kept from one unit to another only if the members agree:
if what is written to a field is what readers of a field of this name expect, and if the methods of a name take and
return what their callers say.

* `Loader.Built`, `Loader.Built.linked`: what linking checks.
* `Program.MembersAgree`: the members that units name are as their constants say.
* `Store.Typed`: the fields of all objects have what their readers expect.
* `HostCode.Sound`, `HostCode.Sound.of_keeps`: code of the application that leaves a typed store behind.
* `Program.Does.typed`: **the instructions keep a store typed**.
-/

namespace Routecraft.Machine

open Bytecode

variable {l l' : Loader} {p q : Program} {u : CodeUnit}

/-! ## Loaders -/

namespace Loader

/-- How loaders come about. -/
inductive Built : Loader → Prop
  | empty : Built .empty
  | withSubtype {l : Loader} (sub sup : String) : Built l → Built (l.withSubtype sub sup)
  | withStatic {l : Loader} (owner name : String) (code : HostCode) : Built l → Built (l.withStatic owner name code)
  | withStepLimit {l : Loader} (limit : Nat) : Built l → Built (l.withStepLimit limit)
  | add {l l' : Loader} {u : CodeUnit} : Built l → l.add u = .ok l' → Built l'

/-- A loader stays built when a unit is loaded. -/
theorem Built.load (hl : l.Built) {bytes : List UInt8} {name : String} (h : l.load bytes = .ok (name, l')) :
    l'.Built := by
  unfold Loader.load at h
  split at h
  · next u hu =>
    cases hadd : l.add u with
    | error e =>
        rw [hadd] at h
        cases h
    | ok l'' =>
        rw [hadd] at h
        cases h
        exact hl.add hadd
  · cases h

/-- The units are known to be below their interfaces. -/
theorem Built.interfaces (hl : l.Built) {u : CodeUnit} (hu : u ∈ l.units) {sup : String} (hsup : sup ∈ u.interfaces) :
    (u.name, sup) ∈ l.hierarchy.edges := by
  induction hl with
  | empty => cases hu
  | withSubtype _ _ _ ih => exact List.mem_append_left _ (ih hu)
  | withStatic _ _ _ _ ih => exact ih hu
  | withStepLimit _ _ ih => exact ih hu
  | add _ hadd ih =>
      unfold Loader.add at hadd
      split at hadd
      · simp at hadd
      · cases hadd
        rcases List.mem_append.mp hu with hu | hu
        · exact List.mem_append_left _ (ih hu)
        · obtain rfl := List.mem_singleton.mp hu
          exact List.mem_append_right _ (List.mem_map_of_mem hsup)

/-- A unit passes the loader if it verifies, and all objects that it makes can be made. -/
theorem check_eq_ok : l.check u = .ok () ↔
    u.verify l.hierarchy = .ok () ∧ ∀ m ∈ u.methods, ∀ i ∈ m.code, l.checkNew u.pool i = .ok () := by
  have hcode : (u.methods.forM fun m => m.code.toList.forM (l.checkNew u.pool)) = .ok () ↔
      ∀ m ∈ u.methods, ∀ i ∈ m.code, l.checkNew u.pool i = .ok () := by
    simp only [forM_eq_ok, Array.mem_toList_iff]
  unfold check
  cases hverify : u.verify l.hierarchy with
  | ok _ => simpa using hcode
  | error e => simp [bind, Except.bind]

/-- Units are linked if all of them are accepted, and as they are. -/
theorem link_eq_ok : l.link = .ok p ↔
    (∀ u ∈ l.units, l.check u = .ok ()) ∧ ⟨l.units, l.hierarchy, l.statics, l.stepLimit, #[]⟩ = p := by
  unfold link
  rw [bind_eq_ok, ← forM_eq_ok]
  constructor
  · rintro ⟨_, hcheck, hp⟩
    exact ⟨hcheck, Except.ok.inj hp⟩
  · rintro ⟨hcheck, rfl⟩
    exact ⟨(), hcheck, rfl⟩

end Loader

/-! ## Linked programs -/

namespace Program

/-- A loaded unit has an instruction in one of its methods. -/
def Has (p : Program) (u : CodeUnit) (i : Instr UInt16) : Prop := u ∈ p.units ∧ ∃ m ∈ u.methods, i ∈ m.code

/-- What linking has checked. -/
structure Linked (p : Program) : Prop where
  verified : ∀ {u : CodeUnit}, u ∈ p.units → u.verify p.hierarchy = .ok ()
  made : ∀ {u : CodeUnit} {k : UInt16} {name : String},
    p.Has u (.onConst .newObject k) → u.pool.classAt k = .ok name → (p.unit? name).isSome
  interfaces : ∀ {u : CodeUnit} {sup : String},
    u ∈ p.units → sup ∈ u.interfaces → (u.name, sup) ∈ p.hierarchy.edges

/-- What a unit is checked against is known when it runs. -/
theorem Linked.isSubtype (hp : p.Linked) (hu : u ∈ p.units) {a b : String}
    (h : (u.hierarchyWith p.hierarchy).isSubtype a b = true) : p.hierarchy.isSubtype a b = true := by
  refine Hierarchy.isSubtype_mono (fun e he => ?_) h
  rcases CodeUnit.mem_edges_hierarchyWith.mp he with he | ⟨sup, hsup, rfl⟩
  · exact he
  · exact hp.interfaces hu hsup

/-- A unit that is found is loaded, and has the name. -/
theorem unit?_eq_some {name : String} (h : p.unit? name = some u) : u ∈ p.units ∧ u.name = name :=
  ⟨List.mem_of_find?_eq_some h, by simpa using List.find?_some h⟩

end Program

/-- **There is a unit for every class that an object is made of**, in whatever way the loader has come about. -/
theorem Loader.made_of_link (hlink : l.link = .ok { p with stubs := #[] }) {k : UInt16} {name : String}
    (hhas : p.Has u (.onConst .newObject k)) (hname : u.pool.classAt k = .ok name) : (p.unit? name).isSome := by
  obtain ⟨hcheck, hp⟩ := link_eq_ok.mp hlink
  obtain ⟨hunits, -⟩ := Program.mk.inj hp
  obtain ⟨hu, m, hm, hi⟩ := hhas
  rw [hunits] at hcheck
  have hnew := (check_eq_ok.mp (hcheck u hu)).2 m hm _ hi
  simp only [checkNew, hname, hunits] at hnew
  split at hnew
  · assumption
  · simp at hnew

/-- **What linking checks.** The stubs are made known later. -/
theorem Loader.Built.linked (hl : l.Built) (hlink : l.link = .ok { p with stubs := #[] }) : p.Linked := by
  obtain ⟨hcheck, hp⟩ := link_eq_ok.mp hlink
  obtain ⟨hunits, hhierarchy, -⟩ := Program.mk.inj hp
  rw [hunits] at hcheck
  constructor
  case verified =>
    intro u hu
    rw [← hhierarchy]
    exact (check_eq_ok.mp (hcheck u hu)).1
  case made => exact made_of_link hlink
  case interfaces =>
    intro u sup hu hsup
    rw [← hunits] at hu
    rw [← hhierarchy]
    exact hl.interfaces hu hsup

/-! ## Members -/

/-- Every value of the one data type is of the other. -/
def Stands (h : Hierarchy) (type declared : DataType) : Prop :=
  ∀ v : Value, v.HasType h (.of type) → v.HasType h (.of declared)

theorem Stands.refl (h : Hierarchy) (type : DataType) : Stands h type type := fun _ hv => hv

/-- A method that is declared to have a result may return a value; one that has none returns null. -/
def Returns (h : Hierarchy) (result : Option DataType) (v : Value) : Prop :=
  match result with
  | some type => v.HasType h (.of type)
  | none => v = .null

namespace Program

/-- A loaded unit reads or writes a field that its constant says to be of a type. -/
def NamesField (p : Program) (op : ConstOp) (m : Member) (type : DataType) : Prop :=
  ∃ u k, p.Has u (.onConst op k) ∧ u.pool.fieldAt k = .ok m ∧ dataTypeOf m.descriptor = .ok type

/-- A loaded unit calls a method on an object that its constant says to have a signature. -/
def NamesMethod (p : Program) (op : ConstOp) (m : Member) (signature : Signature) : Prop :=
  op ∈ [.invokeVirtual, .invokeInterface, .invokeSpecial] ∧ ∃ u k, p.Has u (.onConst op k) ∧
    u.pool.methodAt k (op == .invokeInterface) = .ok m ∧ signatureOf m.descriptor = .ok signature

/-- The members that loaded units name are as their constants say: what is written to a field may be read from it,
wherever objects of a loaded unit have both; the static fields are of their types; and the methods of loaded units take
what is passed to them, and return what is expected of them. -/
structure MembersAgree (p : Program) : Prop where
  fields : ∀ {m m' : Member} {type type' : DataType} {unit : String},
    p.NamesField .putField m type → p.NamesField .getField m' type' → m.name = m'.name → (p.unit? unit).isSome →
    p.hierarchy.isSubtype unit m.owner → p.hierarchy.isSubtype unit m'.owner → Stands p.hierarchy type type'
  statics : ∀ {m : Member} {type : DataType},
    p.NamesField .getStatic m type → (staticField m.owner m.name).HasType p.hierarchy (.of type)
  methods : ∀ {op : ConstOp} {m : Member} {signature : Signature} {unit : String} {u : CodeUnit} {method : Method},
    p.NamesMethod op m signature → p.unit? unit = some u → p.hierarchy.isSubtype unit m.owner →
    (op = .invokeSpecial → unit = m.owner) → u.method? m.name = some method →
    List.Forall₂ (Stands p.hierarchy) signature.params method.signature.params ∧
      ∀ type, signature.result = some type → ∀ v, Returns p.hierarchy method.signature.result v →
        v.HasType p.hierarchy (.of type)

end Program

/-! ## Stores -/

variable {units units' : Nat → String} {s s' : Store} {v : Value}

namespace Store

/-- The objects that there are, if `units` tells of which unit each one is. -/
def Known (s : Store) (units : Nat → String) (unit : String) (number : Nat) : Prop :=
  number < s.objects.size ∧ units number = unit

/-- What a field of an object has been set to. -/
def field? (s : Store) (number : Nat) (name : String) : Option Value := (s.objects.getD number []).lookup name

/-- All objects are of loaded units, and the values of their fields are of the types that their readers expect. -/
structure Typed (p : Program) (units : Nat → String) (s : Store) : Prop where
  known : s.Only (s.Known units)
  loaded : ∀ {number : Nat}, number < s.objects.size → (p.unit? (units number)).isSome
  fields : ∀ {number : Nat} {m : Member} {type : DataType} {v : Value}, p.NamesField .getField m type →
    p.hierarchy.isSubtype (units number) m.owner → s.field? number m.name = some v → v.HasType p.hierarchy (.of type)

/-- Objects stay of the units that they are of, and others may come. -/
structure Extends (s s' : Store) (units units' : Nat → String) : Prop where
  size : s.objects.size ≤ s'.objects.size
  same : ∀ number < s.objects.size, units' number = units number

theorem Extends.known (h : s.Extends s' units units') {unit : String} {number : Nat} (hk : s.Known units unit number) :
    s'.Known units' unit number :=
  ⟨Nat.lt_of_lt_of_le hk.1 h.size, (h.same number hk.1).trans hk.2⟩

/-- A store with the same objects extends the first one. -/
theorem extends_of_objects (h : s'.objects = s.objects) : s.Extends s' units units :=
  ⟨Nat.le_of_eq (congrArg Array.size h.symm), fun _ _ => rfl⟩

/-- What is known depends on the count of objects alone. -/
theorem known_of_size (h : s'.objects.size = s.objects.size) : s'.Known units = s.Known units := by
  unfold Known
  rw [h]

theorem known_of_objects (h : s'.objects = s.objects) : s'.Known units = s.Known units :=
  known_of_size (congrArg Array.size h)

theorem size_setField (s : Store) (number : Nat) (name : String) (v : Value) :
    (s.setField number name v).objects.size = s.objects.size := Array.size_modify ..

/-- Only what can be reached, and the objects, matter. -/
theorem Typed.of_objects (hs : s.Typed p units) (h : s'.objects = s.objects) (honly : s'.Only (s.Known units)) :
    s'.Typed p units where
  known := known_of_objects h ▸ honly
  loaded hlt := hs.loaded (h ▸ hlt)
  fields hname hbelow hv := hs.fields hname hbelow (by rwa [field?, h] at hv)

/-- A new object of a unit is known, and the store stays typed. -/
theorem Typed.newObject (hs : s.Typed p units) {unit : String} (hunit : (p.unit? unit).isSome) :
    s.Extends (s.newObject unit).2 units (Function.update units s.objects.size unit) ∧
      (s.newObject unit).2.Typed p (Function.update units s.objects.size unit) := by
  have hextends : s.Extends (s.newObject unit).2 units (Function.update units s.objects.size unit) := by
    constructor
    · simp [Store.newObject]
    · intro number hlt
      exact Function.update_of_ne (Nat.ne_of_lt hlt) ..
  refine ⟨hextends, ⟨(hs.known.newObject unit).mono fun _ _ => hextends.known, ?_, ?_⟩⟩
  · intro number hlt
    by_cases heq : number = s.objects.size
    · rw [heq, Function.update_self]
      exact hunit
    · rw [Function.update_of_ne heq]
      simp only [Store.newObject, Array.size_push] at hlt
      exact hs.loaded (by omega)
  · intro number m type v hname hbelow hv
    -- No field of the new object has been set.
    simp only [field?, Store.newObject, Array.getD_eq_getD_getElem?, Array.getElem?_push] at hv
    by_cases heq : number = s.objects.size
    · simp [heq] at hv
    · rw [Function.update_of_ne heq] at hbelow
      rw [if_neg heq, ← Array.getD_eq_getD_getElem?] at hv
      exact hs.fields hname hbelow hv

/-- A field may be set to what its readers expect. -/
theorem Typed.setField (hs : s.Typed p units) {number : Nat} {name : String} (hknown : v.Only (s.Known units))
    (hv : ∀ {m : Member} {type : DataType}, p.NamesField .getField m type → m.name = name →
      p.hierarchy.isSubtype (units number) m.owner → v.HasType p.hierarchy (.of type)) :
    (s.setField number name v).Typed p units where
  known := by
    rw [known_of_size (size_setField ..)]
    exact hs.known.setField number name hknown
  loaded hlt := hs.loaded (size_setField .. ▸ hlt)
  fields := by
    intro number' m type w hname hbelow hw
    simp only [field?, Store.setField, Array.getD_eq_getD_getElem?, Array.getElem?_modify] at hw
    -- The object itself; there the field that is set, and the others.
    by_cases heq : number = number'
    · subst heq
      rw [if_pos rfl] at hw
      cases hfields : s.objects[number]? with
      | none => simp [hfields] at hw
      | some fields =>
          simp only [hfields, Option.map_some, Option.getD_some, List.lookup_cons] at hw
          split at hw
          · next hmatch =>
            cases hw
            exact hv hname (by simpa using hmatch) hbelow
          · refine hs.fields hname hbelow ?_
            rw [field?, Array.getD_eq_getD_getElem?, hfields]
            exact hw
    · rw [if_neg heq, ← Array.getD_eq_getD_getElem?] at hw
      exact hs.fields hname hbelow hw

end Store

/-! ## Code of the application -/

/-- Code of the application leaves a typed store behind, and gives nothing that is not there. -/
def HostCode.Sound (p : Program) (code : HostCode) : Prop :=
  ∀ {units : Nat → String} {args : List Value} {s s' : Store} {v : Value}, s.Typed p units →
    (∀ w ∈ args, w.Only (s.Known units)) → s.perform (code args) = (.ok v, s') →
    ∃ units', s.Extends s' units units' ∧ s'.Typed p units' ∧ v.Only (s'.Known units')

/-- Code that brings up no references and leaves the objects alone, as that of the framework does, is sound. -/
theorem HostCode.Sound.of_keeps {code : HostCode}
    (h : ∀ (P : String → Nat → Prop) args, (∀ w ∈ args, w.Only P) → Keeps P (code args) (·.Only P)) : code.Sound p := by
  intro units args s s' v hs hargs hcall
  obtain ⟨hs', hobjects, hv⟩ := (h _ args hargs).of_ok hs.known hcall
  exact ⟨units, Store.extends_of_objects hobjects, hs.of_objects hobjects hs',
    by rwa [Store.known_of_objects hobjects]⟩

namespace Program

/-- All code of the application is sound. -/
def HostSound (p : Program) : Prop := ∀ code, p.Hosts code → HostCode.Sound p code

/-- What host code answers is known, and the store stays typed. -/
theorem AnsweredBy.typed (hhost : p.HostSound) {args : List Value} (hs : s.Typed p units)
    (hargs : ∀ w ∈ args, w.Only (s.Known units)) (h : p.AnsweredBy (s.Known units) s args v s') :
    ∃ units', s.Extends s' units units' ∧ s'.Typed p units' ∧ v.Only (s'.Known units') := by
  cases h with
  | framework hs' hobjects hv =>
      exact ⟨units, Store.extends_of_objects hobjects, hs.of_objects hobjects hs',
        by rwa [Store.known_of_objects hobjects]⟩
  | application hcode hs₁ hobjects hcall =>
      obtain ⟨units', hextends, hs', hv⟩ := hhost _ hcode (hs.of_objects hobjects hs₁)
        (by rwa [Store.known_of_objects hobjects]) hcall
      exact ⟨units', ⟨hobjects ▸ hextends.size, hobjects ▸ hextends.same⟩, hs', hv⟩

/-- **The instructions keep a store typed**, if they make objects of loaded units and write what readers expect. -/
theorem Does.typed {f : Frame} {i : Instr UInt16} {r : Progress} (h : p.Does f s i r s') (hhost : p.HostSound)
    (hs : s.Typed p units) (hf : f.Only (s.Known units))
    (hmade : ∀ {k : UInt16} {name : String}, i = .onConst .newObject k → f.unit.pool.classAt k = .ok name →
      (p.unit? name).isSome)
    (hput : ∀ {k : UInt16} {m m' : Member} {g : Frame} {unit : String} {number : Nat} {v : Value} {type : DataType},
      i = .onConst .putField k → f.unit.pool.fieldAt k = .ok m → f = (g.push (.object unit number)).push v →
      s.Known units unit number → p.NamesField .getField m' type → m'.name = m.name →
      p.hierarchy.isSubtype unit m'.owner → v.HasType p.hierarchy (.of type)) :
    ∃ units', s.Extends s' units units' ∧ s'.Typed p units' ∧ r.Only (s'.Known units') := by
  cases h.alters with
  | nothing hobjects honly =>
      obtain ⟨hs', hr⟩ := honly _ hs.known hf
      exact ⟨units, Store.extends_of_objects hobjects, hs.of_objects hobjects hs',
        by rwa [Store.known_of_objects hobjects]⟩
  | objects hi hname hs' hr =>
      -- An object is made: it is known from now on, and has no fields yet.
      subst hs' hr
      obtain ⟨hextends, hs'⟩ := hs.newObject (hmade hi hname)
      refine ⟨_, hextends, hs', Frame.only_push.mpr ⟨Value.only_object.mpr ⟨?_, ?_⟩, ?_⟩, by simp⟩
      · simp [Store.newObject]
      · exact Function.update_self ..
      · exact hf.mono fun _ _ => hextends.known
  | field hi hm hg hs' hr =>
      -- A field is written: readers of the field expect what was written.
      subst hs' hr
      have hf' := hf
      rw [hg, Frame.only_push, Frame.only_push, Value.only_object] at hf'
      obtain ⟨hv, hobject, hrest⟩ := hf'
      refine ⟨units, ⟨Nat.le_of_eq (s.size_setField ..).symm, fun _ _ => rfl⟩, hs.setField hv ?_, ?_, by simp⟩
      · intro m' type hname heq hbelow
        exact hput hi hm hg hobject hname heq (hobject.2 ▸ hbelow)
      · rwa [Store.known_of_size (s.size_setField ..)]
  | host args _ honly hr =>
      -- The host has answered, and may have changed what it holds.
      subst hr
      obtain ⟨hg, hargs, hby⟩ := honly _ hs.known hf
      obtain ⟨units', hextends, hs', hv⟩ := hby.typed hhost hs hargs
      exact ⟨units', hextends, hs', (hg.mono fun _ _ => hextends.known).receive _ hv, by simp⟩

end Program

end Routecraft.Machine
