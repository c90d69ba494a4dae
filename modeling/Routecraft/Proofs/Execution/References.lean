import Routecraft.Proofs.Execution.Guarding
import Routecraft.Proofs.Execution.Stepping

/-!
# What values refer to

A value refers to the objects of units that occur in it, and through arrays and handles a store does for it. The
code of the framework makes no objects and brings up no references of its own: whatever holds for all objects that
the arguments and the store refer to holds for those that the result refers to, and the store afterwards. Of the code
of the application this is a condition.

* `Value.Refers`, `Value.Only`: the objects that a value refers to.
* `Store.Only`: the objects that can be reached at all.
* `Keeps`: an action that brings up no references and leaves the objects alone.
* `HostObject.call_keeps`, `callFramework_keeps`: the code of the framework.
* `Program.Does.alters`, `Program.Does.only`: the instructions.
-/

namespace Routecraft.Machine

open Bytecode

/-! ## Values -/

namespace Value

/-- An object of a unit occurs in a value. -/
inductive Refers (unit : String) (number : Nat) : Value → Prop
  | object : Refers unit number (.object unit number)
  | boxed {kind : Primitive} {v : Value} : Refers unit number v → Refers unit number (.boxed kind v)
  | reified {base : String} {args : List Value} {v : Value} :
      v ∈ args → Refers unit number v → Refers unit number (.reified base args)
  | list {items : List Value} {v : Value} : v ∈ items → Refers unit number v → Refers unit number (.list items)
  | set {items : List Value} {v : Value} : v ∈ items → Refers unit number v → Refers unit number (.set items)
  | key {entries : List (Value × Value)} {e : Value × Value} :
      e ∈ entries → Refers unit number e.1 → Refers unit number (.map entries)
  | entry {entries : List (Value × Value)} {e : Value × Value} :
      e ∈ entries → Refers unit number e.2 → Refers unit number (.map entries)
  | optional {v : Value} : Refers unit number v → Refers unit number (.optional (some v))
  | field {className : String} {fields : List (String × Value)} {e : String × Value} :
      e ∈ fields → Refers unit number e.2 → Refers unit number (.record className fields)

/-- A value refers only to objects of a kind. -/
def Only (P : String → Nat → Prop) (v : Value) : Prop := ∀ unit number, v.Refers unit number → P unit number

/-- Whether a value is no object and has no values within. -/
def isLeaf : Value → Bool
  | boxed .. | reified .. | list _ | set _ | map _ | optional (some _) | record .. | object .. => false
  | _ => true

variable {P Q : String → Nat → Prop} {v w : Value} {vs : List Value}

/-- A value that holds only some objects holds only those of a larger set. -/
theorem Only.mono (h : v.Only P) (hPQ : ∀ unit number, P unit number → Q unit number) : v.Only Q :=
  fun unit number hv => hPQ unit number (h unit number hv)

theorem Only.of_leaf (h : v.isLeaf = true) : v.Only P := by
  intro unit number hv
  cases hv <;> simp [isLeaf] at h

@[simp] theorem only_object {unit : String} {number : Nat} : (object unit number).Only P ↔ P unit number := by
  constructor
  · intro h
    exact h unit number .object
  · intro h unit number hv
    cases hv
    exact h

@[simp] theorem only_boxed {kind : Primitive} : (boxed kind v).Only P ↔ v.Only P := by
  constructor
  · intro h unit number hv
    exact h unit number (.boxed hv)
  · intro h unit number hv
    cases hv with
    | boxed hv => exact h unit number hv

@[simp] theorem only_reified {base : String} : (reified base vs).Only P ↔ ∀ v ∈ vs, v.Only P := by
  constructor
  · intro h v hmem unit number hv
    exact h unit number (.reified hmem hv)
  · intro h unit number hv
    cases hv with
    | reified hmem hv => exact h _ hmem unit number hv

@[simp] theorem only_list : (list vs).Only P ↔ ∀ v ∈ vs, v.Only P := by
  constructor
  · intro h v hmem unit number hv
    exact h unit number (.list hmem hv)
  · intro h unit number hv
    cases hv with
    | list hmem hv => exact h _ hmem unit number hv

@[simp] theorem only_map {entries : List (Value × Value)} :
    (map entries).Only P ↔ ∀ e ∈ entries, e.1.Only P ∧ e.2.Only P := by
  constructor
  · intro h e hmem
    exact ⟨fun unit number hv => h unit number (.key hmem hv), fun unit number hv => h unit number (.entry hmem hv)⟩
  · intro h unit number hv
    cases hv with
    | key hmem hv => exact (h _ hmem).1 unit number hv
    | entry hmem hv => exact (h _ hmem).2 unit number hv

@[simp] theorem only_optional_some : (optional (some v)).Only P ↔ v.Only P := by
  constructor
  · intro h unit number hv
    exact h unit number (.optional hv)
  · intro h unit number hv
    cases hv with
    | optional hv => exact h unit number hv

@[simp] theorem only_record {className : String} {fields : List (String × Value)} :
    (record className fields).Only P ↔ ∀ e ∈ fields, e.2.Only P := by
  constructor
  · intro h e hmem unit number hv
    exact h unit number (.field hmem hv)
  · intro h unit number hv
    cases hv with
    | field hmem hv => exact h _ hmem unit number hv

@[simp] theorem only_set : (set vs).Only P ↔ ∀ v ∈ vs, v.Only P := by
  constructor
  · intro h v hmem unit number hv
    exact h unit number (.set hmem hv)
  · intro h unit number hv
    cases hv with
    | set hmem hv => exact h _ hmem unit number hv

end Value

/-! ## Stores -/

section

variable (P : String → Nat → Prop)

/-- What a client sends refers only to objects of a kind. -/
structure Request.Only (r : Request) : Prop where
  payload : ∀ v, r.payload = some v → v.Only P
  values : ∀ e ∈ r.values, e.2.Only P
  bound : ∀ e ∈ r.bound, e.2.Only P

structure Registered.Only (r : Registered) : Prop where
  handler : r.handler.Only P
  returnType : ∀ v, r.returnType = some v → v.Only P
  consumes : ∀ v ∈ r.consumes, v.Only P
  produces : ∀ v ∈ r.produces, v.Only P
  attributes : ∀ e ∈ r.attributes, e.2.Only P

/-- An object of the host refers only to objects of a kind. -/
def HostObject.Only : HostObject → Prop
  | .provider content => content.Only P
  | .body _ payload => ∀ v, payload = some v → v.Only P
  | _ => True

/-- Whatever can be reached in a store is of a kind. -/
structure Store.Only (s : Store) : Prop where
  objects : ∀ fields ∈ s.objects, ∀ e ∈ fields, e.2.Only P
  arrays : ∀ items ∈ s.arrays, ∀ v ∈ items, v.Only P
  handles : ∀ object ∈ s.handles, object.Only P
  exchanges : ∀ x ∈ s.exchanges, x.request.Only P
  routes : ∀ r ∈ s.routes, r.Only P
  calls : ∀ c ∈ s.calls, ∀ v ∈ c.args, v.Only P

/-- A frame holds only references to objects of a kind. -/
structure Frame.Only (f : Frame) : Prop where
  locals : ∀ v ∈ f.locals, v.Only P
  stack : ∀ v ∈ f.stack, v.Only P

end

variable {P Q : String → Nat → Prop} {α β : Type}

theorem mem_of_lookup {κ ν : Type} [BEq κ] [LawfulBEq κ] {l : List (κ × ν)} {k : κ} {v : ν} (h : l.lookup k = some v) :
    (k, v) ∈ l := by
  obtain ⟨l₁, l₂, rfl, -⟩ := List.lookup_eq_some_iff.mp h
  exact List.mem_append_right l₁ List.mem_cons_self

namespace Store.Only

variable {s : Store} {v : Value}

theorem field (h : s.Only P) (number : Nat) (name : String) : (s.field number name).Only P := by
  rw [Store.field]
  rcases hlookup : (s.objects.getD number []).lookup name with _ | v
  · exact .of_leaf rfl
  · have hmem : (name, v) ∈ s.objects.getD number [] := mem_of_lookup hlookup
    by_cases hlt : number < s.objects.size
    · rw [Array.getD_eq_getD_getElem?, Array.getElem?_eq_getElem hlt] at hmem
      exact h.objects _ (Array.getElem_mem hlt) _ hmem
    · rw [Array.getD_eq_getD_getElem?, Array.getElem?_eq_none (by omega)] at hmem
      simp at hmem

theorem items (h : s.Only P) (number : Nat) : ∀ v ∈ s.items number, v.Only P := by
  intro v hv
  rw [Store.items, Array.getD_eq_getD_getElem?] at hv
  by_cases hlt : number < s.arrays.size
  · rw [Array.getElem?_eq_getElem hlt] at hv
    exact h.arrays _ (Array.getElem_mem hlt) v (by simpa using hv)
  · rw [Array.getElem?_eq_none (by omega)] at hv
    simp at hv

/-- A new object of any unit may be added, since its fields are empty. -/
theorem newObject (h : s.Only P) (unit : String) : (s.newObject unit).2.Only P where
  __ := h
  objects fields hfields := by
    rcases Array.mem_push.mp hfields with hfields | rfl
    · exact h.objects fields hfields
    · simp

/-- A new array holds nothing. -/
theorem newArray (h : s.Only P) (className : String) (size : Nat) : (s.newArray className size).2.Only P where
  __ := h
  arrays items hitems := by
    rcases Array.mem_push.mp hitems with hitems | rfl
    · exact h.arrays items hitems
    · intro v hv
      obtain ⟨-, rfl⟩ := Array.mem_replicate.mp hv
      exact .of_leaf rfl

/-- The handle to a host object may be added if the object holds only what it may. -/
theorem newHandle (h : s.Only P) (className : String) {object : HostObject} (hobject : object.Only P) :
    (s.newHandle className object).2.Only P where
  __ := h
  handles o ho := by
    rcases Array.mem_push.mp ho with ho | rfl
    · exact h.handles o ho
    · exact hobject

theorem setField (h : s.Only P) (number : Nat) (name : String) (hv : v.Only P) : (s.setField number name v).Only P where
  __ := h
  objects fields hfields := by
    obtain ⟨n, hn, rfl⟩ := Array.getElem_of_mem hfields
    simp only [Store.setField, Array.size_modify] at hn
    simp only [Store.setField, Array.getElem_modify]
    split
    · exact List.forall_mem_cons.mpr ⟨hv, h.objects _ (Array.getElem_mem hn)⟩
    · exact h.objects _ (Array.getElem_mem hn)

theorem setItem (h : s.Only P) (number index : Nat) (hv : v.Only P) : (s.setItem number index v).Only P where
  __ := h
  arrays items hitems := by
    obtain ⟨n, hn, rfl⟩ := Array.getElem_of_mem hitems
    simp only [Store.setItem, Array.size_modify] at hn
    simp only [Store.setItem, Array.getElem_modify]
    intro w hw
    split at hw
    · rcases Array.mem_or_eq_of_mem_setIfInBounds hw with hw | rfl
      · exact h.arrays _ (Array.getElem_mem hn) w hw
      · exact hv
    · exact h.arrays _ (Array.getElem_mem hn) w hw

theorem send (h : s.Only P) (exchange : Nat) (code : UInt16) : (s.send exchange code).Only P where
  __ := h
  exchanges x hx := by
    obtain ⟨n, hn, rfl⟩ := Array.getElem_of_mem hx
    simp only [Store.send, Array.size_modify] at hn
    have hbefore := h.exchanges _ (Array.getElem_mem hn)
    simp only [Store.send, Array.getElem_modify]
    split <;> exact hbefore

theorem answered (h : s.Only P) (stub : Nat) (method : String) {args : List Value} (hargs : ∀ v ∈ args, v.Only P) :
    ({ s with calls := s.calls.push ⟨stub, method, args⟩ } : Store).Only P where
  __ := h
  calls c hc := by
    rcases Array.mem_push.mp hc with hc | rfl
    · exact h.calls c hc
    · exact hargs

/-- The request of an exchange holds what the store may. -/
theorem exchange? (h : s.Only P) {n : Nat} {x : Exchange} (hx : s.exchange? n = some x) : x.request.Only P :=
  h.exchanges x (Array.mem_of_getElem? hx)

/-- An object of the host holds what the store may. -/
theorem hostObject? (h : s.Only P) {handle : Nat} {object : HostObject} (ho : s.hostObject? handle = some object) :
    object.Only P :=
  h.handles object (Array.mem_of_getElem? ho)

end Store.Only

/-- A store that holds only some objects holds only those of a larger set. -/
theorem Store.Only.mono {s : Store} (h : s.Only P) (hPQ : ∀ unit number, P unit number → Q unit number) : s.Only Q where
  objects fields hfields e he := (h.objects fields hfields e he).mono hPQ
  arrays items hitems v hv := (h.arrays items hitems v hv).mono hPQ
  handles object hobject := by
    have hbefore := h.handles object hobject
    cases object with
    | provider content => exact Value.Only.mono hbefore hPQ
    | body content payload => exact fun v hv => (hbefore v hv).mono hPQ
    | _ => trivial
  exchanges x hx :=
    have hbefore := h.exchanges x hx
    ⟨fun v hv => (hbefore.payload v hv).mono hPQ, fun e he => (hbefore.values e he).mono hPQ,
      fun e he => (hbefore.bound e he).mono hPQ⟩
  routes r hr :=
    have hbefore := h.routes r hr
    ⟨hbefore.handler.mono hPQ, fun v hv => (hbefore.returnType v hv).mono hPQ,
      fun v hv => (hbefore.consumes v hv).mono hPQ, fun v hv => (hbefore.produces v hv).mono hPQ,
      fun e he => (hbefore.attributes e he).mono hPQ⟩
  calls c hc v hv := (h.calls c hc v hv).mono hPQ

theorem HostObject.only_true (object : HostObject) : object.Only fun _ _ => True := by
  cases object <;> first | trivial | exact fun _ _ _ => trivial | exact fun _ _ _ _ _ => trivial

/-- Every store holds whatever it holds. -/
theorem Store.only_true (s : Store) : s.Only fun _ _ => True where
  objects _ _ _ _ _ _ _ := trivial
  arrays _ _ _ _ _ _ _ := trivial
  handles object _ := object.only_true
  exchanges _ _ := ⟨fun _ _ _ _ _ => trivial, fun _ _ _ _ _ => trivial, fun _ _ _ _ _ => trivial⟩
  routes _ _ := ⟨fun _ _ _ => trivial, fun _ _ _ _ _ => trivial, fun _ _ _ _ _ => trivial,
    fun _ _ _ _ _ => trivial, fun _ _ _ _ _ => trivial⟩
  calls _ _ _ _ _ _ _ := trivial

/-! ## Actions -/

/-- An action that leaves the objects alone and brings up no references: whatever comes of it, what can be reached in
the store is of the kind that it was of. A result has a property, and an error is not for want of a unit. -/
def Keeps (P : String → Nat → Prop) (a : Action α) (Q : α → Prop) : Prop :=
  ∀ objects, Guards (fun s => s.Only P ∧ s.objects = objects) (fun _ => False) a Q

namespace Keeps

variable {a : Action α} {f : α → Action β} {Q : α → Prop} {R : β → Prop}

/-- Whatever else an action may fail for, it does not for want of a unit. -/
theorem guards {S : String → Prop} (h : Keeps P a Q) : Guards (·.Only P) S a Q := by
  intro s hs
  obtain ⟨hs', hQ, herror⟩ := h s.objects s ⟨hs, rfl⟩
  exact ⟨hs'.1, hQ, fun name hname => (herror name hname).elim⟩

/-- The objects stay as they are, whatever an action that keeps comes to. -/
theorem objects_eq (h : Keeps P a Q) {s : Store} (hs : s.Only P) : (s.perform a).2.objects = s.objects :=
  (h s.objects s ⟨hs, rfl⟩).1.2

/-- After an action that keeps has succeeded, the store is still held, and so is the result. -/
theorem of_ok (h : Keeps P a Q) {s s' : Store} {x : α} (hs : s.Only P) (hx : s.perform a = (.ok x, s')) :
    s'.Only P ∧ s'.objects = s.objects ∧ Q x := by
  obtain ⟨⟨hs', hobjects⟩, hQ, -⟩ := h s.objects s ⟨hs, rfl⟩
  rw [hx] at hs' hobjects hQ
  exact ⟨hs', hobjects, hQ x rfl⟩

theorem pure {x : α} (h : Q x) : Keeps P (pure x) Q := fun _ => .pure h

theorem throw {e : MachineError} (h : ∀ name, e ≠ .unknownUnit name) : Keeps P (throw e : Action α) Q :=
  fun _ => .throw h

/-- Actions that keep, one after the other, keep. -/
theorem bind (ha : Keeps P a Q) (hf : ∀ x, Q x → Keeps P (f x) R) : Keeps P (a >>= f) R :=
  fun objects => .bind (ha objects) fun x hx => hf x hx objects

theorem get : Keeps P (get : Action Store) (·.Only P) :=
  fun _ => Guards.get.imp (fun _ hs => hs.1) fun _ => id

/-- A change of the store keeps if it holds no more, and leaves the objects. -/
theorem modify {change : Store → Store}
    (h : ∀ s : Store, s.Only P → (change s).Only P ∧ (change s).objects = s.objects) :
    Keeps P (modify change : Action PUnit) fun _ => True :=
  fun _ => .modify fun s hs => ⟨(h s hs.1).1, (h s hs.1).2.trans hs.2⟩

theorem orFail {x : Except MachineError α} (h : ∀ y, x = .ok y → Q y) (he : ∀ name, x ≠ .error (.unknownUnit name)) :
    Keeps P (orFail x) Q := fun _ => .orFail h he

/-- Handles to what is held are held. -/
theorem handleTo (className : String) {object : HostObject} (h : object.Only P) :
    Keeps P (handleTo className object) (·.Only P) :=
  fun _ => .modifyGet fun _ hs => ⟨⟨hs.1.newHandle className h, hs.2⟩, .of_leaf rfl⟩

/-- Actions done for each of a list keep if each does. -/
theorem mapM {xs : List α} {f : α → Action β} (h : ∀ x ∈ xs, Keeps P (f x) R) :
    Keeps P (xs.mapM f) fun ys => ∀ y ∈ ys, R y := fun objects => .mapM fun x hx => h x hx objects

theorem throwTelling (v : Value) (error : String → MachineError) (h : ∀ text name, error text ≠ .unknownUnit name) :
    Keeps P (throwTelling v error : Action α) Q := fun _ => .throwTelling v error h

/-- A value of the wrong kind is an error that names no unit. -/
theorem mismatch (expected : String) (v : Value) : Keeps P (mismatch expected v : Action α) Q :=
  fun _ => .mismatch expected v

theorem asText (v : Value) : Keeps P v.asText fun _ => True := by
  cases v <;> first | exact .pure trivial | exact .mismatch _ _

theorem asClass (v : Value) : Keeps P v.asClass fun _ => True := by
  cases v <;> first | exact .pure trivial | exact .mismatch _ _

/-- The items of a list are held if it is. -/
theorem asList {v : Value} (h : v.Only P) : Keeps P v.asList fun items => ∀ w ∈ items, w.Only P := by
  cases v <;> first | exact .mismatch _ _ | exact .pure (Value.only_list.mp h)

/-- The items of an array are held, as all in the store. -/
theorem asArray (v : Value) : Keeps P v.asArray fun items => ∀ w ∈ items, w.Only P := by
  cases v <;> first | exact .mismatch _ _ | exact .bind .get fun s hs => .pure (hs.items _)

end Keeps

/-! ## The code of the framework -/

section

variable {args : List Value} {method : String}

/-- What is read as a primitive is no object. -/
theorem only_of_readPrimitive {kind : Primitive} {raw : String} {v : Value} (h : readPrimitive kind raw = .ok v) :
    v.Only P := by
  rw [readPrimitive] at h
  split at h
  · next hread =>
    cases h
    cases kind <;> simp only [readPrimitive?, Option.map_eq_some_iff] at hread
    case boolean =>
      split at hread
      · cases hread
        exact .of_leaf rfl
      · split at hread
        · cases hread
          exact .of_leaf rfl
        · simp at hread
    case char =>
      split at hread
      · cases hread
        exact .of_leaf rfl
      · simp at hread
    all_goals
      obtain ⟨_, -, rfl⟩ := hread
      exact .of_leaf rfl
  · simp at h

theorem only_of_readAs {className raw : String} {v : Value} (h : readAs className raw = .ok v) : v.Only P := by
  rw [readAs] at h
  split at h
  · cases h
    exact .of_leaf rfl
  · split at h
    · next kind _ =>
      rcases hread : readPrimitive kind raw with e | w
      · simp [hread, Except.map] at h
      · simp only [hread, Except.map, Except.ok.injEq] at h
        rw [← h, Value.only_boxed]
        exact only_of_readPrimitive hread
    · cases h
      simpa using .of_leaf rfl

/-- A text that cannot be read names no unit. -/
theorem readPrimitive_ne_unknownUnit {kind : Primitive} {raw : String} (name : String) :
    readPrimitive kind raw ≠ .error (.unknownUnit name) := by
  unfold readPrimitive
  split <;> nofun

theorem readAs_ne_unknownUnit {className raw : String} (name : String) :
    readAs className raw ≠ .error (.unknownUnit name) := by
  unfold readAs
  split
  · nofun
  · split
    · next kind _ =>
      cases hread : readPrimitive kind raw with
      | ok v => nofun
      | error e =>
          intro h
          cases h
          exact readPrimitive_ne_unknownUnit name hread
    · nofun

theorem readPrimitive_keeps (kind : Primitive) (raw : String) :
    Keeps P (orFail (readPrimitive kind raw)) (·.Only P) :=
  .orFail (fun _ => only_of_readPrimitive) readPrimitive_ne_unknownUnit

theorem readAs_keeps (className raw : String) : Keeps P (orFail (readAs className raw)) (·.Only P) :=
  .orFail (fun _ => only_of_readAs) readAs_ne_unknownUnit

/-- Whatever a context is called, the result is held. -/
theorem callContext_keeps (exchange : Nat) (method : String) (args : List Value) :
    Keeps P (callContext exchange method args) (·.Only P) := by
  unfold callContext
  refine .bind .get fun s hs => ?_
  split
  · next x hx =>
    have hrequest := hs.exchange? hx
    split
    case h_1 => exact .handleTo _ hrequest.payload
    case h_2 =>
      refine .bind (.asText _) fun name _ => ?_
      split
      · exact .handleTo _ trivial
      · exact .throw nofun
    case h_3 =>
      refine .bind (.asText _) fun name _ => .bind (.mapM fun file _ => .handleTo _ trivial) fun files hfiles => ?_
      exact .pure (Value.only_list.mpr hfiles)
    case h_4 =>
      refine .bind (.asClass _) fun className _ => ?_
      split
      · next v hv => exact .pure (hrequest.values _ (List.mem_reverse.mp (mem_of_lookup hv)))
      · exact .throw nofun
    case h_5 =>
      refine .bind (.asClass _) fun className _ => ?_
      split
      · next v hv => exact .pure (hrequest.bound _ (List.mem_reverse.mp (mem_of_lookup hv)))
      · exact .throw nofun
    case h_6 => exact .pure (.of_leaf rfl)
    case h_7 => exact .bind (.modify fun s hs => ⟨hs.send _ _, rfl⟩) fun _ _ => .handleTo _ trivial
    case h_8 =>
      split
      · exact .bind (.asText _) fun name _ => .handleTo _ trivial
      · exact .throw nofun
    case h_9 => exact .throw nofun
  · exact .throw nofun

theorem firstText_keeps (source : String) (texts : List String) : Keeps P (firstText source texts) fun _ => True := by
  cases texts with
  | nil => exact .throw nofun
  | cons s texts => exact .pure trivial

theorem readAll_keeps (className : String) (texts : List String) :
    Keeps P (readAll className texts) fun vs => ∀ v ∈ vs, v.Only P := by
  refine .orFail (fun vs hvs v hv => ?_) fun name hname => ?_
  · obtain ⟨raw, -, hread⟩ := exists_left_of_mem (mapM_eq_ok.mp hvs) hv
    exact only_of_readAs hread
  · obtain ⟨raw, -, hread⟩ := exists_of_mapM_eq_error hname
    exact readAs_ne_unknownUnit name hread

/-- What is left without repeats was there before. -/
theorem mem_of_mem_distinct {v : Value} : ∀ {vs : List Value}, v ∈ Value.distinct vs → v ∈ vs
  | [], h => h
  | w :: vs, h => by
    rw [Value.distinct, List.eraseDups_cons] at h
    rcases List.mem_cons.mp h with rfl | h
    · exact List.mem_cons_self
    · exact List.mem_cons_of_mem w (List.mem_of_mem_filter (mem_of_mem_distinct h))
termination_by vs => vs.length
decreasing_by exact Nat.lt_succ_of_le (List.length_filter_le ..)

theorem callValues_keeps (source : String) (texts : List String) (method : String) (args : List Value) :
    Keeps P (callValues source texts method args) (·.Only P) := by
  unfold callValues
  split
  case h_1 => exact .bind (firstText_keeps _ _) fun _ _ => .pure (.of_leaf rfl)
  case h_2 =>
    refine .pure ?_
    cases texts <;> exact .of_leaf rfl
  case h_3 =>
    exact .bind (firstText_keeps _ _) fun raw _ => .bind (.asClass _) fun _ _ => readAs_keeps _ _
  case h_4 =>
    split
    · exact .bind (.asClass _) fun _ _ => readAs_keeps _ _
    · exact .pure (.of_leaf rfl)
  case h_5 =>
    split
    · refine .bind (.asClass _) fun _ _ => .bind (readAs_keeps _ _) fun v hv => ?_
      exact .pure (Value.only_optional_some.mpr hv)
    · exact .pure (.of_leaf rfl)
  case h_6 =>
    exact .bind (.asClass _) fun _ _ => .bind (readAll_keeps _ _) fun vs hvs => .pure (Value.only_list.mpr hvs)
  case h_7 =>
    refine .bind (.asClass _) fun _ _ => .bind (readAll_keeps _ _) fun vs hvs => .pure (Value.only_set.mpr ?_)
    intro v hv
    exact hvs v (mem_of_mem_distinct hv)
  case h_8 =>
    split
    · exact .bind (firstText_keeps _ _) fun _ _ => readPrimitive_keeps _ _
    · exact .throw nofun
  case h_9 => exact .throw nofun

theorem bodyText_keeps (content : List UInt8) : Keeps P (bodyText content) fun _ => True := by
  unfold bodyText
  split
  · exact .pure trivial
  · exact .throw nofun

/-- The object of a body is one that was in the request. -/
theorem bodyObject_keeps {payload : Option Value} (h : ∀ v, payload = some v → v.Only P) (type : Value) :
    Keeps P (bodyObject payload type) (·.Only P) := by
  cases payload with
  | none => exact .throwTelling type _ fun _ _ => nofun
  | some v => exact .pure (h v rfl)

theorem callBody_keeps (content : List UInt8) {payload : Option Value} (h : ∀ v, payload = some v → v.Only P)
    (method : String) (args : List Value) : Keeps P (callBody content payload method args) (·.Only P) := by
  unfold callBody
  split
  case h_1 => exact .pure (.of_leaf rfl)
  case h_2 => exact .pure (by simpa using .of_leaf rfl)
  case h_3 => exact .bind (bodyText_keeps _) fun _ _ => .pure (.of_leaf rfl)
  case h_4 =>
    split
    · exact .bind (bodyText_keeps _) fun _ _ => .pure (.of_leaf rfl)
    · split
      · exact .bind (bodyText_keeps _) fun _ _ => readAs_keeps _ _
      · exact bodyObject_keeps h _
  case h_5 => exact bodyObject_keeps h _
  case h_6 => exact .throw nofun

theorem callUpload_keeps (file : Upload) (method : String) (args : List Value) :
    Keeps P (callUpload file method args) (·.Only P) := by
  unfold callUpload
  split
  · exact .pure (by simpa using .of_leaf rfl)
  · exact .pure (.of_leaf rfl)
  · exact .throw nofun

theorem callRouter_keeps (router : Nat) (method : String) {args : List Value} (hargs : ∀ v ∈ args, v.Only P) :
    Keeps P (callRouter router method args) (·.Only P) := by
  unfold callRouter
  split
  · next verb pattern handler =>
    refine .bind (.asText _) fun verb _ => .bind (.asText _) fun pattern _ => .bind .get fun s _ => ?_
    refine .bind (.modify fun s hs => ⟨⟨hs.objects, hs.arrays, hs.handles, hs.exchanges, ?_, hs.calls⟩, rfl⟩)
      fun _ _ => .handleTo _ trivial
    intro r hr
    rcases Array.mem_push.mp hr with hr | rfl
    · exact hs.routes r hr
    · exact ⟨hargs handler (by simp), by simp, by simp, by simp, by simp⟩
  · exact .throw nofun

/-- A route may be changed if the change holds no more. -/
theorem changeRoute_keeps (route : Nat) {change : Registered → Registered}
    (h : ∀ r : Registered, r.Only P → (change r).Only P) : Keeps P (changeRoute route change) fun _ => True := by
  refine .modify fun s hs => ⟨⟨hs.objects, hs.arrays, hs.handles, hs.exchanges, ?_, hs.calls⟩, rfl⟩
  intro r hr
  obtain ⟨n, hn, rfl⟩ := Array.getElem_of_mem hr
  simp only [Array.size_modify] at hn
  have hbefore := hs.routes _ (Array.getElem_mem hn)
  simp only [Array.getElem_modify]
  split
  · exact h _ hbefore
  · exact hbefore

theorem callRoute_keeps (route : Nat) (method : String) {args : List Value} (hargs : ∀ v ∈ args, v.Only P) :
    Keeps P (callRoute route method args) (·.Only P) := by
  have hroute : ∀ x : PUnit, True → Keeps P (handleTo Platform.route (.route route)) (·.Only P) :=
    fun _ _ => .handleTo _ trivial
  unfold callRoute
  split
  case h_1 type =>
    refine .bind (changeRoute_keeps _ fun r hr => ?_) hroute
    refine ⟨hr.handler, fun v hv => ?_, hr.consumes, hr.produces, hr.attributes⟩
    cases hv
    exact hargs _ (by simp)
  case h_2 types =>
    refine .bind (.asList (hargs types (by simp))) fun ts hts => .bind (changeRoute_keeps _ fun r hr => ?_) hroute
    exact ⟨hr.handler, hr.returnType, hts, hr.produces, hr.attributes⟩
  case h_3 types =>
    refine .bind (.asList (hargs types (by simp))) fun ts hts => .bind (changeRoute_keeps _ fun r hr => ?_) hroute
    exact ⟨hr.handler, hr.returnType, hr.consumes, hts, hr.attributes⟩
  case h_4 name value =>
    refine .bind (.asText _) fun name _ => .bind (changeRoute_keeps _ fun r hr => ?_) hroute
    refine ⟨hr.handler, hr.returnType, hr.consumes, hr.produces, fun e he => ?_⟩
    rcases List.mem_append.mp he with he | he
    · exact hr.attributes e he
    · obtain rfl := List.mem_singleton.mp he
      exact hargs value (by simp)
  case h_5 => exact .bind (.throw nofun) hroute

theorem callProvider_keeps {content : Value} (h : content.Only P) (method : String) (args : List Value) :
    Keeps P (callProvider content method args) (·.Only P) := by
  unfold callProvider
  split
  · exact .pure h
  · exact .throw nofun

/-- The methods of host objects, stubs aside. -/
theorem HostObject.call_keeps (stubs : Array Stub) {object : HostObject} (hobject : object.Only P)
    (hstub : ∀ number, object ≠ .stub number) (method : String) {args : List Value} (hargs : ∀ v ∈ args, v.Only P) :
    Keeps P (object.call stubs method args) (·.Only P) := by
  cases object with
  | context exchange => exact callContext_keeps exchange method args
  | router number => exact callRouter_keeps number method hargs
  | route number => exact callRoute_keeps number method hargs
  | stub number => exact absurd rfl (hstub number)
  | provider content => exact callProvider_keeps hobject method args
  | values source texts => exact callValues_keeps source texts method args
  | body content payload => exact callBody_keeps content hobject method args
  | upload file => exact callUpload_keeps file method args

/-- Values that are taken in pairs were there before. -/
theorem only_of_pairUp {items : List Value} {entries : List (Value × Value)} (h : pairUp items = some entries)
    (hitems : ∀ v ∈ items, v.Only P) : ∀ e ∈ entries, e.1.Only P ∧ e.2.Only P := by
  induction items using pairUp.induct generalizing entries with
  | case1 =>
      cases h
      simp
  | case2 v => simp [pairUp] at h
  | case3 k v rest ih =>
      rw [pairUp, Option.map_eq_some_iff] at h
      obtain ⟨es, hes, rfl⟩ := h
      simp only [List.forall_mem_cons] at hitems ⊢
      exact ⟨⟨hitems.1, hitems.2.1⟩, ih hes hitems.2.2⟩

/-- The static methods of the framework. -/
theorem callFramework_keeps (owner method : String) {args : List Value} (hargs : ∀ v ∈ args, v.Only P) :
    Keeps P (callFramework owner method args) (·.Only P) := by
  unfold callFramework
  split
  case h_1 v =>
    refine .pure ?_
    split
    · exact .of_leaf rfl
    · exact Value.only_optional_some.mpr (hargs v (by simp))
  case h_2 items => exact .bind (.asArray items) fun vs hvs => .pure (Value.only_list.mpr hvs)
  case h_3 items =>
    refine .bind (.asArray items) fun vs hvs => ?_
    split
    · next hentries => exact .pure (Value.only_map.mpr (only_of_pairUp hentries hvs))
    · exact .throw nofun
  case h_4 => exact .bind (.asText _) fun _ _ => .pure (.of_leaf rfl)
  case h_5 => exact .bind (.asClass _) fun _ _ => .bind (.asArray _) fun vs hvs => .pure (Value.only_reified.mpr hvs)
  case h_6 =>
    split
    · exact .pure (Value.only_boxed.mpr (hargs _ List.mem_cons_self))
    · exact .throw nofun
  case h_7 => exact .throw nofun

end

/-! ## Calls -/

namespace Program

variable {p : Program} {s s' : Store} {args : List Value} {v : Value}

/-- Code of the application that running code may come to call. -/
def Hosts (p : Program) (code : HostCode) : Prop :=
  (∃ stub ∈ p.stubs, ∃ method, (method, code) ∈ stub.methods) ∨ ∃ name, (name, code) ∈ p.statics

/-- A call has been answered by the host: by the framework, or by code of the application that was called with the
same arguments. -/
inductive AnsweredBy (p : Program) (P : String → Nat → Prop) (s : Store) (args : List Value) (v : Value) (s' : Store) :
    Prop
  | framework : s'.Only P → s'.objects = s.objects → v.Only P → AnsweredBy p P s args v s'
  | application {code : HostCode} {s₁ : Store} : p.Hosts code → s₁.Only P → s₁.objects = s.objects →
      s₁.perform (code args) = (.ok v, s') → AnsweredBy p P s args v s'

/-- Host code that is found belongs to the program. -/
theorem hosts_of_lookup {number : Nat} {method : String} {code : HostCode}
    (h : (p.stubs.getD number default).methods.lookup method = some code) : p.Hosts code := by
  have hmem := mem_of_lookup h
  by_cases hlt : number < p.stubs.size
  · rw [Array.getD_eq_getD_getElem?, Array.getElem?_eq_getElem hlt] at hmem
    exact .inl ⟨_, Array.getElem_mem hlt, method, hmem⟩
  · rw [Array.getD_eq_getD_getElem?, Array.getElem?_eq_none (by omega)] at hmem
    simp [default] at hmem

/-- A call on a host object is answered by host code, with what was held. -/
theorem callStub_answered {number : Nat} {method : String} (hs : s.Only P) (hargs : ∀ v ∈ args, v.Only P)
    (h : s.perform (callStub p.stubs number method args) = (.ok v, s')) : p.AnsweredBy P s args v s' := by
  unfold callStub at h
  dsimp only at h
  split at h
  · next code hcode =>
    simp only [Store.perform_bind, Store.perform_modify] at h
    exact .application (hosts_of_lookup hcode) (hs.answered number method hargs) rfl h
  · simp at h

/-- **A call of a method** enters one of a unit, or is answered by the host. -/
theorem call_cases {receiver : Value} {name : String} {called : Called} (hs : s.Only P) (hreceiver : receiver.Only P)
    (hargs : ∀ v ∈ args, v.Only P) (h : s.perform (p.call receiver name args) = (.ok called, s')) :
    (∃ unit number u m, receiver = .object unit number ∧ p.unit? unit = some u ∧ u.method? name = some m ∧
        called = .entered ⟨u, m, 0, (receiver :: args).toArray, [], true⟩ ∧ s' = s) ∨
      ∃ v, called = .result v ∧ p.AnsweredBy P s args v s' := by
  cases receiver with
  | object unit number =>
      simp only [call] at h
      split at h
      · next u hu =>
        unfold enter at h
        split at h
        · next m hm =>
          cases h
          exact .inl ⟨unit, number, u, m, rfl, hu, hm, rfl, rfl⟩
        · simp at h
      · simp at h
  | host className handle =>
      refine .inr ?_
      simp only [call, Store.perform_bind, Store.perform_get] at h
      split at h
      · next object hobject =>
        simp only [Store.perform_bind_eq_ok, Store.perform_pure, Prod.mk.injEq, Except.ok.injEq] at h
        obtain ⟨v, _, hv, rfl, rfl⟩ := h
        refine ⟨v, rfl, ?_⟩
        -- Code of the application may change more of the store than the framework does.
        by_cases hstub : ∃ number, object = .stub number
        · obtain ⟨number, rfl⟩ := hstub
          exact callStub_answered hs hargs hv
        · obtain ⟨hs', hobjects, hv⟩ := HostObject.call_keeps p.stubs (hs.hostObject? hobject)
            (fun number heq => hstub ⟨number, heq⟩) name hargs |>.of_ok hs hv
          exact .framework hs' hobjects hv
      · simp at h
  | boxed kind content =>
      refine .inr ?_
      simp only [call] at h
      split at h
      · cases h
        exact ⟨content, rfl, .framework hs rfl (Value.only_boxed.mp hreceiver)⟩
      · simp at h
  | _ => simp [call] at h

/-- A static call is answered by the framework, or by host code with what was held. -/
theorem callStatic_answered {owner name : String} (hs : s.Only P) (hargs : ∀ v ∈ args, v.Only P)
    (h : s.perform (p.callStatic owner name args) = (.ok v, s')) : p.AnsweredBy P s args v s' := by
  unfold callStatic at h
  split at h
  · next code hcode => exact .application (.inr ⟨_, mem_of_lookup hcode⟩) hs rfl h
  · obtain ⟨hs', hobjects, hv⟩ := (callFramework_keeps owner name hargs).of_ok hs h
    exact .framework hs' hobjects hv

end Program

/-! ## Instructions -/

namespace Frame

variable {f : Frame} {v : Value} {vs : List Value}

@[simp] theorem only_push : (f.push v).Only P ↔ v.Only P ∧ f.Only P := by
  constructor
  · intro h
    exact ⟨h.stack v List.mem_cons_self, h.locals, fun w hw => h.stack w (List.mem_cons_of_mem v hw)⟩
  · rintro ⟨hv, h⟩
    exact ⟨h.locals, List.forall_mem_cons.mpr ⟨hv, h.stack⟩⟩

@[simp] theorem only_pushAll : (f.pushAll vs).Only P ↔ (∀ v ∈ vs, v.Only P) ∧ f.Only P := by
  have hstack : (∀ v ∈ (f.pushAll vs).stack, v.Only P) ↔ (∀ v ∈ vs, v.Only P) ∧ ∀ v ∈ f.stack, v.Only P := by
    simp only [pushAll, List.mem_append, List.mem_reverse, or_imp, forall_and]
  constructor
  · intro h
    exact ⟨(hstack.mp h.stack).1, h.locals, (hstack.mp h.stack).2⟩
  · rintro ⟨hvs, h⟩
    exact ⟨h.locals, hstack.mpr ⟨hvs, h.stack⟩⟩

theorem only_true (f : Frame) : f.Only fun _ _ => True := ⟨fun _ _ _ _ _ => trivial, fun _ _ _ _ _ => trivial⟩

theorem Only.mono (h : f.Only P) (hPQ : ∀ unit number, P unit number → Q unit number) : f.Only Q :=
  ⟨fun v hv => (h.locals v hv).mono hPQ, fun v hv => (h.stack v hv).mono hPQ⟩

theorem Only.receive (h : f.Only P) (keeps : Bool) (hv : v.Only P) : (f.receive keeps v).Only P := by
  cases keeps
  · exact h
  · exact only_push.mpr ⟨hv, h⟩

theorem Only.store (h : f.Only P) (slot : UInt8) (hv : v.Only P) : (f.store slot v).Only P where
  locals w hw := by
    rcases Array.mem_or_eq_of_mem_setIfInBounds hw with hw | rfl
    · rcases Array.mem_append.mp hw with hw | hw
      · exact h.locals w hw
      · obtain ⟨-, rfl⟩ := Array.mem_replicate.mp hw
        exact .of_leaf rfl
    · exact hv
  stack := h.stack

end Frame

/-- A static field holds no object. -/
theorem only_staticField (owner name : String) : (staticField owner name).Only P := by
  unfold staticField
  split <;> exact .of_leaf rfl

/-- What comes of a step refers only to objects of a kind. -/
def Progress.Only (P : String → Nat → Prop) : Progress → Prop
  | .running f callers => f.Only P ∧ ∀ w ∈ callers, w.Only P
  | .finished v => v.Only P

namespace Program

variable {p : Program} {f : Frame} {s s' : Store} {i : Instr UInt16} {r : Progress}

/-- What an instruction does to the store: it leaves the objects alone and brings up no references; or it makes an
object; or it sets a field; or it makes a call that the host answers. -/
inductive Alters (p : Program) (f : Frame) (s : Store) (i : Instr UInt16) (r : Progress) (s' : Store) : Prop
  | nothing : s'.objects = s.objects →
      (∀ P : String → Nat → Prop, s.Only P → f.Only P → s'.Only P ∧ r.Only P) → Alters p f s i r s'
  | objects {k : UInt16} {name : String} : i = .onConst .newObject k → f.unit.pool.classAt k = .ok name →
      s' = (s.newObject name).2 → r = .running (f.push (.object name s.objects.size)) [] → Alters p f s i r s'
  | field {k : UInt16} {m : Member} {g : Frame} {unit : String} {number : Nat} {v : Value} :
      i = .onConst .putField k → f.unit.pool.fieldAt k = .ok m → f = (g.push (.object unit number)).push v →
      s' = s.setField number m.name v → r = .running g [] → Alters p f s i r s'
  | host {g : Frame} {keeps : Bool} (args : List Value) {v : Value} : (∀ k, i ≠ .onConst .newObject k) →
      (∀ P : String → Nat → Prop, s.Only P → f.Only P → g.Only P ∧ (∀ w ∈ args, w.Only P) ∧
        p.AnsweredBy P s args v s') →
      r = .running (g.receive keeps v) [] → Alters p f s i r s'

/-- What a step does to the objects is one of the ways to alter them. -/
theorem Does.alters (h : p.Does f s i r s') : p.Alters f s i r s' := by
  -- Most instructions only move values about within the frame.
  have same : ∀ {g : Frame}, r = .running g [] → (∀ P : String → Nat → Prop, s.Only P → f.Only P → g.Only P) →
      s' = s → p.Alters f s i r s' := by
    rintro g rfl hg rfl
    exact .nothing rfl fun P hs hf => ⟨hs, hg P hs hf, by simp⟩
  cases h with
  | pushNull => exact same rfl (fun P _ hf => Frame.only_push.mpr ⟨.of_leaf rfl, hf⟩) rfl
  | dup => exact same rfl (fun P _ hf => Frame.only_push.mpr ⟨(Frame.only_push.mp hf).1, hf⟩) rfl
  | pop => exact same rfl (fun P _ hf => (Frame.only_push.mp hf).2) rfl
  | swap =>
      refine same rfl (fun P _ hf => ?_) rfl
      simp only [Frame.only_push] at hf ⊢
      exact ⟨hf.2.1, hf.1, hf.2.2⟩
  | arrayStore =>
      refine .nothing rfl fun P hs hf => ?_
      simp only [Frame.only_push] at hf
      exact ⟨hs.setItem _ _ hf.1, hf.2.2.2, by simp⟩
  | returnVoid => exact .nothing rfl fun P hs _ => ⟨hs, .of_leaf rfl⟩
  | returnValue => exact .nothing rfl fun P hs hf => ⟨hs, (Frame.only_push.mp hf).1⟩
  | load hv =>
      exact same rfl (fun P _ hf => Frame.only_push.mpr ⟨hf.locals _ (Array.mem_of_getElem? hv), hf⟩) rfl
  | store =>
      refine same rfl (fun P _ hf => ?_) rfl
      rw [Frame.only_push] at hf
      exact hf.2.store _ hf.1
  | pushInt => exact same rfl (fun P _ hf => Frame.only_push.mpr ⟨.of_leaf rfl, hf⟩) rfl
  | goto => exact same rfl (fun P _ hf => ⟨hf.locals, hf.stack⟩) rfl
  | ifFalse =>
      refine same rfl (fun P _ hf => ?_) rfl
      rw [Frame.only_push] at hf
      split
      · exact ⟨hf.2.locals, hf.2.stack⟩
      · exact hf.2
  | @loadConst _ _ _ x v _ hv =>
      have hleaf : v.isLeaf = true := by
        cases x <;> simp [constantValue] at hv <;> subst hv <;> rfl
      exact same rfl (fun P _ hf => Frame.only_push.mpr ⟨.of_leaf hleaf, hf⟩) rfl
  | getField => exact same rfl (fun P hs hf => Frame.only_push.mpr ⟨hs.field _ _, (Frame.only_push.mp hf).2⟩) rfl
  | putField hm => exact .field rfl hm rfl rfl rfl
  | getStatic => exact same rfl (fun P _ hf => Frame.only_push.mpr ⟨only_staticField _ _, hf⟩) rfl
  | newObject hname => exact .objects rfl hname rfl rfl
  | newArray =>
      refine .nothing rfl fun P hs hf => ⟨hs.newArray _ _, ?_, by simp⟩
      exact Frame.only_push.mpr ⟨.of_leaf rfl, (Frame.only_push.mp hf).2⟩
  | checkCast => exact same rfl (fun P _ hf => hf) rfl
  | @answeredStatic _ _ _ _ _ _ args _ _ _ _ hcall =>
      refine .host args (by simp) (fun P hs hf => ?_) rfl
      rw [Frame.only_pushAll] at hf
      exact ⟨hf.2, hf.1, callStatic_answered hs hf.1 hcall⟩
  | @answered _ _ _ _ _ _ _ _ args _ hop _ _ _ hcall =>
      refine .host args (by rintro k h; cases h; simp at hop) (fun P hs hf => ?_) rfl
      rw [Frame.only_pushAll, Frame.only_push] at hf
      obtain ⟨hargs, hreceiver, hf⟩ := hf
      rcases call_cases hs hreceiver hargs hcall with ⟨_, _, _, _, -, -, -, hcalled, -⟩ | ⟨v, hcalled, hby⟩
      · cases hcalled
      · cases hcalled
        exact ⟨hf, hargs, hby⟩
  | entered _ _ _ _ hcall =>
      -- Which method is entered does not depend on what the operands refer to.
      rcases call_cases s.only_true (fun _ _ _ => trivial) (fun _ _ _ _ _ => trivial) hcall with
        ⟨_, _, u, m, -, -, -, hcalled, rfl⟩ | ⟨v, hcalled, -⟩
      · cases hcalled
        refine .nothing rfl fun P hs hf => ?_
        rw [Frame.only_pushAll, Frame.only_push] at hf
        exact ⟨hs, ⟨by simpa using ⟨hf.2.1, hf.1⟩, by simp⟩, by simpa using hf.2.2⟩
      · cases hcalled

/-- **An instruction brings up no references** but that to the object that it makes, unless a call does. -/
theorem Does.only (h : p.Does f s i r s') (hs : s.Only P) (hf : f.Only P)
    (hnew : ∀ k name, i = .onConst .newObject k → f.unit.pool.classAt k = .ok name → P name s.objects.size)
    (hanswer : ∀ args v, (∀ w ∈ args, w.Only P) → p.AnsweredBy P s args v s' → s'.Only P ∧ v.Only P) :
    s'.Only P ∧ r.Only P := by
  cases h.alters with
  | nothing _ honly => exact honly P hs hf
  | objects hi hname hs' hr =>
      subst hs' hr
      exact ⟨hs.newObject _, Frame.only_push.mpr ⟨Value.only_object.mpr (hnew _ _ hi hname), hf⟩, by simp⟩
  | field _ _ hf' hs' hr =>
      subst hf' hs' hr
      simp only [Frame.only_push] at hf
      exact ⟨hs.setField _ _ hf.1, hf.2.2, by simp⟩
  | host args _ honly hr =>
      subst hr
      obtain ⟨hg, hargs, hby⟩ := honly P hs hf
      obtain ⟨hs', hv⟩ := hanswer _ _ hargs hby
      exact ⟨hs', hg.receive _ hv, by simp⟩

end Program

end Routecraft.Machine
