import Routecraft.Proofs.Execution.Actions

/-!
# Numbers that come later

A store that has been used before gives other numbers to new arrays and handles. Renaming brings a value of the one
store to the other: numbers from a place on are that much larger. Code treats the numbers as opaque, so what it makes
of renamed values in the other store is its result renamed.

* `Value.refs`: the arrays and handles that occur in a value.
* `Renaming`, `Value.rename`: values with larger numbers.
* `Store.Has`, `Store.Closed`: stores that have whatever is referred to.
* `Store.Renames`: a store beside another one, in which all there is has been renamed.
-/

namespace Routecraft.Machine

/-! ## References -/

/-- What a value refers to in a store, apart from the objects of units. -/
inductive Ref where
  | array (number : Nat)
  | handle (number : Nat)
  deriving DecidableEq

namespace Value

mutual

/-- The references in a value. -/
def refs : Value → List Ref
  | null | int _ | long _ | float _ | double _ | text _ | classRef _ | bytes _ | mediaType _ | status _
  | constant _ _ | object _ _ | optional none => []
  | boxed _ v => v.refs
  | reified _ args => refsOfItems args
  | list items => refsOfItems items
  | set items => refsOfItems items
  | map entries => refsOfEntries entries
  | optional (some v) => v.refs
  | record _ fields => refsOfFields fields
  | array _ number => [.array number]
  | host _ handle => [.handle handle]

def refsOfItems : List Value → List Ref
  | [] => []
  | v :: vs => v.refs ++ refsOfItems vs

def refsOfEntries : List (Value × Value) → List Ref
  | [] => []
  | (k, v) :: vs => k.refs ++ v.refs ++ refsOfEntries vs

def refsOfFields : List (String × Value) → List Ref
  | [] => []
  | (_, v) :: vs => v.refs ++ refsOfFields vs

end

attribute [local simp] refs refsOfItems refsOfEntries refsOfFields

/-- The references of values are those of each. -/
theorem mem_refsOfItems {r : Ref} {vs : List Value} : r ∈ refsOfItems vs ↔ ∃ v ∈ vs, r ∈ v.refs := by
  induction vs with
  | nil => simp
  | cons v vs ih => simp [ih]

theorem mem_refsOfEntries {r : Ref} {vs : List (Value × Value)} :
    r ∈ refsOfEntries vs ↔ ∃ e ∈ vs, r ∈ e.1.refs ∨ r ∈ e.2.refs := by
  induction vs with
  | nil => simp
  | cons e vs ih => simp [ih, or_assoc]

theorem mem_refsOfFields {r : Ref} {vs : List (String × Value)} :
    r ∈ refsOfFields vs ↔ ∃ e ∈ vs, r ∈ e.2.refs := by
  induction vs with
  | nil => simp
  | cons e vs ih => simp [ih]

/-- A list refers to nothing if no item does. -/
theorem refs_list {vs : List Value} : (list vs).refs = [] ↔ ∀ v ∈ vs, v.refs = [] := by
  simp only [List.eq_nil_iff_forall_not_mem]
  constructor
  · intro h v hv r hr
    exact h r (mem_refsOfItems.mpr ⟨v, hv, hr⟩)
  · intro h r hr
    obtain ⟨v, hv, hr⟩ := mem_refsOfItems.mp hr
    exact h v hv r hr

/-- Whether a value has no values within. -/
def isAtom : Value → Bool
  | boxed .. | reified .. | list _ | set _ | map _ | optional (some _) | record .. => false
  | _ => true

end Value

/-! ## Renaming -/

/-- How much larger the numbers of arrays and handles are, and from which number on. -/
structure Renaming where
  arrays : Nat
  arraysBy : Nat
  handles : Nat
  handlesBy : Nat

namespace Renaming

variable (σ : Renaming)

def array (n : Nat) : Nat := if n < σ.arrays then n else n + σ.arraysBy

def handle (n : Nat) : Nat := if n < σ.handles then n else n + σ.handlesBy

def ref : Ref → Ref
  | .array n => .array (σ.array n)
  | .handle n => .handle (σ.handle n)

variable {σ}

/-- Arrays from before keep their numbers. -/
theorem array_of_lt {n : Nat} (h : n < σ.arrays) : σ.array n = n := if_pos h

theorem array_of_le {n : Nat} (h : σ.arrays ≤ n) : σ.array n = n + σ.arraysBy := if_neg (Nat.not_lt.mpr h)

/-- Handles from before keep their numbers. -/
theorem handle_of_lt {n : Nat} (h : n < σ.handles) : σ.handle n = n := if_pos h

theorem handle_of_le {n : Nat} (h : σ.handles ≤ n) : σ.handle n = n + σ.handlesBy := if_neg (Nat.not_lt.mpr h)

/-- Renaming keeps arrays apart. -/
theorem array_inj {m n : Nat} : σ.array m = σ.array n ↔ m = n := by
  unfold array
  split_ifs <;> omega

/-- Renaming keeps handles apart. -/
theorem handle_inj {m n : Nat} : σ.handle m = σ.handle n ↔ m = n := by
  unfold handle
  split_ifs <;> omega

end Renaming

namespace Value

variable (σ : Renaming)

mutual

/-- The value in the other store. -/
def rename : Value → Value
  | boxed kind v => boxed kind v.rename
  | reified base args => reified base (renameItems args)
  | list items => list (renameItems items)
  | set items => set (renameItems items)
  | map entries => map (renameEntries entries)
  | optional (some v) => optional (some v.rename)
  | record className fields => record className (renameFields fields)
  | array className number => array className (σ.array number)
  | host className handle => host className (σ.handle handle)
  | null => null
  | int n => int n
  | long n => long n
  | float bits => float bits
  | double bits => double bits
  | text s => text s
  | classRef name => classRef name
  | bytes content => bytes content
  | optional none => optional none
  | mediaType name => mediaType name
  | status code => status code
  | constant type name => constant type name
  | object unit number => object unit number

def renameItems : List Value → List Value
  | [] => []
  | v :: vs => v.rename :: renameItems vs

def renameEntries : List (Value × Value) → List (Value × Value)
  | [] => []
  | (k, v) :: vs => (k.rename, v.rename) :: renameEntries vs

def renameFields : List (String × Value) → List (String × Value)
  | [] => []
  | (k, v) :: vs => (k, v.rename) :: renameFields vs

end

attribute [local simp] refs rename renameItems renameEntries renameFields

/-! ### Values within values -/

/-- What holds for values without values within, and for a value if it does for those within, holds for all. -/
theorem induct {P : Value → Prop} (atom : ∀ v, v.isAtom = true → P v) (boxed : ∀ kind v, P v → P (.boxed kind v))
    (reified : ∀ base args, (∀ v ∈ args, P v) → P (.reified base args))
    (list : ∀ items, (∀ v ∈ items, P v) → P (.list items)) (set : ∀ items, (∀ v ∈ items, P v) → P (.set items))
    (map : ∀ entries, (∀ e ∈ entries, P e.1 ∧ P e.2) → P (.map entries))
    (optional : ∀ v, P v → P (.optional (some v)))
    (record : ∀ className fields, (∀ e ∈ fields, P e.2) → P (.record className fields)) (v : Value) : P v :=
  have next (w : Value) (_ : sizeOf w < sizeOf v) : P w := induct atom boxed reified list set map optional record w
  match v with
  | .boxed kind v => boxed kind v (next v (by rw [Value.boxed.sizeOf_spec]; omega))
  | .reified base args =>
    reified base args fun v hv => next v (by have := List.sizeOf_lt_of_mem hv; simp; omega)
  | .list items => list items fun v hv => next v (by have := List.sizeOf_lt_of_mem hv; simp; omega)
  | .set items => set items fun v hv => next v (by have := List.sizeOf_lt_of_mem hv; simp; omega)
  | .map entries => map entries fun e he => by
      have hlt := List.sizeOf_lt_of_mem he
      obtain ⟨k, v⟩ := e
      simp only [Prod.mk.sizeOf_spec, Value.map.sizeOf_spec] at hlt next ⊢
      exact ⟨next k (by omega), next v (by omega)⟩
  | .optional (some v) => optional v (next v (by simp; omega))
  | .record className fields => record className fields fun e he => by
      have hlt := List.sizeOf_lt_of_mem he
      obtain ⟨k, v⟩ := e
      simp only [Prod.mk.sizeOf_spec, Value.record.sizeOf_spec] at hlt next ⊢
      exact next v (by omega)
  | .null | .int _ | .long _ | .float _ | .double _ | .text _ | .classRef _ | .bytes _ | .mediaType _ | .status _
  | .constant .. | .array .. | .object .. | .host .. | .optional none => atom _ rfl
termination_by sizeOf v

variable {σ}

theorem renameItems_eq (vs : List Value) : renameItems σ vs = vs.map (rename σ) := by
  induction vs with
  | nil => rfl
  | cons v vs ih => rw [renameItems, ih, List.map_cons]

theorem renameEntries_eq (vs : List (Value × Value)) :
    renameEntries σ vs = vs.map fun e => (e.1.rename σ, e.2.rename σ) := by
  induction vs with
  | nil => rfl
  | cons e vs ih => rw [renameEntries, ih, List.map_cons]

theorem renameFields_eq (vs : List (String × Value)) :
    renameFields σ vs = vs.map fun e => (e.1, e.2.rename σ) := by
  induction vs with
  | nil => rfl
  | cons e vs ih => rw [renameFields, ih, List.map_cons]

/-- A list is renamed item by item. -/
theorem rename_list (vs : List Value) : (list vs).rename σ = list (vs.map (rename σ)) := by
  rw [rename, renameItems_eq]

theorem rename_reified (base : String) (args : List Value) :
    (reified base args).rename σ = reified base (args.map (rename σ)) := by
  rw [rename, renameItems_eq]

theorem rename_map (entries : List (Value × Value)) :
    (map entries).rename σ = map (entries.map fun e => (e.1.rename σ, e.2.rename σ)) := by
  rw [rename, renameEntries_eq]

/-- A list stays as it is if each item does. -/
theorem map_eq_self {α : Type} {f : α → α} {xs : List α} (h : ∀ x ∈ xs, f x = x) : xs.map f = xs :=
  (List.map_congr_left h).trans (List.map_id' xs)

/-- A value is not changed if none of its references is. -/
theorem rename_eq_self {v : Value} (h : ∀ r ∈ v.refs, σ.ref r = r) : v.rename σ = v := by
  have hitems {vs : List Value} (ih : ∀ v ∈ vs, (∀ r ∈ v.refs, σ.ref r = r) → v.rename σ = v)
      (h : ∀ r ∈ refsOfItems vs, σ.ref r = r) : renameItems σ vs = vs := by
    rw [renameItems_eq]
    exact map_eq_self fun v hv => ih v hv fun r hr => h r (mem_refsOfItems.mpr ⟨v, hv, hr⟩)
  induction v using induct with
  | atom v hv =>
      cases v with
      | optional content => cases content <;> simp_all [isAtom]
      | _ => simp_all [isAtom, Renaming.ref]
  | boxed kind v ih => rw [rename, ih h]
  | reified base args ih => rw [rename, hitems ih h]
  | list items ih => rw [rename, hitems ih h]
  | set items ih => rw [rename, hitems ih h]
  | map entries ih =>
      rw [rename, renameEntries_eq]
      refine congrArg _ (map_eq_self fun e he => ?_)
      have hmem (r : Ref) (hr : r ∈ e.1.refs ∨ r ∈ e.2.refs) : σ.ref r = r :=
        h r (mem_refsOfEntries.mpr ⟨e, he, hr⟩)
      rw [(ih e he).1 fun r hr => hmem r (.inl hr), (ih e he).2 fun r hr => hmem r (.inr hr)]
  | optional v ih => rw [rename, ih h]
  | record className fields ih =>
      rw [rename, renameFields_eq]
      refine congrArg _ (map_eq_self fun e he => ?_)
      rw [ih e he fun r hr => h r (mem_refsOfFields.mpr ⟨e, he, hr⟩)]

/-- A value without references stays as it is. -/
theorem rename_of_refs {v : Value} (h : v.refs = []) : v.rename σ = v := rename_eq_self (by simp [h])

/-- The class of a value stays when it is renamed. -/
@[simp] theorem className?_rename (v : Value) : (v.rename σ).className? = v.className? := by
  cases v with
  | optional content => cases content <;> rfl
  | _ => rfl

@[simp] theorem rename_eq_classRef {v : Value} {name : String} : v.rename σ = .classRef name ↔ v = .classRef name := by
  cases v with
  | optional content => cases content <;> simp
  | _ => simp

@[simp] theorem rename_eq_reified {v : Value} {base : String} {args : List Value} :
    v.rename σ = .reified base args ↔ ∃ args', v = .reified base args' ∧ args'.map (rename σ) = args := by
  cases v with
  | optional content => cases content <;> simp
  | _ => simp [renameItems_eq]

@[simp] theorem rename_eq_status {v : Value} {code : UInt16} : v.rename σ = .status code ↔ v = .status code := by
  cases v with
  | optional content => cases content <;> simp
  | _ => simp

end Value

/-! ## What a store holds -/

section

variable (σ : Renaming)

def HostObject.rename : HostObject → HostObject
  | .provider content => .provider (content.rename σ)
  | .body content payload => .body content (payload.map (·.rename σ))
  | object => object

def HostObject.held : HostObject → List Value
  | .provider content => [content]
  | .body _ payload => payload.toList
  | _ => []

def Request.rename (r : Request) : Request :=
  { r with
    payload := r.payload.map (·.rename σ)
    values := r.values.map fun e => (e.1, e.2.rename σ)
    bound := r.bound.map fun e => (e.1, e.2.rename σ) }

/-- The values that a request gives out. -/
def Request.held (r : Request) : List Value := r.payload.toList ++ r.values.map (·.2) ++ r.bound.map (·.2)

def Exchange.rename (x : Exchange) : Exchange := { x with request := x.request.rename σ }

variable {σ}

/-- Looking up and changing the value is to change all values first. -/
theorem lookup_map_snd {κ ν μ : Type} [BEq κ] (f : ν → μ) (l : List (κ × ν)) (k : κ) :
    (l.map fun e => (e.1, f e.2)).lookup k = (l.lookup k).map f := by
  induction l with
  | nil => rfl
  | cons e l ih =>
      obtain ⟨k', v⟩ := e
      simp only [List.map_cons, List.lookup_cons, ih]
      cases k == k' <;> rfl

/-- What a renamed request gives is renamed. -/
theorem Request.value?_rename (r : Request) (className : String) :
    (r.rename σ).value? className = (r.value? className).map (Value.rename σ) := by
  unfold Request.value? Request.rename
  rw [← List.map_reverse, lookup_map_snd]

theorem Request.bound?_rename (r : Request) (className : String) :
    (r.rename σ).bound? className = (r.bound? className).map (Value.rename σ) := by
  unfold Request.bound? Request.rename
  rw [← List.map_reverse, lookup_map_snd]

end

namespace Store

variable {s s' t : Store} {σ : Renaming} {v : Value}

/-- Whether there is what a reference is to. -/
def Resolves (s : Store) : Ref → Prop
  | .array n => n < s.arrays.size
  | .handle n => n < s.handles.size

instance (s : Store) : (r : Ref) → Decidable (s.Resolves r)
  | .array n => inferInstanceAs (Decidable (n < s.arrays.size))
  | .handle n => inferInstanceAs (Decidable (n < s.handles.size))

/-- Whether there is all that a value refers to. -/
def Has (s : Store) (v : Value) : Prop := ∀ r ∈ v.refs, s.Resolves r

instance (s : Store) (v : Value) : Decidable (s.Has v) := inferInstanceAs (Decidable (∀ r ∈ v.refs, s.Resolves r))

/-- The values that can be got out of a store. -/
inductive Holds (s : Store) : Value → Prop
  | field {n : Nat} {fields : List (String × Value)} {e : String × Value} :
      s.objects[n]? = some fields → e ∈ fields → Holds s e.2
  | item {n : Nat} {items : Array Value} {v : Value} : s.arrays[n]? = some items → v ∈ items → Holds s v
  | object {n : Nat} {object : HostObject} {v : Value} : s.handles[n]? = some object → v ∈ object.held → Holds s v
  | request {n : Nat} {x : Exchange} {v : Value} : s.exchanges[n]? = some x → v ∈ x.request.held → Holds s v

/-- A store that has all that the values in it refer to. -/
def Closed (s : Store) : Prop := ∀ v, s.Holds v → s.Has v

/-- A store is closed if all that is in it refers to what is there. -/
theorem closed_of_forall_mem (hobjects : ∀ fields ∈ s.objects, ∀ e ∈ fields, s.Has e.2)
    (harrays : ∀ items ∈ s.arrays, ∀ v ∈ items, s.Has v) (hhandles : ∀ object ∈ s.handles, ∀ v ∈ object.held, s.Has v)
    (hexchanges : ∀ x ∈ s.exchanges, ∀ v ∈ x.request.held, s.Has v) : s.Closed := by
  intro v hv
  cases hv with
  | field hn he => exact hobjects _ (Array.mem_of_getElem? hn) _ he
  | item hn hv => exact harrays _ (Array.mem_of_getElem? hn) v hv
  | object hn hv => exact hhandles _ (Array.mem_of_getElem? hn) v hv
  | request hn hv => exact hexchanges _ (Array.mem_of_getElem? hn) v hv

/-- A store in which there is no less than in another one, and the handles are to the same objects. -/
structure Below (s t : Store) : Prop where
  arrays : s.arrays.size ≤ t.arrays.size
  handles : s.handles.size ≤ t.handles.size
  handle : ∀ n < s.handles.size, t.handles[n]? = s.handles[n]?

/-- A store is below another with more arrays and the same handles. -/
theorem Below.of_handles (harrays : s.arrays.size ≤ t.arrays.size) (h : t.handles = s.handles) : s.Below t :=
  ⟨harrays, Nat.le_of_eq (congrArg _ h.symm), fun n _ => congrArg (·[n]?) h⟩

theorem Below.refl (s : Store) : s.Below s := .of_handles (Nat.le_refl _) rfl

theorem Below.trans {u : Store} (h : s.Below t) (h' : t.Below u) : s.Below u where
  arrays := Nat.le_trans h.arrays h'.arrays
  handles := Nat.le_trans h.handles h'.handles
  handle n hn := (h'.handle n (Nat.lt_of_lt_of_le hn h.handles)).trans (h.handle n hn)

/-- An object of the host stays when the store grows. -/
theorem Below.hostObject {n : Nat} {object : HostObject} (h : s.Below t) (hn : s.handles[n]? = some object) :
    t.handles[n]? = some object :=
  (h.handle n (Array.getElem?_eq_some_iff.mp hn).1).trans hn

theorem below_newHandle (s : Store) (className : String) (object : HostObject) :
    s.Below (s.newHandle className object).2 where
  arrays := Nat.le_refl _
  handles := by simp [newHandle]
  handle n hn := by
    show (s.handles.push object)[n]? = _
    rw [Array.getElem?_push, if_neg (Nat.ne_of_lt hn)]

theorem below_newArray (s : Store) (className : String) (size : Nat) : s.Below (s.newArray className size).2 :=
  .of_handles (by simp [newArray]) rfl

theorem below_setItem (s : Store) (array index : Nat) (v : Value) : s.Below (s.setItem array index v) :=
  .of_handles (by simp [setItem]) rfl

theorem below_send (s : Store) (exchange : Nat) (code : UInt16) : s.Below (s.send exchange code) :=
  .of_handles (Nat.le_refl _) rfl

/-- What a reference leads to is there also when the store has grown. -/
theorem Resolves.mono {r : Ref} (h : s.Resolves r) (hle : s.Below t) : t.Resolves r := by
  cases r with
  | array n => exact Nat.lt_of_lt_of_le h hle.arrays
  | handle n => exact Nat.lt_of_lt_of_le h hle.handles

/-- A store has what it had before it grew. -/
theorem Has.mono (h : s.Has v) (hle : s.Below t) : t.Has v := fun r hr => (h r hr).mono hle

/-- Every store has a value without references. -/
theorem has_of_refs (h : v.refs = []) : s.Has v := by
  intro r hr
  rw [h] at hr
  cases hr

/-- A store has a list if it has the items. -/
theorem has_list {vs : List Value} : s.Has (.list vs) ↔ ∀ v ∈ vs, s.Has v :=
  ⟨fun h v hv r hr => h r (Value.mem_refsOfItems.mpr ⟨v, hv, hr⟩),
    fun h r hr => by
      obtain ⟨v, hv, hr⟩ := Value.mem_refsOfItems.mp hr
      exact h v hv r hr⟩

theorem has_reified {base : String} {args : List Value} : s.Has (.reified base args) ↔ ∀ v ∈ args, s.Has v := has_list

theorem has_map {entries : List (Value × Value)} :
    s.Has (.map entries) ↔ ∀ e ∈ entries, s.Has e.1 ∧ s.Has e.2 :=
  ⟨fun h e he => ⟨fun r hr => h r (Value.mem_refsOfEntries.mpr ⟨e, he, .inl hr⟩),
      fun r hr => h r (Value.mem_refsOfEntries.mpr ⟨e, he, .inr hr⟩)⟩,
    fun h r hr => by
      obtain ⟨e, he, hr | hr⟩ := Value.mem_refsOfEntries.mp hr
      · exact (h e he).1 r hr
      · exact (h e he).2 r hr⟩

/-! ## Stores beside each other -/

/-- A store in which all that there is in another one has been renamed. The responses are left open. -/
structure Renames (σ : Renaming) (s s' : Store) : Prop where
  arrays_le : σ.arrays ≤ s.arrays.size
  arrays_size : s'.arrays.size = s.arrays.size + σ.arraysBy
  array : ∀ n, s'.arrays[σ.array n]? = (s.arrays[n]?).map (·.map (·.rename σ))
  handles_le : σ.handles ≤ s.handles.size
  handles_size : s'.handles.size = s.handles.size + σ.handlesBy
  handle : ∀ n, s'.handles[σ.handle n]? = (s.handles[n]?).map (·.rename σ)
  field : ∀ n name, s'.field n name = (s.field n name).rename σ
  request : ∀ x : Nat, (s'.exchanges[x]?).map Exchange.request =
    (s.exchanges[x]?).map fun e : Exchange => e.request.rename σ

namespace Renames

variable (h : s.Renames σ s')

include h

/-- The next array has the counterpart of its number. -/
theorem array_size : σ.array s.arrays.size = s'.arrays.size := by
  rw [Renaming.array_of_le h.arrays_le, h.arrays_size]

/-- The next handle has the counterpart of its number. -/
theorem handle_size : σ.handle s.handles.size = s'.handles.size := by
  rw [Renaming.handle_of_le h.handles_le, h.handles_size]

/-- The items of an array correspond one by one. -/
theorem items (n : Nat) : s'.items (σ.array n) = (s.items n).map (·.rename σ) := by
  simp only [Store.items, Array.getD_eq_getD_getElem?, h.array n]
  cases s.arrays[n]? <;> simp

/-- Arrays that correspond are of the same size. -/
theorem size_items (n : Nat) : (s'.arrays.getD (σ.array n) #[]).size = (s.arrays.getD n #[]).size := by
  simp only [Array.getD_eq_getD_getElem?, h.array n]
  cases s.arrays[n]? <;> simp

end Renames

end Store

end Routecraft.Machine
