import Routecraft.Proofs.Execution.Operands
import Routecraft.Proofs.Execution.Texts

/-!
# Two runs beside each other

The same actions on two stores, one of which has been used before. As long as they do to the one what they do to the
other, up to the numbers of what is new, they come to the same results.

* `Store.Sound`: stores in which nothing is missing and no array is within itself.
* `Store.Since`: a later store, in which all that there was is as before, but for the responses to some exchanges.
* `Twins`: two stores in the course of a run that answers an exchange.
* `Twins.newHandle`, `Twins.newArray`, `Twins.setItem`, `Twins.send`: changes that keep them twins.
* `Store.after`, `Store.Since.twins`: a store and a later one are twins.
-/

namespace Routecraft.Machine

namespace Store

variable {S s t : Store} {xs ys : List Nat}

/-! ## Later stores -/

/-- A store in which there is all that its values refer to, and no array is within itself. -/
structure Sound (s : Store) : Prop where
  closed : s.Closed
  layered : s.Layered

/-- A store without arrays. -/
theorem Sound.of_arrays (hclosed : s.Closed) (harrays : s.arrays = #[]) : s.Sound := by
  refine ⟨hclosed, fun _ => 0, fun n hn => ?_, fun n v hv => ?_⟩
  · simp [harrays] at hn
  · simp [items, harrays] at hv

/-- A later store, after runs that answer some exchanges. All that there was is as before, apart from the responses to
these. New arrays hold no references. -/
structure Since (S : Store) (xs : List Nat) (s : Store) : Prop where
  objects : s.objects = S.objects
  arrays_le : S.arrays.size ≤ s.arrays.size
  array : ∀ n < S.arrays.size, s.arrays[n]? = S.arrays[n]?
  fresh : ∀ n, S.arrays.size ≤ n → ∀ v ∈ s.items n, v.refs = []
  handles_le : S.handles.size ≤ s.handles.size
  handle : ∀ n < S.handles.size, s.handles[n]? = S.handles[n]?
  exchange : ∀ x ∉ xs, s.exchanges[x]? = S.exchanges[x]?
  request : ∀ x : Nat, (s.exchanges[x]?).map Exchange.request = (S.exchanges[x]?).map Exchange.request

/-- The items of an array are what is at its number. -/
theorem items_of_getElem? {n m : Nat} (h : t.arrays[m]? = s.arrays[n]?) : t.items m = s.items n := by
  simp only [items, Array.getD_eq_getD_getElem?, h]

/-- An array that is not there has no items. -/
theorem items_of_le {n : Nat} (h : s.arrays.size ≤ n) : s.items n = [] := by
  simp [items, h]

theorem Since.refl (s : Store) (xs : List Nat) : s.Since xs s where
  objects := rfl
  arrays_le := Nat.le_refl _
  array _ _ := rfl
  fresh n hn v hv := by
    rw [items_of_le hn] at hv
    cases hv
  handles_le := Nat.le_refl _
  handle _ _ := rfl
  exchange _ _ := rfl
  request _ := rfl

/-- What came after a store that came after a third one came after this one. -/
theorem Since.trans (h : S.Since xs s) (h' : s.Since ys t) : S.Since (xs ++ ys) t where
  objects := h'.objects.trans h.objects
  arrays_le := Nat.le_trans h.arrays_le h'.arrays_le
  array n hn := (h'.array n (Nat.lt_of_lt_of_le hn h.arrays_le)).trans (h.array n hn)
  fresh n hn v hv := by
    by_cases hold : n < s.arrays.size
    · rw [items_of_getElem? (h'.array n hold)] at hv
      exact h.fresh n hn v hv
    · exact h'.fresh n (Nat.not_lt.mp hold) v hv
  handles_le := Nat.le_trans h.handles_le h'.handles_le
  handle n hn := (h'.handle n (Nat.lt_of_lt_of_le hn h.handles_le)).trans (h.handle n hn)
  exchange x hx := by
    rw [List.mem_append, not_or] at hx
    exact (h'.exchange x hx.2).trans (h.exchange x hx.1)
  request x := (h'.request x).trans (h.request x)

/-- A later store has all that there was. -/
theorem Since.below (h : S.Since xs s) : S.Below s := ⟨h.arrays_le, h.handles_le, h.handle⟩

/-- Arrays from before keep their items. -/
theorem Since.items (h : S.Since xs s) {n : Nat} (hn : n < S.arrays.size) : s.items n = S.items n :=
  items_of_getElem? (h.array n hn)

theorem mem_items_holds {n : Nat} {v : Value} (hv : v ∈ s.items n) : s.Holds v := by
  unfold items at hv
  rw [Array.getD_eq_getD_getElem?] at hv
  cases harray : s.arrays[n]? with
  | none => simp [harray] at hv
  | some items =>
      rw [harray] at hv
      exact .item harray (by simpa using hv)

/-- A later store is layered: the new arrays have nothing below them. -/
theorem Since.sound (h : S.Since xs s) (hS : S.Sound) (hs : s.Closed) : s.Sound := by
  obtain ⟨rank, hbound, hrank⟩ := hS.layered
  refine ⟨hs, fun n => if n < S.arrays.size then rank n else 0, fun n hn => ?_, fun n v hv m hm => ?_⟩
  · have hle := h.arrays_le
    dsimp only
    split
    · next hold =>
      have := hbound n hold
      omega
    · omega
  · by_cases hold : n < S.arrays.size
    · rw [h.items hold] at hv
      have hlt : m < S.arrays.size := hS.closed v (mem_items_holds hv) _ hm
      dsimp only
      rw [if_pos hold, if_pos hlt]
      exact hrank n v hv m hm
    · rw [h.fresh n (Nat.not_lt.mp hold) v hv] at hm
      cases hm

/-- A closed store has what is in its fields. -/
theorem Closed.field (hs : s.Closed) (number : Nat) (name : String) : s.Has (s.field number name) := by
  unfold Store.field
  rw [Array.getD_eq_getD_getElem?]
  rcases hfields : s.objects[number]? with _ | fields
  · exact has_of_refs rfl
  · dsimp only [Option.getD_some]
    rcases hlookup : fields.lookup name with _ | v
    · exact has_of_refs rfl
    · obtain ⟨before, after, rfl, -⟩ := List.lookup_eq_some_iff.mp hlookup
      exact hs v (.field hfields (e := (name, v)) (List.mem_append_right _ List.mem_cons_self))

/-! ## Changes -/

theorem getElem?_newHandle (s : Store) (className : String) (object : HostObject) (n : Nat) :
    (s.newHandle className object).2.handles[n]? =
      if n = s.handles.size then some object else s.handles[n]? := Array.getElem?_push

theorem getElem?_newArray (s : Store) (className : String) (size n : Nat) :
    (s.newArray className size).2.arrays[n]? =
      if n = s.arrays.size then some (Array.replicate size .null) else s.arrays[n]? := Array.getElem?_push

theorem getElem?_setItem (s : Store) (array index : Nat) (v : Value) (n : Nat) :
    (s.setItem array index v).arrays[n]? =
      if array = n then (s.arrays[n]?).map (·.setIfInBounds index v) else s.arrays[n]? := Array.getElem?_modify

theorem getElem?_send (s : Store) (x : Nat) (code : UInt16) (y : Nat) :
    (s.send x code).exchanges[y]? =
      if x = y then (s.exchanges[y]?).map fun e => { e with started := true, sent := e.sent ++ [code] }
      else s.exchanges[y]? := Array.getElem?_modify

/-- A store stays closed if it holds nothing new that refers to what is not there. -/
theorem Closed.grow (hs : s.Closed) (hle : s.Below t) (h : ∀ v, t.Holds v → s.Holds v ∨ t.Has v) : t.Closed := by
  intro v hv
  rcases h v hv with hold | hhas
  · exact (hs v hold).mono hle
  · exact hhas

theorem Closed.newHandle (hs : s.Closed) {object : HostObject} (hobject : ∀ v ∈ object.held, s.Has v)
    (className : String) : (s.newHandle className object).2.Closed := by
  have hle := s.below_newHandle className object
  refine hs.grow hle fun v hv => ?_
  cases hv with
  | field hn he => exact .inl (.field hn he)
  | item hn hv => exact .inl (.item hn hv)
  | @object n host v hn hv =>
      rw [getElem?_newHandle] at hn
      split at hn
      · cases hn
        exact .inr ((hobject v hv).mono hle)
      · exact .inl (.object hn hv)
  | request hn hv => exact .inl (.request hn hv)

theorem Closed.newArray (hs : s.Closed) (className : String) (size : Nat) :
    (s.newArray className size).2.Closed := by
  have hle := s.below_newArray className size
  refine hs.grow hle fun v hv => ?_
  cases hv with
  | field hn he => exact .inl (.field hn he)
  | @item n items v hn hv =>
      rw [getElem?_newArray] at hn
      split at hn
      · cases hn
        obtain ⟨-, rfl⟩ := Array.mem_replicate.mp hv
        exact .inr (has_of_refs rfl)
      · exact .inl (.item hn hv)
  | object hn hv => exact .inl (.object hn hv)
  | request hn hv => exact .inl (.request hn hv)

theorem Closed.setItem (hs : s.Closed) {w : Value} (hw : s.Has w) (array index : Nat) :
    (s.setItem array index w).Closed := by
  have hle := s.below_setItem array index w
  refine hs.grow hle fun v hv => ?_
  cases hv with
  | field hn he => exact .inl (.field hn he)
  | @item n items v hn hv =>
      rw [getElem?_setItem] at hn
      split at hn
      · obtain ⟨old, hold, rfl⟩ := Option.map_eq_some_iff.mp hn
        rcases Array.mem_or_eq_of_mem_setIfInBounds hv with hmem | rfl
        · exact .inl (.item hold hmem)
        · exact .inr (hw.mono hle)
      · exact .inl (.item hn hv)
  | object hn hv => exact .inl (.object hn hv)
  | request hn hv => exact .inl (.request hn hv)

theorem Closed.send (hs : s.Closed) (x : Nat) (code : UInt16) : (s.send x code).Closed := by
  refine hs.grow (s.below_send x code) fun v hv => ?_
  cases hv with
  | field hn he => exact .inl (.field hn he)
  | item hn hv => exact .inl (.item hn hv)
  | object hn hv => exact .inl (.object hn hv)
  | @request n e v hn hv =>
      rw [getElem?_send] at hn
      split at hn
      · obtain ⟨old, hold, rfl⟩ := Option.map_eq_some_iff.mp hn
        exact .inl (.request hold hv)
      · exact .inl (.request hn hv)

end Store

/-! ## Twins -/

/-- Two stores in the course of runs that answer the exchange `x`: the one came after the store `S`, and in the other
one all that is in it has been renamed, but for what there was before. -/
structure Twins (S : Store) (σ : Renaming) (x : Nat) (s s' : Store) : Prop where
  base : S.Sound
  arrays : S.arrays.size ≤ σ.arrays
  handles : S.handles.size ≤ σ.handles
  since : S.Since [x] s
  closed : s.Closed
  renames : s.Renames σ s'
  exchange : s'.exchanges[x]? = (s.exchanges[x]?).map (Exchange.rename σ)

namespace Twins

open Store

variable {S s s' : Store} {σ : Renaming} {x : Nat}

/-- Twins are sound. -/
theorem sound (h : Twins S σ x s s') : s.Sound := h.since.sound h.base h.closed

/-- An error tells of a renamed value as it does of the value. -/
theorem telling (h : Twins S σ x s s') (v : Value) (error : String → MachineError) :
    s'.telling (v.rename σ) error = s.telling v error := by
  unfold Store.telling
  rw [h.renames.display? h.sound.layered]

theorem newHandle (h : Twins S σ x s s') {object : HostObject} (hobject : ∀ v ∈ object.held, s.Has v)
    (className : String) :
    Twins S σ x (s.newHandle className object).2 (s'.newHandle className (object.rename σ)).2 where
  base := h.base
  arrays := h.arrays
  handles := h.handles
  since :=
    { h.since with
      handles_le := Nat.le_trans h.since.handles_le (by simp [Store.newHandle])
      handle := fun n hn => by
        have hlt : n < s.handles.size := Nat.lt_of_lt_of_le hn h.since.handles_le
        rw [getElem?_newHandle, if_neg (Nat.ne_of_lt hlt), h.since.handle n hn] }
  closed := h.closed.newHandle hobject className
  renames :=
    { h.renames with
      handles_le := Nat.le_trans h.renames.handles_le (by simp [Store.newHandle])
      handles_size := by
        show (s'.handles.push _).size = (s.handles.push _).size + _
        simp only [Array.size_push, h.renames.handles_size]
        omega
      handle := fun n => by
        rw [getElem?_newHandle, getElem?_newHandle, ← h.renames.handle_size]
        simp only [Renaming.handle_inj]
        split
        · rfl
        · exact h.renames.handle n }
  exchange := h.exchange

theorem newArray (h : Twins S σ x s s') (className : String) (size : Nat) :
    Twins S σ x (s.newArray className size).2 (s'.newArray className size).2 where
  base := h.base
  arrays := h.arrays
  handles := h.handles
  since :=
    { h.since with
      arrays_le := Nat.le_trans h.since.arrays_le (by simp [Store.newArray])
      array := fun n hn => by
        have hlt : n < s.arrays.size := Nat.lt_of_lt_of_le hn h.since.arrays_le
        rw [getElem?_newArray, if_neg (Nat.ne_of_lt hlt), h.since.array n hn]
      fresh := fun n hn v hv => by
        by_cases hnew : n = s.arrays.size
        · have hitems : (s.newArray className size).2.items n = List.replicate size .null := by
            simp [Store.items, Store.newArray, hnew]
          rw [hitems] at hv
          rw [List.eq_of_mem_replicate hv]
          rfl
        · have hitems : (s.newArray className size).2.items n = s.items n := by
            refine items_of_getElem? ?_
            rw [getElem?_newArray, if_neg hnew]
          rw [hitems] at hv
          exact h.since.fresh n hn v hv }
  closed := h.closed.newArray className size
  renames :=
    { h.renames with
      arrays_le := Nat.le_trans h.renames.arrays_le (by simp [Store.newArray])
      arrays_size := by
        show (s'.arrays.push _).size = (s.arrays.push _).size + _
        simp only [Array.size_push, h.renames.arrays_size]
        omega
      array := fun n => by
        rw [getElem?_newArray, getElem?_newArray, ← h.renames.array_size]
        simp only [Renaming.array_inj]
        split
        · simp [Value.rename]
        · exact h.renames.array n }
  exchange := h.exchange

/-- An item without references is stored into a new array. -/
theorem setItem (h : Twins S σ x s s') {array : Nat} (harray : S.arrays.size ≤ array) {v : Value} (hv : v.refs = [])
    (index : Nat) : Twins S σ x (s.setItem array index v) (s'.setItem (σ.array array) index v) where
  base := h.base
  arrays := h.arrays
  handles := h.handles
  since :=
    { h.since with
      arrays_le := Nat.le_trans h.since.arrays_le (by simp [Store.setItem])
      array := fun n hn => by
        rw [getElem?_setItem, if_neg (by omega), h.since.array n hn]
      fresh := fun n hn w hw => by
        unfold Store.items at hw
        rw [Array.getD_eq_getD_getElem?, getElem?_setItem] at hw
        cases hold : s.arrays[n]? with
        | none => simp [hold] at hw
        | some old =>
            -- What is in a new array holds no references; the item that is put in does not either.
            have hfresh (u : Value) (hu : u ∈ old) : u.refs = [] :=
              h.since.fresh n hn u (by simpa [Store.items, hold] using hu)
            rw [hold] at hw
            split at hw
            · have hw : w ∈ old.setIfInBounds index v := Array.mem_toList_iff.mp hw
              rcases Array.mem_or_eq_of_mem_setIfInBounds hw with hmem | rfl
              · exact hfresh w hmem
              · exact hv
            · exact hfresh w (by simpa using hw) }
  closed := h.closed.setItem (has_of_refs hv) array index
  renames :=
    { h.renames with
      arrays_le := Nat.le_trans h.renames.arrays_le (by simp [Store.setItem])
      arrays_size := by
        show (s'.arrays.modify _ _).size = (s.arrays.modify _ _).size + _
        simp only [Array.size_modify, h.renames.arrays_size]
      array := fun n => by
        rw [getElem?_setItem, getElem?_setItem, h.renames.array n]
        simp only [Renaming.array_inj]
        split
        · cases s.arrays[n]? with
          | none => rfl
          | some old => simp [Value.rename_of_refs hv]
        · rfl }
  exchange := h.exchange

/-- A status code is sent to the exchange that is answered. -/
theorem send (h : Twins S σ x s s') (code : UInt16) : Twins S σ x (s.send x code) (s'.send x code) where
  base := h.base
  arrays := h.arrays
  handles := h.handles
  since :=
    { h.since with
      exchange := fun y hy => by
        rw [getElem?_send, if_neg fun hxy => hy (List.mem_singleton.mpr hxy.symm)]
        exact h.since.exchange y hy
      request := fun y => by
        refine Eq.trans ?_ (h.since.request y)
        rw [getElem?_send]
        split
        · cases s.exchanges[y]? <;> rfl
        · rfl }
  closed := h.closed.send x code
  renames :=
    { h.renames with
      request := fun y => by
        rw [getElem?_send, getElem?_send]
        split
        · next hxy =>
          subst hxy
          rw [h.exchange]
          cases s.exchanges[x]? <;> rfl
        · exact h.renames.request y }
  exchange := by
    rw [getElem?_send, getElem?_send, if_pos rfl, if_pos rfl, h.exchange]
    cases s.exchanges[x]? <;> rfl

/-- The calls on stubs make no difference. -/
theorem logged (h : Twins S σ x s s') (calls calls' : Array StubCall) :
    Twins S σ x { s with calls } { s' with calls := calls' } where
  base := h.base
  arrays := h.arrays
  handles := h.handles
  since := { h.since with }
  closed v hv := by
    cases hv with
    | field hn he => exact h.closed _ (.field hn he)
    | item hn hv => exact h.closed _ (.item hn hv)
    | object hn hv => exact h.closed _ (.object hn hv)
    | request hn hv => exact h.closed _ (.request hn hv)
  renames := { h.renames with }
  exchange := h.exchange

end Twins

/-! ## Later stores as twins -/

/-- What is new since `s`, with the numbers that it has when it comes after `t` instead. -/
def Store.after (s t : Store) : Renaming where
  arrays := s.arrays.size
  arraysBy := t.arrays.size - s.arrays.size
  handles := s.handles.size
  handlesBy := t.handles.size - s.handles.size

namespace Store

variable {S t : Store} {xs : List Nat} {x : Nat} {v : Value}

/-- What there was before is not renamed. -/
theorem Has.rename_after (h : S.Has v) (t : Store) : v.rename (S.after t) = v := by
  refine Value.rename_eq_self fun r hr => ?_
  have hresolves := h r hr
  cases r with
  | array n => exact congrArg Ref.array (Renaming.array_of_lt hresolves)
  | handle n => exact congrArg Ref.handle (Renaming.handle_of_lt hresolves)

/-- The objects of the host from before are not renamed. -/
theorem Closed.object_after (hS : S.Closed) (t : Store) {n : Nat} {object : HostObject}
    (h : S.handles[n]? = some object) : object.rename (S.after t) = object := by
  have hheld : ∀ v ∈ object.held, v.rename (S.after t) = v := fun v hv => (hS v (.object h hv)).rename_after t
  cases object with
  | provider content => exact congrArg HostObject.provider (hheld content List.mem_cons_self)
  | body content payload =>
      cases payload with
      | none => rfl
      | some v => exact congrArg (fun v => HostObject.body content (some v)) (hheld v List.mem_cons_self)
  | _ => rfl

theorem Closed.request_after (hS : S.Closed) (t : Store) {n : Nat} {e : Exchange} (h : S.exchanges[n]? = some e) :
    e.request.rename (S.after t) = e.request := by
  have hheld : ∀ v ∈ e.request.held, v.rename (S.after t) = v := fun v hv => (hS v (.request h hv)).rename_after t
  have hpayload : e.request.payload.map (Value.rename (S.after t)) = e.request.payload := by
    cases hv : e.request.payload with
    | none => rfl
    | some v =>
        refine congrArg some (hheld v ?_)
        simp [Request.held, hv]
  have hpairs {l : List (String × Value)} (hl : ∀ e ∈ l, e.2.rename (S.after t) = e.2) :
      l.map (fun e => (e.1, e.2.rename (S.after t))) = l :=
    Value.map_eq_self fun e he => Prod.ext rfl (hl e he)
  unfold Request.rename
  rw [hpayload, hpairs fun e he => hheld e.2 ?_, hpairs fun e he => hheld e.2 ?_]
  · exact List.mem_append_right _ (List.mem_map_of_mem he)
  · exact List.mem_append_left _ (List.mem_append_right _ (List.mem_map_of_mem he))

theorem Closed.array_after (hS : S.Closed) (t : Store) {n : Nat} {items : Array Value} (h : S.arrays[n]? = some items) :
    items.map (Value.rename (S.after t)) = items := by
  have hitems : items.toList.map (Value.rename (S.after t)) = items.toList :=
    Value.map_eq_self fun v hv => (hS v (.item h (Array.mem_toList_iff.mp hv))).rename_after t
  exact Array.ext' (by rw [Array.toList_map, hitems])

/-- What is in a store has not been renamed in a later one. -/
theorem Since.renames (hS : S.Closed) (h : S.Since xs t) : S.Renames (S.after t) t where
  arrays_le := Nat.le_refl _
  arrays_size := (Nat.add_sub_cancel' h.arrays_le).symm
  array n := by
    by_cases hn : n < S.arrays.size
    · rw [Renaming.array_of_lt hn, h.array n hn]
      rcases harray : S.arrays[n]? with _ | items
      · rfl
      · exact congrArg some (hS.array_after t harray).symm
    · have hn := Nat.not_lt.mp hn
      have hle := h.arrays_le
      rw [Renaming.array_of_le hn, Array.getElem?_eq_none hn, Array.getElem?_eq_none (by dsimp only [after]; omega)]
      rfl
  handles_le := Nat.le_refl _
  handles_size := (Nat.add_sub_cancel' h.handles_le).symm
  handle n := by
    by_cases hn : n < S.handles.size
    · rw [Renaming.handle_of_lt hn, h.handle n hn]
      rcases hobject : S.handles[n]? with _ | object
      · rfl
      · exact congrArg some (hS.object_after t hobject).symm
    · have hn := Nat.not_lt.mp hn
      have hle := h.handles_le
      rw [Renaming.handle_of_le hn, Array.getElem?_eq_none hn, Array.getElem?_eq_none (by dsimp only [after]; omega)]
      rfl
  field n name := by
    rw [(hS.field n name).rename_after t]
    unfold Store.field
    rw [h.objects]
  request y := by
    rw [h.request y]
    rcases hexchange : S.exchanges[y]? with _ | e
    · rfl
    · exact congrArg some (hS.request_after t hexchange).symm

/-- A store is the twin of a later one, for an exchange that has not been answered since. -/
theorem Since.twins (hS : S.Sound) (h : S.Since xs t) (hx : x ∉ xs) : Twins S (S.after t) x S t where
  base := hS
  arrays := Nat.le_refl _
  handles := Nat.le_refl _
  since := .refl S [x]
  closed := hS.closed
  renames := h.renames hS.closed
  exchange := by
    rw [h.exchange x hx]
    rcases hexchange : S.exchanges[x]? with _ | e
    · rfl
    · refine congrArg some ?_
      unfold Exchange.rename
      rw [hS.closed.request_after t hexchange]

end Store

end Routecraft.Machine
