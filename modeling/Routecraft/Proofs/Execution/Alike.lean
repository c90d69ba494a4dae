import Routecraft.Proofs.Execution.References
import Routecraft.Proofs.Execution.Twins

/-!
# Actions that do alike

A judgement on two actions: on twin stores they come to the same result, up to renaming, and leave twin stores behind.
It is closed under doing one thing after the other, so it is shown for each part of the framework by its text.

* `Alike`: the judgement; `AlikeData`, `AlikeValue`: for results that are data, or values.
* `Alike.bind_of`, `Alike.mapM`: actions made up of others.
* `statefulNames`: the methods that find out what others have done, or change it.
* `HostCode.Pure`: code of the application that is a function of its arguments.
* `Alike.hostCall`: the methods of host objects.
-/

namespace Routecraft.Machine

open Store

/-- An action on one store comes to what another action comes to on the other store, renamed by `r`. Nothing is lost
on the way, and a result is as expected. -/
structure Alike (S : Store) (σ : Renaming) (x : Nat) (s s' : Store) {α β : Type} (r : α → β) (E : α → Store → Prop)
    (a : Action α) (b : Action β) : Prop where
  outcome : (s'.perform b).1 = (s.perform a).1.map r
  twins : Twins S σ x (s.perform a).2 (s'.perform b).2
  below : s.Below (s.perform a).2
  result : ∀ v, (s.perform a).1 = .ok v → E v (s.perform a).2

/-- Actions that come to the same data. -/
abbrev AlikeData (S : Store) (σ : Renaming) (x : Nat) (s s' : Store) {α : Type} (a b : Action α) : Prop :=
  Alike S σ x s s' id (fun _ _ => True) a b

/-- Actions that come to the same value, renamed. -/
abbrev AlikeValue (S : Store) (σ : Renaming) (x : Nat) (s s' : Store) (a b : Action Value) : Prop :=
  Alike S σ x s s' (Value.rename σ) (fun v t => t.Has v) a b

/-- Actions that come to the same values, renamed. -/
abbrev AlikeValues (S : Store) (σ : Renaming) (x : Nat) (s s' : Store) (a b : Action (List Value)) : Prop :=
  Alike S σ x s s' (List.map (Value.rename σ)) (fun vs t => ∀ v ∈ vs, t.Has v) a b

variable {S s s' t t' : Store} {σ : Renaming} {x : Nat} {α β γ δ : Type} {r : α → β} {q : γ → δ}
  {E : α → Store → Prop} {F : γ → Store → Prop}

namespace Alike

/-! ## Actions in general -/

/-- Giving values that correspond is alike. -/
theorem pure (h : Twins S σ x s s') {v : α} (hv : E v s) : Alike S σ x s s' r E (pure v) (pure (r v)) where
  outcome := rfl
  twins := h
  below := .refl s
  result w hw := by
    cases hw
    exact hv

theorem throw (h : Twins S σ x s s') (e : MachineError) : Alike S σ x s s' r E (throw e) (throw e) where
  outcome := rfl
  twins := h
  below := .refl s
  result w hw := by cases hw

/-- One action after the other, with what the first one comes to. -/
theorem bind_of {a : Action α} {b : Action β} {f : α → Action γ} {g : β → Action δ} (h : Alike S σ x s s' r E a b)
    (hf : ∀ v t t', s.perform a = (.ok v, t) → Twins S σ x t t' → s.Below t → E v t →
      Alike S σ x t t' q F (f v) (g (r v))) :
    Alike S σ x s s' q F (a >>= f) (b >>= g) := by
  obtain ⟨houtcome, htwins, hbelow, hresult⟩ := h
  rcases ha : s.perform a with ⟨e | v, t⟩ <;> rcases hb : s'.perform b with ⟨e' | v', t'⟩ <;>
    rw [ha, hb] at houtcome htwins <;> rw [ha] at hbelow hresult <;> cases houtcome
  · have hleft : s.perform (a >>= f) = (.error e, t) := by rw [perform_bind, ha]
    have hright : s'.perform (b >>= g) = (.error e, t') := by rw [perform_bind, hb]
    refine ⟨?_, ?_, ?_, ?_⟩ <;> rw [hleft] <;> try rw [hright]
    · rfl
    · exact htwins
    · exact hbelow
    · intro w hw
      cases hw
  · have hleft : s.perform (a >>= f) = t.perform (f v) := by rw [perform_bind, ha]
    have hright : s'.perform (b >>= g) = t'.perform (g (r v)) := by rw [perform_bind, hb]
    obtain ⟨houtcome, htwins, hbelow', hresult'⟩ := hf v t t' ha htwins hbelow (hresult v rfl)
    refine ⟨?_, ?_, ?_, ?_⟩ <;> rw [hleft] <;> try rw [hright]
    · exact houtcome
    · exact htwins
    · exact hbelow.trans hbelow'
    · exact hresult'

/-- One action after the other. -/
theorem bind {a : Action α} {b : Action β} {f : α → Action γ} {g : β → Action δ} (h : Alike S σ x s s' r E a b)
    (hf : ∀ v t t', Twins S σ x t t' → s.Below t → E v t → Alike S σ x t t' q F (f v) (g (r v))) :
    Alike S σ x s s' q F (a >>= f) (b >>= g) := h.bind_of fun v t t' _ => hf v t t'

/-- Only what the actions do matters. -/
theorem of_perform {a a₁ : Action α} {b b₁ : Action β} (h : Alike S σ x s s' r E a₁ b₁)
    (ha : s.perform a = s.perform a₁) (hb : s'.perform b = s'.perform b₁) : Alike S σ x s s' r E a b := by
  obtain ⟨houtcome, htwins, hbelow, hresult⟩ := h
  constructor
  · rwa [ha, hb]
  · rwa [ha, hb]
  · rwa [ha]
  · rwa [ha]

/-- What is done with the store as it is. -/
theorem get {f : Store → Action α} {g : Store → Action β} (h : Alike S σ x s s' r E (f s) (g s')) :
    Alike S σ x s s' r E (get >>= f) (get >>= g) := by
  obtain ⟨houtcome, htwins, hbelow, hresult⟩ := h
  constructor <;> simp only [perform_bind, perform_get] <;> assumption

/-- A change of the store. -/
theorem modify {f g : Store → Store} (h : Twins S σ x (f s) (g s')) (hle : s.Below (f s)) :
    AlikeData S σ x s s' (modify f : Action PUnit) (modify g : Action PUnit) where
  outcome := rfl
  twins := h
  below := hle
  result _ _ := trivial

theorem orUnitFault (h : Twins S σ x s s') (c : Except Bytecode.UnitError α) :
    AlikeData S σ x s s' (orUnitFault c) (orUnitFault c) := by
  cases c with
  | error e => exact throw h (.unit e)
  | ok v => exact pure h trivial

/-- The same action for each of several things. -/
theorem mapM {xs : List δ} {f : δ → Action α} {g : δ → Action β}
    (hmono : ∀ v t u, E v t → t.Below u → E v u)
    (hf : ∀ y ∈ xs, ∀ t t', Twins S σ x t t' → Alike S σ x t t' r E (f y) (g y)) (h : Twins S σ x s s') :
    Alike S σ x s s' (List.map r) (fun vs t => ∀ v ∈ vs, E v t) (xs.mapM f) (xs.mapM g) := by
  induction xs generalizing s s' with
  | nil => exact pure h (List.forall_mem_nil _)
  | cons y xs ih =>
      rw [List.mapM_cons, List.mapM_cons]
      refine bind (hf y List.mem_cons_self s s' h) fun v t t' ht _ hv => ?_
      refine bind (ih (fun y hy => hf y (List.mem_cons_of_mem _ hy)) ht) fun vs u u' hu hle hvs => ?_
      exact pure hu (List.forall_mem_cons.mpr ⟨hmono v t u hv hle, hvs⟩)

/-! ## Values -/

/-- Giving a value and its counterpart is alike. -/
theorem value (h : Twins S σ x s s') {v w : Value} (hv : s.Has v) (hw : v.rename σ = w) :
    AlikeValue S σ x s s' (Pure.pure v) (Pure.pure w) := by
  rw [← hw]
  exact pure h hv

/-- A value that refers to nothing. -/
theorem plain (h : Twins S σ x s s') {v : Value} (hv : v.refs = []) :
    AlikeValue S σ x s s' (Pure.pure v) (Pure.pure v) := value h (has_of_refs hv) (Value.rename_of_refs hv)

/-- Values that refer to nothing, or an error. -/
theorem orFailPlain (h : Twins S σ x s s') {c : Except MachineError Value} (hc : ∀ v, c = .ok v → v.refs = []) :
    AlikeValue S σ x s s' (Machine.orFail c) (Machine.orFail c) := by
  cases c with
  | error e => exact throw h e
  | ok v => exact plain h (hc v rfl)

variable {v : Value}

/-- Errors that tell of values tell the same. -/
theorem throwTelling (h : Twins S σ x s s') (error : String → MachineError) :
    Alike S σ x s s' r E (throwTelling v error) (throwTelling (v.rename σ) error) := by
  refine get ?_
  rw [h.telling]
  exact throw h _

/-- A value of the wrong kind and its counterpart are told alike. -/
theorem mismatch (h : Twins S σ x s s') (expected : String) :
    Alike S σ x s s' r E (mismatch expected v) (mismatch expected (v.rename σ)) := throwTelling h _

/-- Values that correspond are read as the same text. -/
theorem asText (h : Twins S σ x s s') :
    AlikeData S σ x s s' v.asText (v.rename σ).asText := by
  cases v with
  | text s => exact pure h trivial
  | optional content => cases content <;> exact mismatch h _
  | _ => exact mismatch h _

theorem asClass (h : Twins S σ x s s') :
    AlikeData S σ x s s' v.asClass (v.rename σ).asClass := by
  cases v with
  | classRef name => exact pure h trivial
  | optional content => cases content <;> exact mismatch h _
  | _ => exact mismatch h _

theorem asInt (h : Twins S σ x s s') :
    AlikeData S σ x s s' v.asInt (v.rename σ).asInt := by
  cases v with
  | int n => exact pure h trivial
  | optional content => cases content <;> exact mismatch h _
  | _ => exact mismatch h _

theorem asObject (h : Twins S σ x s s') :
    AlikeData S σ x s s' v.asObject (v.rename σ).asObject := by
  cases v with
  | object unit number => exact pure h trivial
  | optional content => cases content <;> exact mismatch h _
  | _ => exact mismatch h _

theorem asArray (h : Twins S σ x s s') :
    AlikeValues S σ x s s' v.asArray (v.rename σ).asArray := by
  cases v with
  | array className number =>
      refine get ?_
      have hitems : s'.items (σ.array number) = (s.items number).map (Value.rename σ) := h.renames.items number
      rw [hitems]
      exact pure h fun v hv => h.closed v (mem_items_holds hv)
  | optional content => cases content <;> exact mismatch h _
  | _ => exact mismatch h _

/-! ## New things -/

/-- Handles to host objects that correspond are made alike. -/
theorem handleTo (h : Twins S σ x s s') (className : String) {object : HostObject}
    (hobject : ∀ v ∈ object.held, s.Has v) :
    AlikeValue S σ x s s' (handleTo className object)
      (handleTo className (object.rename σ)) where
  outcome := by
    show Except.ok (Value.host className s'.handles.size) = .ok (.host className (σ.handle s.handles.size))
    rw [h.renames.handle_size]
  twins := h.newHandle hobject className
  below := s.below_newHandle className object
  result w hw := by
    cases hw
    intro ref href
    obtain rfl := List.mem_singleton.mp href
    simp [Resolves, Machine.handleTo, newHandle]

end Alike

/-! ## Requests -/

/-- What is read as a primitive refers to nothing. -/
theorem refs_of_readPrimitive {kind : Primitive} {raw : String} {v : Value} (h : readPrimitive kind raw = .ok v) :
    v.refs = [] := by
  unfold readPrimitive at h
  split at h
  · next hread =>
    cases h
    cases kind <;> simp only [readPrimitive?, Option.map_eq_some_iff] at hread
    case boolean =>
      split at hread
      · cases hread
        rfl
      · split at hread <;> cases hread
        rfl
    case char =>
      split at hread <;> cases hread
      rfl
    all_goals
      obtain ⟨_, -, rfl⟩ := hread
      rfl
  · cases h

/-- What is read as one of a class refers to nothing. -/
theorem refs_of_readAs {className raw : String} {v : Value} (h : readAs className raw = .ok v) : v.refs = [] := by
  unfold readAs at h
  split at h
  · cases h
    rfl
  · split at h
    · next kind _ =>
      rcases hread : readPrimitive kind raw with e | w
      · rw [hread] at h
        cases h
      · rw [hread] at h
        cases h
        rw [Value.refs, refs_of_readPrimitive hread]
    · cases h
      rfl

/-- A value that a request gives is among those that it holds. -/
theorem Request.mem_held_of_value? {r : Request} {className : String} {v : Value} (h : r.value? className = some v) :
    v ∈ r.held := by
  refine List.mem_append_left _ (List.mem_append_right _ ?_)
  exact List.mem_map_of_mem (f := Prod.snd) (List.mem_reverse.mp (mem_of_lookup h))

/-- An object that a request gives is among those that it holds. -/
theorem Request.mem_held_of_bound? {r : Request} {className : String} {v : Value} (h : r.bound? className = some v) :
    v ∈ r.held := by
  refine List.mem_append_right _ ?_
  exact List.mem_map_of_mem (f := Prod.snd) (List.mem_reverse.mp (mem_of_lookup h))

/-- The names of the calls that find out what others have changed, or change it: those of responses and routes. -/
def statefulNames : List String :=
  ["isResponseStarted", "send", "route", "setReturnType", "setConsumes", "setProduces", "setAttribute"]

namespace Alike

variable {args : List Value} {method : String}

/-- Calls on a context are alike on both stores, unless they change the context of one. -/
theorem callContext (h : Twins S σ x s s') {y : Nat} (hmethod : y = x ∨ method ∉ statefulNames)
    (hargs : ∀ v ∈ args, s.Has v) :
    AlikeValue S σ x s s' (callContext y method args) (callContext y method (args.map (Value.rename σ))) := by
  unfold Machine.callContext
  refine get ?_
  have hrequest := h.renames.request y
  unfold Store.exchange?
  rcases he : s.exchanges[y]? with _ | e <;> rcases he' : s'.exchanges[y]? with _ | e' <;>
    rw [he, he'] at hrequest <;>
    simp only [Option.map_none, Option.map_some, reduceCtorEq, Option.some.injEq] at hrequest
  · exact throw h _
  · have hheld : ∀ v ∈ e.request.held, s.Has v := fun v hv => h.closed v (.request he hv)
    dsimp only
    split
    case h_1 =>
      simp only [List.map]
      rw [hrequest]
      exact handleTo h _ fun v hv => hheld v (List.mem_append_left _ (List.mem_append_left _ hv))
    case h_2 name =>
      simp only [List.map]
      refine bind (asText h) fun name t t' ht _ _ => ?_
      rw [hrequest]
      dsimp only [id, Request.rename, Request.uploadsOf]
      split
      · exact handleTo ht _ (List.forall_mem_nil _)
      · exact throw ht _
    case h_3 name =>
      simp only [List.map]
      refine bind (asText h) fun name t t' ht _ _ => ?_
      rw [hrequest]
      refine bind (mapM (fun v t u hv hle => hv.mono hle)
        (fun file _ t t' ht => handleTo ht _ (List.forall_mem_nil _)) ht) fun files t t' ht _ hfiles => ?_
      exact value ht (has_list.mpr hfiles) (Value.rename_list files)
    case h_4 className =>
      simp only [List.map]
      refine bind (asClass h) fun name t t' ht hle _ => ?_
      dsimp only [id]
      rw [hrequest, Request.value?_rename]
      rcases hvalue : e.request.value? name with _ | v
      · exact throw ht _
      · exact value ht ((hheld v (Request.mem_held_of_value? hvalue)).mono hle) rfl
    case h_5 className =>
      simp only [List.map]
      refine bind (asClass h) fun name t t' ht hle _ => ?_
      dsimp only [id]
      rw [hrequest, Request.bound?_rename]
      rcases hvalue : e.request.bound? name with _ | v
      · exact throw ht _
      · exact value ht ((hheld v (Request.mem_held_of_bound? hvalue)).mono hle) rfl
    case h_6 =>
      obtain rfl : y = x := hmethod.resolve_right (by decide)
      have hexchange := h.exchange
      rw [he, he'] at hexchange
      cases hexchange
      exact plain h rfl
    case h_7 code =>
      obtain rfl : y = x := hmethod.resolve_right (by decide)
      refine bind (modify (h.send code) (s.below_send y code)) fun _ t t' ht _ _ => ?_
      exact handleTo ht _ (List.forall_mem_nil _)
    case h_8 name hfile hfiles hrequire hbind hsend =>
      have hsend' : ∀ code, method = "send" → name.rename σ = .status code → False :=
        fun code hmethod hname => hsend code hmethod (Value.rename_eq_status.mp hname)
      simp only [List.map]
      split
      · refine bind (asText h) fun name t t' ht _ _ => ?_
        rw [hrequest]
        exact handleTo ht _ (List.forall_mem_nil _)
      · exact throw h _
    case h_9 =>
      split <;> simp_all
      exact throw h _

theorem firstText (h : Twins S σ x s s') (source : String) (texts : List String) :
    AlikeData S σ x s s' (firstText source texts) (firstText source texts) := by
  cases texts with
  | nil => exact throw h _
  | cons text texts => exact pure h trivial

theorem readAll (h : Twins S σ x s s') (className : String) (texts : List String) :
    Alike S σ x s s' id (fun vs _ => ∀ v ∈ vs, v.refs = []) (readAll className texts) (readAll className texts) := by
  unfold Machine.readAll
  have hall : ∀ vs, texts.mapM (readAs className) = .ok vs → ∀ v ∈ vs, v.refs = [] := by
    intro vs hvs v hv
    obtain ⟨raw, -, hread⟩ := exists_left_of_mem (mapM_eq_ok.mp hvs) hv
    exact refs_of_readAs hread
  rcases hread : texts.mapM (readAs className) with e | vs
  · exact throw h e
  · exact pure h (hall vs hread)

theorem callValues (h : Twins S σ x s s') (source : String) (texts : List String) (hargs : ∀ v ∈ args, s.Has v) :
    AlikeValue S σ x s s' (callValues source texts method args)
      (callValues source texts method (args.map (Value.rename σ))) := by
  unfold Machine.callValues
  split
  case h_1 =>
    simp only [List.map]
    exact bind (firstText h _ _) fun _ t t' ht _ _ => plain ht rfl
  case h_2 =>
    simp only [List.map]
    exact plain h (by cases texts <;> rfl)
  case h_3 className =>
    simp only [List.map]
    refine bind (firstText h _ _) fun raw t t' ht hle _ => ?_
    refine bind (asClass ht) fun name u u' hu _ _ => ?_
    exact orFailPlain hu fun v => refs_of_readAs
  case h_4 className =>
    simp only [List.map]
    split
    · refine bind (asClass h) fun name t t' ht _ _ => ?_
      exact orFailPlain ht fun v => refs_of_readAs
    · exact plain h rfl
  case h_5 className =>
    simp only [List.map]
    split
    · refine bind (asClass h) fun name t t' ht _ _ => ?_
      refine bind (orFailPlain ht fun v => refs_of_readAs) fun v u u' hu _ hv => ?_
      exact value hu hv rfl
    · exact plain h rfl
  case h_6 className =>
    simp only [List.map]
    refine bind (asClass h) fun name t t' ht _ _ => ?_
    refine bind (readAll ht _ _) fun vs u u' hu _ hvs => plain hu ?_
    exact Value.refs_list.mpr hvs
  case h_7 className =>
    simp only [List.map]
    refine bind (asClass h) fun name t t' ht _ _ => ?_
    refine bind (readAll ht _ _) fun vs u u' hu _ hvs => plain hu ?_
    exact Value.refs_list.mpr fun v hv => hvs v (mem_of_mem_distinct hv)
  case h_8 =>
    simp only [List.map]
    split
    · refine bind (firstText h _ _) fun raw t t' ht _ _ => ?_
      exact orFailPlain ht fun v => refs_of_readPrimitive
    · exact throw h _
  case h_9 =>
    split <;> simp_all
    exact throw h _

theorem bodyText (h : Twins S σ x s s') (content : List UInt8) :
    AlikeData S σ x s s' (bodyText content) (bodyText content) := by
  unfold Machine.bodyText
  split
  · exact pure h trivial
  · exact throw h _

/-- The object of a body is given alike. -/
theorem bodyObject (h : Twins S σ x s s') {payload : Option Value} (hpayload : ∀ v ∈ payload, s.Has v) {type : Value} :
    AlikeValue S σ x s s' (bodyObject payload type)
      (bodyObject (payload.map (Value.rename σ)) (type.rename σ)) := by
  cases payload with
  | none => exact throwTelling h _
  | some v => exact value h (hpayload v rfl) rfl

theorem callBody (h : Twins S σ x s s') (content : List UInt8) {payload : Option Value}
    (hpayload : ∀ v ∈ payload, s.Has v) (hargs : ∀ v ∈ args, s.Has v) :
    AlikeValue S σ x s s' (callBody content payload method args)
      (callBody content (payload.map (Value.rename σ)) method (args.map (Value.rename σ))) := by
  unfold Machine.callBody
  split
  case h_1 =>
    simp only [List.map]
    exact plain h rfl
  case h_2 =>
    simp only [List.map]
    exact plain h rfl
  case h_3 =>
    simp only [List.map]
    exact bind (bodyText h content) fun _ t t' ht _ _ => plain ht rfl
  case h_4 className =>
    simp only [List.map, Value.rename]
    split
    · exact bind (bodyText h content) fun _ t t' ht _ _ => plain ht rfl
    · split
      · exact bind (bodyText h content) fun _ t t' ht _ _ => orFailPlain ht fun v => refs_of_readAs
      · exact bodyObject h hpayload
  case h_5 base types =>
    simp only [List.map, Value.rename]
    exact bodyObject h hpayload
  case h_6 =>
    split <;> simp_all
    exact throw h _

theorem callUpload (h : Twins S σ x s s') (file : Upload) :
    AlikeValue S σ x s s' (callUpload file method args) (callUpload file method (args.map (Value.rename σ))) := by
  unfold Machine.callUpload
  split
  case h_1 => exact plain h rfl
  case h_2 => exact plain h rfl
  case h_3 =>
    split <;> simp_all
    exact throw h _

theorem callProvider (h : Twins S σ x s s') {content : Value} (hcontent : s.Has content) :
    AlikeValue S σ x s s' (callProvider content method args)
      (callProvider (content.rename σ) method (args.map (Value.rename σ))) := by
  unfold Machine.callProvider
  split
  case h_1 => exact value h hcontent rfl
  case h_2 =>
    split <;> simp_all
    exact throw h _

/-- A router has only methods that change it. -/
theorem callRouter (h : Twins S σ x s s') (number : Nat) (hmethod : method ∉ statefulNames) :
    AlikeValue S σ x s s' (callRouter number method args)
      (callRouter number method (args.map (Value.rename σ))) := by
  unfold Machine.callRouter
  split
  · exact absurd (by decide) hmethod
  · split
    · exact absurd (by decide) hmethod
    · exact throw h _

/-- A route has only methods that change it. -/
theorem callRoute (h : Twins S σ x s s') (number : Nat) (hmethod : method ∉ statefulNames) :
    AlikeValue S σ x s s' (callRoute number method args)
      (callRoute number method (args.map (Value.rename σ))) := by
  unfold Machine.callRoute
  split <;> first
    | exact absurd (by decide) hmethod
    | split <;> first | exact absurd (by decide) hmethod | exact throw h _

end Alike

/-! ## Code of the application -/

/-- **Code that is a function of its arguments**, for stores that are later than `S`. It leaves the store as it is,
brings up nothing that is not there, and does not depend on the numbers of what has come later, nor on what has become
of the responses. -/
structure HostCode.Pure (S : Store) (code : HostCode) : Prop where
  store : ∀ (s : Store) (args : List Value), (s.perform (code args)).2 = s
  has : ∀ (s : Store) (args : List Value) (v : Value), S.Below s → s.Sound → (∀ a ∈ args, s.Has a) →
    (s.perform (code args)).1 = .ok v → s.Has v
  same : ∀ (σ : Renaming) (s s' : Store) (args : List Value), S.arrays.size ≤ σ.arrays →
    S.handles.size ≤ σ.handles → s.Sound → s.Renames σ s' → (∀ a ∈ args, s.Has a) →
      (s'.perform (code (args.map (Value.rename σ)))).1 = (s.perform (code args)).1.map (Value.rename σ)

namespace HostCode

/-- Host code that is pure for a store is so for one that has grown. -/
theorem Pure.mono {code : HostCode} (h : HostCode.Pure S code) (hle : S.Below s) : HostCode.Pure s code where
  store := h.store
  has t args v ht := h.has t args v (hle.trans ht)
  same σ t t' args harrays hhandles :=
    h.same σ t t' args (Nat.le_trans hle.arrays harrays) (Nat.le_trans hle.handles hhandles)

/-- Host code that gives back an argument is pure. -/
theorem pure_argument (i : Nat) : HostCode.Pure S (argument i) where
  store _ _ := rfl
  has s args v _ _ hargs hv := by
    cases hv
    rw [List.getD_eq_getElem?_getD]
    cases harg : args[i]? with
    | none => exact has_of_refs rfl
    | some a => exact hargs a (List.mem_of_getElem? harg)
  same σ s s' args _ _ _ _ _ := by
    refine congrArg Except.ok ?_
    rw [List.getD_eq_getElem?_getD, List.getD_eq_getElem?_getD, List.getElem?_map]
    cases args[i]? <;> rfl

end HostCode

namespace Alike

variable {args : List Value} {method : String}

/-- Pure host code goes alike on both stores. -/
theorem code (h : Twins S σ x s s') {code : HostCode} (hcode : HostCode.Pure S code) (hargs : ∀ v ∈ args, s.Has v) :
    AlikeValue S σ x s s' (code args) (code (args.map (Value.rename σ))) where
  outcome := hcode.same σ s s' args h.arrays h.handles h.sound h.renames hargs
  twins := by
    rw [hcode.store, hcode.store]
    exact h
  below := by
    rw [hcode.store]
    exact .refl s
  result v hv := by
    rw [hcode.store]
    exact hcode.has s args v h.since.below h.sound hargs hv

/-- Calls on host objects with pure methods are alike. -/
theorem callStub (h : Twins S σ x s s') {stubs : Array Stub}
    (hstubs : ∀ stub ∈ stubs, ∀ m ∈ stub.methods, HostCode.Pure S m.2) (number : Nat) (hargs : ∀ v ∈ args, s.Has v) :
    AlikeValue S σ x s s' (callStub stubs number method args)
      (callStub stubs number method (args.map (Value.rename σ))) := by
  have hpure : ∀ m ∈ (stubs.getD number default).methods, HostCode.Pure S m.2 := by
    rw [Array.getD_eq_getD_getElem?]
    cases hstub : stubs[number]? with
    | none => exact List.forall_mem_nil _
    | some stub => exact hstubs stub (Array.mem_of_getElem? hstub)
  unfold Machine.callStub
  dsimp only
  split
  · next c hc =>
    refine bind (modify (h.logged _ _) (.of_handles (Nat.le_refl _) rfl)) fun _ t t' ht hle _ => ?_
    exact code ht (hpure _ (mem_of_lookup hc)) fun v hv => (hargs v hv).mono hle
  · exact throw h _

/-- **A method of a host object.** If it has to do with a response, this is that of the exchange that is answered, or
the method is one of the application. -/
theorem hostCall (h : Twins S σ x s s') {stubs : Array Stub}
    (hstubs : ∀ stub ∈ stubs, ∀ m ∈ stub.methods, HostCode.Pure S m.2) {object : HostObject}
    (hobject : ∀ v ∈ object.held, s.Has v)
    (hmethod : method ∉ statefulNames ∨ object = .context x ∨ ∃ number, object = .stub number)
    (hargs : ∀ v ∈ args, s.Has v) :
    AlikeValue S σ x s s' (object.call stubs method args)
      ((object.rename σ).call stubs method (args.map (Value.rename σ))) := by
  cases object with
  | context y =>
      refine callContext h ?_ hargs
      rcases hmethod with hmethod | heq | ⟨number, heq⟩
      · exact .inr hmethod
      · exact .inl (HostObject.context.inj heq)
      · cases heq
  | router number => exact callRouter h number (by simpa using hmethod)
  | route number => exact callRoute h number (by simpa using hmethod)
  | stub number => exact callStub h hstubs number hargs
  | provider content => exact callProvider h (hobject content List.mem_cons_self)
  | values source texts => exact callValues h source texts hargs
  | body content payload => exact callBody h content (fun v hv => hobject v (Option.mem_toList.mpr hv)) hargs
  | upload file => exact callUpload h file

end Alike

end Routecraft.Machine
