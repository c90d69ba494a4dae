import Mathlib.Data.Nat.Find
import Routecraft.Compile.Compiler
import Routecraft.Proofs.Compile.RouteNames

/-!
# Repeated routes

Two endpoints of a controller are told apart by the names of their handlers. Since names stand for routes, they are
told apart exactly if they differ in the verb, the pattern or the names of the parameters. The endpoints are checked
one after the other, so what is wrong with the first one that something is wrong with is the result.

* `Clean`: endpoints that nothing is wrong with; what the check has seen when it comes to the next one.
* `Offends`, `Blames`: the places at which something is wrong, and the error for each.
* `duplicates_detected`: the result of the check.
-/

namespace Routecraft.Compile

/-- Whether two endpoints answer the same requests, with the same names of parameters. -/
def SameRoute (e e' : Endpoint) : Prop :=
  e.verb = e'.verb ∧ e.pattern = e'.pattern ∧ e.paramNames = e'.paramNames

instance : DecidableRel SameRoute := fun _ _ => inferInstanceAs (Decidable (_ ∧ _ ∧ _))

/-- Whether the endpoint at a place is not the controller's own, or has the route of an earlier one. -/
def Offends (c : Controller) (j : Nat) : Prop :=
  ∃ e, c.endpoints[j]? = some e ∧
    (e.owner ≠ c.name ∨ ∃ i < j, ∃ first, c.endpoints[i]? = some first ∧ SameRoute first e)

/-- The error about the endpoint at a place: that it is another controller's, or else that it has the route of the
only earlier endpoint with this route. -/
inductive Blames (c : Controller) (j : Nat) : CompileError → Prop
  | foreign {e : Endpoint} : c.endpoints[j]? = some e → e.owner ≠ c.name →
      Blames c j (.invalidController c.name (.foreignMethod e.name e.owner))
  | repeated {e first : Endpoint} {i : Nat} : c.endpoints[j]? = some e → e.owner = c.name →
      i < j → c.endpoints[i]? = some first → SameRoute first e →
      (∀ k < j, ∀ e', c.endpoints[k]? = some e' → SameRoute e' e → k = i) →
      Blames c j (.duplicateRoute e.verb e.pattern (handlerName e) first.qualifiedName e.qualifiedName)

/-! ## Routes and names -/

theorem SameRoute.symm {e e' : Endpoint} (h : SameRoute e e') : SameRoute e' e :=
  ⟨h.1.symm, h.2.1.symm, h.2.2.symm⟩

theorem SameRoute.trans {e e' e'' : Endpoint} (h : SameRoute e e') (h' : SameRoute e' e'') : SameRoute e e'' :=
  ⟨h.1.trans h'.1, h.2.1.trans h'.2.1, h.2.2.trans h'.2.2⟩

/-- Within a controller, the handlers have the same name if and only if the routes are the same. -/
theorem handlerName_eq_iff {e e' : Endpoint} (howner : e.owner = e'.owner) :
    handlerName e = handlerName e' ↔ SameRoute e e' := by
  unfold handlerName SameRoute
  rw [RouteName.render_inj]
  simp [RouteName.of, howner]

/-! ## Endpoints that nothing is wrong with -/

/-- The endpoints that are all a controller's own, and of different routes. -/
structure Clean (controller : String) (es : List Endpoint) : Prop where
  owned : ∀ e ∈ es, e.owner = controller
  distinct : es.Pairwise fun e e' => ¬SameRoute e e'

/-- The endpoints before the next one, as the check keeps them. -/
def seen (es : List Endpoint) : List (String × Endpoint) :=
  es.reverse.map fun e => (handlerName e, e)

section

variable {controller : String} {before es rest : List Endpoint} {e first : Endpoint}

/-- Methods are clean if all but the last are, and the last neither offends nor repeats a route. -/
theorem clean_concat : Clean controller (before ++ [e]) ↔
    Clean controller before ∧ ¬(e.owner ≠ controller ∨ ∃ first ∈ before, SameRoute first e) := by
  constructor
  · rintro ⟨howned, hdistinct⟩
    obtain ⟨hbefore, -, hcross⟩ := List.pairwise_append.mp hdistinct
    refine ⟨⟨fun e' he' => howned e' (List.mem_append_left _ he'), hbefore⟩, ?_⟩
    rintro (hforeign | ⟨first, hfirst, hsame⟩)
    · exact hforeign (howned e (by simp))
    · exact hcross first hfirst e (by simp) hsame
  · rintro ⟨hclean, hright⟩
    obtain ⟨howner, hnew⟩ := not_or.mp hright
    refine ⟨List.forall_mem_append.mpr ⟨hclean.owned, ?_⟩, ?_⟩
    · simpa using howner
    · refine List.pairwise_append.mpr ⟨hclean.distinct, List.pairwise_singleton _ _, ?_⟩
      rintro first hfirst e' he' hsame
      rw [List.mem_singleton] at he'
      subst he'
      exact hnew ⟨first, hfirst, hsame⟩

/-- A handler name was not seen before just if no earlier method is of the same route. -/
theorem lookup_seen_eq_none (howned : ∀ e ∈ before, e.owner = controller) (howner : e.owner = controller) :
    (seen before).lookup (handlerName e) = none ↔ ¬∃ first ∈ before, SameRoute first e := by
  rw [List.lookup_eq_none_iff]
  simp only [seen, List.mem_map, List.mem_reverse, not_exists, not_and]
  constructor
  · intro h first hfirst hsame
    have hname := (handlerName_eq_iff ((howned first hfirst).trans howner.symm)).mpr hsame
    simpa [hname] using h _ ⟨first, hfirst, rfl⟩
  · rintro h _ ⟨first, hfirst, rfl⟩
    have hname := mt (handlerName_eq_iff ((howned first hfirst).trans howner.symm)).mp (h first hfirst)
    simpa using Ne.symm hname

/-- What a handler name was seen for is an earlier method of the same route. -/
theorem of_lookup_seen (howned : ∀ e ∈ before, e.owner = controller) (howner : e.owner = controller)
    (hfound : (seen before).lookup (handlerName e) = some first) : first ∈ before ∧ SameRoute first e := by
  obtain ⟨l₁, l₂, heq, -⟩ := List.lookup_eq_some_iff.mp hfound
  have hmem : (handlerName e, first) ∈ seen before := by simp [heq]
  simp only [seen, List.mem_map, List.mem_reverse, Prod.mk.injEq] at hmem
  obtain ⟨first', hfirst, hname, rfl⟩ := hmem
  exact ⟨hfirst, (handlerName_eq_iff ((howned first' hfirst).trans howner.symm)).mp hname⟩

/-- An endpoint that nothing is wrong with is seen, and no more. -/
theorem checkEndpoints_cons (h : Clean controller (before ++ [e])) :
    checkEndpoints controller (seen before) (e :: rest) = checkEndpoints controller (seen (before ++ [e])) rest := by
  obtain ⟨hclean, hright⟩ := clean_concat.mp h
  obtain ⟨howner, hnew⟩ := not_or.mp hright
  rw [not_not] at howner
  have hlookup := (lookup_seen_eq_none hclean.owned howner).mpr hnew
  rw [checkEndpoints, if_neg (not_not.mpr howner)]
  simp only [hlookup]
  simp [seen]

/-- Several endpoints that nothing is wrong with are seen. -/
theorem checkEndpoints_append (before rest : List Endpoint) (h : Clean controller (before ++ es)) :
    checkEndpoints controller (seen before) (es ++ rest) =
      checkEndpoints controller (seen (before ++ es)) rest := by
  induction es generalizing before with
  | nil => simp
  | cons e es ih =>
      -- The endpoint moves from those that are left to those before.
      rw [← List.singleton_append, ← List.append_assoc] at h
      have hfirst : Clean controller (before ++ [e]) :=
        ⟨(List.forall_mem_append.mp h.owned).1, (List.pairwise_append.mp h.distinct).1⟩
      rw [List.cons_append, checkEndpoints_cons hfirst, ih (before ++ [e]) h, List.append_assoc, List.singleton_append]

end

/-! ## The first place at which something is wrong -/

section

variable {c : Controller} {e first : Endpoint} {j n : Nat}

/-- The methods before a place are those at the smaller ones. -/
theorem mem_take_iff {es : List Endpoint} : first ∈ es.take n ↔ ∃ i < n, es[i]? = some first := by
  simp only [List.mem_iff_getElem?, List.getElem?_take]
  constructor
  · rintro ⟨i, hi⟩
    split at hi
    · next hlt => exact ⟨i, hlt, hi⟩
    · cases hi
  · rintro ⟨i, hlt, hi⟩
    exact ⟨i, by rw [if_pos hlt, hi]⟩

/-- A method offends by what is before it alone. -/
theorem offends_iff (he : c.endpoints[j]? = some e) :
    Offends c j ↔ e.owner ≠ c.name ∨ ∃ first ∈ c.endpoints.take j, SameRoute first e := by
  unfold Offends
  simp only [he, Option.some.injEq, mem_take_iff]
  constructor
  · rintro ⟨_, rfl, hforeign | ⟨i, hi, first, hfirst, hsame⟩⟩
    · exact .inl hforeign
    · exact .inr ⟨first, ⟨i, hi, hfirst⟩, hsame⟩
  · rintro (hforeign | ⟨first, ⟨i, hi, hfirst⟩, hsame⟩)
    · exact ⟨e, rfl, .inl hforeign⟩
    · exact ⟨e, rfl, .inr ⟨i, hi, first, hfirst, hsame⟩⟩

/-- Nothing is wrong with the first endpoints if and only if none of their places offends. -/
theorem clean_take_iff : Clean c.name (c.endpoints.take n) ↔ ∀ k < n, ¬Offends c k := by
  induction n with
  | zero => exact ⟨fun _ k hk => (nomatch hk), fun _ => ⟨by simp, by simp⟩⟩
  | succ n ih =>
      rw [Nat.forall_lt_succ_right, ← ih, List.take_add_one]
      cases he : c.endpoints[n]? with
      | none =>
          have hnot : ¬Offends c n := by
            rintro ⟨e, he', -⟩
            rw [he] at he'
            cases he'
          simp [hnot]
      | some e => rw [Option.toList_some, clean_concat, offends_iff he]

/-- A controller that has a name is checked method by method. -/
theorem checkController_of_name (hname : c.name ≠ "") :
    checkController c = checkEndpoints c.name (seen []) c.endpoints := by
  simp [checkController, hname, seen]

/-- A clean controller with a name passes. -/
theorem checkController_of_clean (hname : c.name ≠ "") (hclean : Clean c.name c.endpoints) :
    checkController c = .ok () := by
  have happend := checkEndpoints_append [] [] hclean
  rw [List.append_nil] at happend
  rw [checkController_of_name hname, happend]
  rfl

/-- The error is about the first place that offends. -/
theorem checkController_of_offends (hname : c.name ≠ "") (hj : Offends c j) (hleast : ∀ k < j, ¬Offends c k) :
    ∃ err, checkController c = .error err ∧ Blames c j err := by
  have hclean : Clean c.name (c.endpoints.take j) := clean_take_iff.mpr hleast
  obtain ⟨e, he, -⟩ := id hj
  have hsplit : c.endpoints = c.endpoints.take j ++ e :: c.endpoints.drop (j + 1) := by
    obtain ⟨hlt, hget⟩ := List.getElem?_eq_some_iff.mp he
    rw [← hget, ← List.drop_eq_getElem_cons hlt, List.take_append_drop]
  have hcheck : checkController c =
      checkEndpoints c.name (seen (c.endpoints.take j)) (e :: c.endpoints.drop (j + 1)) := by
    rw [checkController_of_name hname]
    conv_lhs => rw [hsplit]
    exact checkEndpoints_append [] _ hclean
  rw [hcheck, checkEndpoints]
  by_cases howner : e.owner = c.name
  · rw [if_neg (not_not.mpr howner)]
    obtain hforeign | hrepeats := (offends_iff he).mp hj
    · exact absurd howner hforeign
    · cases hlookup : (seen (c.endpoints.take j)).lookup (handlerName e) with
      | none => exact absurd hrepeats ((lookup_seen_eq_none hclean.owned howner).mp hlookup)
      | some first =>
          obtain ⟨hmem, hsame⟩ := of_lookup_seen hclean.owned howner hlookup
          obtain ⟨i, hi, hfirst⟩ := mem_take_iff.mp hmem
          simp only [hlookup]
          refine ⟨_, rfl, .repeated he howner hi hfirst hsame ?_⟩
          -- Two earlier endpoints with this route would be the same route, and the later of them would offend.
          intro k hk e' he' hsame'
          rcases Nat.lt_trichotomy k i with hlt | heq | hgt
          · exact absurd ⟨first, hfirst, .inr ⟨k, hlt, e', he', hsame'.trans hsame.symm⟩⟩ (hleast i hi)
          · exact heq
          · exact absurd ⟨e', he', .inr ⟨i, hgt, first, hfirst, hsame.trans hsame'.symm⟩⟩ (hleast k hk)
  · rw [if_pos howner]
    exact ⟨_, rfl, .foreign he howner⟩

/-- There is one error about a place. -/
theorem Blames.unique {err err' : CompileError} (h : Blames c j err) (h' : Blames c j err') : err = err' := by
  cases h with
  | foreign he hforeign =>
      cases h' with
      | foreign he' _ =>
          cases he.symm.trans he'
          rfl
      | repeated he' howner _ _ _ _ =>
          cases he.symm.trans he'
          exact absurd howner hforeign
  | repeated he howner hi hfirst hsame _ =>
      cases h' with
      | foreign he' hforeign =>
          cases he.symm.trans he'
          exact absurd howner hforeign
      | repeated he' _ _ hfirst' _ honly =>
          cases he.symm.trans he'
          rw [← honly _ hi _ hfirst hsame] at hfirst'
          cases hfirst.symm.trans hfirst'
          rfl

end

/-- **Repeated routes are detected.** The check of a controller with a name succeeds if and only if all endpoints are
its own and no two have the same verb, pattern and names of parameters. Otherwise the error is about the first endpoint
that is another controller's or has the route of an earlier one. -/
theorem duplicates_detected {c : Controller} (hname : c.name ≠ "") :
    (checkController c = .ok () ↔
      (∀ e ∈ c.endpoints, e.owner = c.name) ∧ c.endpoints.Pairwise fun e e' => ¬SameRoute e e') ∧
    ∀ err, checkController c = .error err ↔
      ∃ j, Offends c j ∧ (∀ k < j, ¬Offends c k) ∧ Blames c j err := by
  classical
  have hclean_iff : Clean c.name c.endpoints ↔ ∀ k, ¬Offends c k := by
    rw [← List.take_length (l := c.endpoints), clean_take_iff]
    refine ⟨fun h k hk => ?_, fun h k _ => h k⟩
    obtain ⟨e, he, -⟩ := id hk
    exact h k (List.getElem?_eq_some_iff.mp he).1 hk
  by_cases hoffends : ∃ j, Offends c j
  · -- The least place that offends is the one that the check stops at, and there is only one error about it.
    have hleast : ∀ k < Nat.find hoffends, ¬Offends c k := fun k hk => Nat.find_min hoffends hk
    obtain ⟨err, herr, hblames⟩ := checkController_of_offends hname (Nat.find_spec hoffends) hleast
    constructor
    · constructor
      · intro hok
        rw [hok] at herr
        cases herr
      · rintro ⟨howned, hdistinct⟩
        obtain ⟨j, hj⟩ := hoffends
        exact absurd hj (hclean_iff.mp ⟨howned, hdistinct⟩ j)
    · intro err'
      constructor
      · intro herr'
        cases herr.symm.trans herr'
        exact ⟨_, Nat.find_spec hoffends, hleast, hblames⟩
      · rintro ⟨j, hj, hleast', hblames'⟩
        have hfind : Nat.find hoffends = j := (Nat.find_eq_iff hoffends).mpr ⟨hj, hleast'⟩
        rw [hfind] at hblames
        rw [herr, hblames.unique hblames']
  · -- Nothing offends, so the check goes through.
    have hclean : Clean c.name c.endpoints := hclean_iff.mpr (not_exists.mp hoffends)
    have hok := checkController_of_clean hname hclean
    refine ⟨⟨fun _ => ⟨hclean.owned, hclean.distinct⟩, fun _ => hok⟩, fun err => ⟨fun herr => ?_, ?_⟩⟩
    · rw [hok] at herr
      cases herr
    · rintro ⟨j, hj, -⟩
      exact absurd ⟨j, hj⟩ hoffends

section

/-- An endpoint for one item of a shop. -/
def item (owner name : String) (verb : Verb) : Endpoint where
  owner := owner
  name := name
  params := [{ name := "id", source := "", binding := .path, type := .primitive .int, nullable := false }]
  returnType := .plain "app.Item"
  verb := verb
  pattern := "/items/{id}"
  consumes := []
  produces := []
  attributes := []

/-- A shop with a route that is repeated, and with a method of another controller behind it. -/
def shop : Controller where
  name := "app.Shop"
  path := ""
  endpoints := [item "app.Shop" "show" .get, item "app.Shop" "drop" .delete, item "app.Shop" "find" .get,
    item "app.Store" "find" .put]

theorem duplicates_detected_shop : checkController shop =
    .error (.duplicateRoute .get "/items/{id}" (handlerName (item "app.Shop" "find" .get)) "app.Shop.show"
      "app.Shop.find") := by
  have hsame : SameRoute (item "app.Shop" "show" .get) (item "app.Shop" "find" .get) := by decide
  have hbefore : Clean shop.name (shop.endpoints.take 2) := ⟨by decide, by decide⟩
  refine ((duplicates_detected (by decide)).2 _).mpr ⟨2, ?_, clean_take_iff.mp hbefore, ?_⟩
  · exact ⟨_, rfl, .inr ⟨0, by decide, _, rfl, hsame⟩⟩
  · refine .repeated rfl rfl (by decide : 0 < 2) rfl hsame fun k hk e' he' hsame' => ?_
    interval_cases k
    · rfl
    · cases he'
      exact absurd hsame' (by decide)

end

end Routecraft.Compile
