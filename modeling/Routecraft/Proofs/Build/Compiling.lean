import Routecraft.Proofs.Build.Running

/-!
# Three ways to compile

Controllers are compiled one after the other by a build that stops at the first failure, by a build that goes on and
collects all failures, and by the compiler without a build. What is wrong with a controller depends on it and on the
names before it, and on nothing that the others come to; so the three find the same.

* `failuresFrom`, `compiledFrom`: what is wrong with controllers, and what the others compile to.
* `compileFrom_collecting`, `compileFrom_failFast`, `compileAllFrom_eq`: the three ways, in these terms.
* `ListsFailures`, `listsFailures_failuresFrom`: which controllers are among the failures, in which order and why.
* `drivers_agree`: the three ways agree.
-/

namespace Routecraft.Build

open Bytecode Compile

variable {f : AttributeFilter} {seen : List String} {c : Controller} {cs : List Controller} {e : CompileError}

/-! ## Failures -/

/-- What is wrong with controllers after those whose names are `seen`, each with its name. -/
def failuresFrom (f : AttributeFilter) (seen : List String) : List Controller → List (String × CompileError)
  | [] => []
  | c :: rest =>
    match compileUnseen f seen c with
    | .ok _ => failuresFrom f (c.name :: seen) rest
    | .error e => (c.name, e) :: failuresFrom f (c.name :: seen) rest

/-- The units of the controllers that there is nothing wrong with. -/
def compiledFrom (f : AttributeFilter) (seen : List String) : List Controller → List CompiledController
  | [] => []
  | c :: rest =>
    match compileUnseen f seen c with
    | .ok compiled => compiled :: compiledFrom f (c.name :: seen) rest
    | .error _ => compiledFrom f (c.name :: seen) rest

/-- A controller fails with an error after those whose names are `seen`: it repeats one of the names, or else it does
not compile on its own. -/
def FailsWith (f : AttributeFilter) (seen : List String) (c : Controller) (e : CompileError) : Prop :=
  c.name ∈ seen ∧ e = .invalidController c.name .repeated ∨ c.name ∉ seen ∧ compileController f c = .error e

/-- A controller comes to an error just where it fails by the list. -/
theorem compileUnseen_eq_error : compileUnseen f seen c = .error e ↔ FailsWith f seen c e := by
  unfold compileUnseen FailsWith
  by_cases hseen : c.name ∈ seen
  · simp [hseen, eq_comm]
  · simp [hseen]

/-! ## The loops -/

/-- Counting never fails. -/
theorem countResult_run (repeated : Bool) (result : Except CompileError CompiledController) (w : Workspace) :
    ∃ w', (countResult repeated result).run.run w = (.ok (), w') := by
  have hunits (us : List EncodedUnit) (w : Workspace) :
      ∃ w', (us.forM fun u => count (·.recordUnit u.role.name u.bytes.length)).run.run w = (.ok (), w') := by
    induction us generalizing w with
    | nil => exact ⟨w, rfl⟩
    | cons u us ih =>
        obtain ⟨w', hus⟩ := ih _
        exact ⟨w', run_bind_eq_ok.mpr ⟨(), _, rfl, hus⟩⟩
  unfold countResult
  cases result with
  | ok compiled =>
      cases repeated
      · obtain ⟨w', hus⟩ := hunits compiled.units _
        exact ⟨w', run_bind_eq_ok.mpr ⟨(), _, rfl, hus⟩⟩
      · exact hunits compiled.units w
  | error e => cases repeated <;> exact ⟨_, rfl⟩

/-- What a build does about the first of several controllers, once it is counted. -/
theorem compileFrom_cons (f : AttributeFilter) (seen : List String) (c : Controller) (failFast : Bool)
    (rest : List Controller) (w : Workspace) :
    ∃ w', (compileFrom f failFast seen (c :: rest)).run.run w =
      (match compileUnseen f seen c with
        | .ok compiled => do
          let (others, failures) ← compileFrom f failFast (c.name :: seen) rest
          return (compiled :: others, failures)
        | .error e =>
          if failFast then throw (.compile c.name e)
          else do
            let (others, failures) ← compileFrom f failFast (c.name :: seen) rest
            return (others, (c.name, e) :: failures) :
        Action (List CompiledController × List (String × CompileError))).run.run w' := by
  obtain ⟨w', hcount⟩ := countResult_run (seen.contains c.name) (compileUnseen f seen c) w
  refine ⟨w', ?_⟩
  conv_lhs => unfold compileFrom
  rewrite [run_bind, hcount]
  rfl

/-- A build that goes on finds all failures. -/
theorem compileFrom_collecting (f : AttributeFilter) (seen : List String) (cs : List Controller) (w : Workspace) :
    ((compileFrom f false seen cs).run.run w).1 = .ok (compiledFrom f seen cs, failuresFrom f seen cs) := by
  induction cs generalizing seen w with
  | nil => rfl
  | cons c rest ih =>
      obtain ⟨w', hfirst⟩ := compileFrom_cons f seen c false rest w
      rw [hfirst, compiledFrom, failuresFrom]
      have hrest := ih (c.name :: seen) w'
      rcases hrun : (compileFrom f false (c.name :: seen) rest).run.run w' with ⟨result, w''⟩
      rw [hrun] at hrest
      cases hrest
      cases compileUnseen f seen c with
      | ok compiled => simp only [run_bind, hrun]; rfl
      | error e => simp only [Bool.false_eq_true, if_false, run_bind, hrun]; rfl

/-- A build that stops at a failure stops at the first. -/
theorem compileFrom_failFast (f : AttributeFilter) (seen : List String) (cs : List Controller) (w : Workspace) :
    ((compileFrom f true seen cs).run.run w).1 =
      match failuresFrom f seen cs with
      | [] => .ok (compiledFrom f seen cs, [])
      | (name, e) :: _ => .error (.compile name e) := by
  induction cs generalizing seen w with
  | nil => rfl
  | cons c rest ih =>
      obtain ⟨w', hfirst⟩ := compileFrom_cons f seen c true rest w
      rw [hfirst, compiledFrom, failuresFrom]
      cases compileUnseen f seen c with
      | error e => rfl
      | ok compiled =>
          have hrest := ih (c.name :: seen) w'
          rcases hrun : (compileFrom f true (c.name :: seen) rest).run.run w' with ⟨result, w''⟩
          rw [hrun] at hrest
          simp only [run_bind, hrun]
          cases hfailures : failuresFrom f (c.name :: seen) rest <;> rw [hfailures] at hrest <;> cases hrest <;> rfl

/-- The compiler without a build stops at the first failure too. -/
theorem compileAllFrom_eq :
    compileAllFrom f seen cs =
      match failuresFrom f seen cs with
      | [] => .ok (compiledFrom f seen cs)
      | (_, e) :: _ => .error e := by
  induction cs generalizing seen with
  | nil => rfl
  | cons c rest ih =>
      rw [compileAllFrom, compiledFrom, failuresFrom]
      cases compileUnseen f seen c with
      | error e => rfl
      | ok compiled =>
          rw [ok_bind, ih]
          cases failuresFrom f (c.name :: seen) rest <;> rfl

/-! ## What fails -/

/-- The names before a place of a list of controllers, after those that are `seen`. -/
def namesBefore (seen : List String) (cs : List Controller) (i : Nat) : List String :=
  (cs.take i).map (·.name) ++ seen

/-- The failures are those of the controllers at some places, in order: of exactly the ones that repeat a name before
them or do not compile on their own, each with its name and its error. -/
def ListsFailures (f : AttributeFilter) (seen : List String) (cs : List Controller)
    (failures : List (String × CompileError)) : Prop :=
  ∃ places : List Nat, places.Pairwise (· < ·) ∧
    (∀ i, i ∈ places ↔
      ∃ c, cs[i]? = some c ∧ (c.name ∈ namesBefore seen cs i ∨ ∃ e, compileController f c = .error e)) ∧
    List.Forall₂
      (fun i failure => ∃ c, cs[i]? = some c ∧ failure.1 = c.name ∧ FailsWith f (namesBefore seen cs i) c failure.2)
      places failures

/-- A controller fails if its name was there before, or if it does not compile. -/
theorem exists_failsWith :
    (∃ e, FailsWith f seen c e) ↔ c.name ∈ seen ∨ ∃ e, compileController f c = .error e := by
  by_cases hseen : c.name ∈ seen
  · simp [FailsWith, hseen]
  · simp [FailsWith, hseen]

/-- Names are a set: it does not matter in which order they were seen. -/
theorem FailsWith.congr {seen' : List String} (hseen : ∀ name, name ∈ seen ↔ name ∈ seen') :
    FailsWith f seen c e ↔ FailsWith f seen' c e := by
  unfold FailsWith
  rw [hseen c.name]

/-- The names before a controller are those before it in the rest, and the first one. -/
theorem mem_namesBefore_succ {name : String} {i : Nat} :
    name ∈ namesBefore seen (c :: cs) (i + 1) ↔ name ∈ namesBefore (c.name :: seen) cs i := by
  simp only [namesBefore, List.take_succ_cons, List.map_cons, List.cons_append, List.mem_cons, List.mem_append]
  tauto

/-- The failures of the controllers after the first, at their places in the whole list. -/
theorem ListsFailures.shift {failures : List (String × CompileError)}
    (h : ListsFailures f (c.name :: seen) cs failures) :
    ∃ places : List Nat, (∀ i ∈ places, 0 < i) ∧ places.Pairwise (· < ·) ∧
      (∀ i, i + 1 ∈ places ↔ ∃ c', (c :: cs)[i + 1]? = some c' ∧
        (c'.name ∈ namesBefore seen (c :: cs) (i + 1) ∨ ∃ e, compileController f c' = .error e)) ∧
      List.Forall₂
        (fun i failure => ∃ c', (c :: cs)[i]? = some c' ∧ failure.1 = c'.name ∧
          FailsWith f (namesBefore seen (c :: cs) i) c' failure.2) places failures := by
  obtain ⟨places, hsorted, hplaces, hfailures⟩ := h
  refine ⟨places.map (· + 1), by simp, ?_, fun i => ?_, ?_⟩
  · exact List.pairwise_map.mpr (hsorted.imp fun h => Nat.add_lt_add_right h 1)
  · have hmem : i + 1 ∈ places.map (· + 1) ↔ i ∈ places := by simp
    simp only [hmem, hplaces, List.getElem?_cons_succ, mem_namesBefore_succ]
  · refine List.forall₂_map_left_iff.mpr (hfailures.imp fun i failure => ?_)
    rintro ⟨c', hc', hname, hfails⟩
    exact ⟨c', hc', hname, (FailsWith.congr fun name => mem_namesBefore_succ).mpr hfails⟩

/-- **The failures are listed in order**, one for each controller that fails. -/
theorem listsFailures_failuresFrom : ListsFailures f seen cs (failuresFrom f seen cs) := by
  induction cs generalizing seen with
  | nil => exact ⟨[], .nil, by simp, .nil⟩
  | cons c rest ih =>
      -- The failures of the rest stand one place further in the whole list.
      obtain ⟨places, hpositive, hsorted, hplaces, hfailures⟩ := (@ih (c.name :: seen)).shift
      have hfirst : namesBefore seen (c :: rest) 0 = seen := rfl
      have hfails : (∃ c', (c :: rest)[0]? = some c' ∧
          (c'.name ∈ namesBefore seen (c :: rest) 0 ∨ ∃ e, compileController f c' = .error e)) ↔
            ∃ e, FailsWith f seen c e := by
        rw [hfirst, exists_failsWith]
        simp
      rw [failuresFrom]
      cases hcompile : compileUnseen f seen c with
      | ok compiled =>
          refine ⟨places, hsorted, fun i => ?_, hfailures⟩
          cases i with
          | succ i => exact hplaces i
          | zero =>
              rw [hfails]
              refine iff_of_false (fun hzero => Nat.lt_irrefl 0 (hpositive 0 hzero)) ?_
              rintro ⟨e, he⟩
              rw [← compileUnseen_eq_error, hcompile] at he
              cases he
      | error e =>
          have he : FailsWith f seen c e := compileUnseen_eq_error.mp hcompile
          have hsorted' : (0 :: places).Pairwise (· < ·) := List.pairwise_cons.mpr ⟨hpositive, hsorted⟩
          refine ⟨0 :: places, hsorted', fun i => ?_, .cons ⟨c, rfl, rfl, he⟩ hfailures⟩
          cases i with
          | succ i => rw [← hplaces i, List.mem_cons, or_iff_right (Nat.succ_ne_zero i)]
          | zero =>
              rw [hfails]
              exact iff_of_true List.mem_cons_self ⟨e, he⟩

/-! ## Agreement -/

/-- The configuration, with or without a stop at the first failure. -/
def stoppingEarly (config : Config) (failFast : Bool) : Config :=
  { config with compiler := { config.compiler with failFast } }

/-- **The three ways agree.** Either all of them come to the units of the same controllers in the same order; or all
fail, those that stop early with the first of the failures that the other one collects. What is collected lists, in
order, exactly the controllers that repeat an earlier name or do not compile on their own. -/
theorem drivers_agree (config : Config) (cs : List Controller) (w w' : Workspace) :
    ∃ failures, ListsFailures (AttributeFilter.excluding config.compiler.excludedAttributes) [] cs failures ∧
      (failures = [] ∧ (∃ ccs,
          ((compile (stoppingEarly config true) cs).run.run w).1 = .ok ccs ∧
          ((compile (stoppingEarly config false) cs).run.run w').1 = .ok ccs ∧
          compileAll (AttributeFilter.excluding config.compiler.excludedAttributes) cs = .ok ccs) ∨
        ∃ name e rest, failures = (name, e) :: rest ∧
          ((compile (stoppingEarly config true) cs).run.run w).1 = .error (.compile name e) ∧
          ((compile (stoppingEarly config false) cs).run.run w').1 = .error (.failed failures) ∧
          compileAll (AttributeFilter.excluding config.compiler.excludedAttributes) cs = .error e) := by
  let f := AttributeFilter.excluding config.compiler.excludedAttributes
  -- Each of the three in terms of the failures in order.
  have hall : compileAll f cs = _ := compileAllFrom_eq
  have hfast := compileFrom_failFast f [] cs w
  have hcollect := compileFrom_collecting f [] cs w'
  rcases hrun : (compileFrom f true [] cs).run.run w with ⟨result, w₁⟩
  rcases hrun' : (compileFrom f false [] cs).run.run w' with ⟨result', w₂⟩
  rw [hrun] at hfast
  rw [hrun'] at hcollect
  cases hcollect
  have hcompile : (compile (stoppingEarly config true) cs).run.run w = _ := run_bind _ _ w
  have hcompile' : (compile (stoppingEarly config false) cs).run.run w' = _ := run_bind _ _ w'
  have hfirst : (compileFrom (.excluding (stoppingEarly config true).compiler.excludedAttributes)
      (stoppingEarly config true).compiler.failFast [] cs).run.run w = _ := hrun
  have hfirst' : (compileFrom (.excluding (stoppingEarly config false).compiler.excludedAttributes)
      (stoppingEarly config false).compiler.failFast [] cs).run.run w' = _ := hrun'
  rw [hfirst] at hcompile
  rw [hfirst'] at hcompile'
  refine ⟨failuresFrom f [] cs, listsFailures_failuresFrom, ?_⟩
  rw [hcompile, hcompile', hall]
  rcases hfailures : failuresFrom f [] cs with _ | ⟨⟨name, e⟩, rest⟩
  · rw [hfailures] at hfast
    cases hfast
    exact .inl ⟨rfl, compiledFrom f [] cs, rfl, rfl, rfl⟩
  · rw [hfailures] at hfast
    cases hfast
    exact .inr ⟨name, e, rest, rfl, rfl, rfl, rfl⟩

end Routecraft.Build
