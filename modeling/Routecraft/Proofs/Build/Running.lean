import Routecraft.Proofs.Build.Deeds

/-!
# Whole builds

A build compiles, writes its units, and may write its counts to a file. Compiling leaves all files alone. What counts
are written can be told from a unit and from a manifest by the first byte.

* `Counts`, `counts_compile`: what compiling does to files.
* `Measured`, `writeMetrics_measured`: all that writing the counts can come to.
* `Ran`, `run_ran`: all that a build can come to.
* `Built`, `built_of_run`, `run_of_carryOut`: a build succeeds as its steps do.
-/

namespace Routecraft.Build

open Bytecode Compile Files

/-! ## Compiling -/

/-- An action that leaves all files alone, and whose result has nothing to do with the workspace. -/
def Counts {α : Type} (a : Action α) : Prop :=
  ∃ r, ∀ w, (a.run.run w).1 = r ∧ (a.run.run w).2.files = w.files

section

variable {α β : Type} {a : Action α}

theorem counts_pure (x : α) : Counts (pure x : Action α) := ⟨.ok x, fun _ => ⟨rfl, rfl⟩⟩

theorem counts_throw (e : BuildError) : Counts (throw e : Action α) := ⟨.error e, fun _ => ⟨rfl, rfl⟩⟩

theorem counts_count (f : Metrics → Metrics) : Counts (count f) := ⟨.ok (), fun _ => ⟨rfl, rfl⟩⟩

/-- Actions one after the other count, if each of them does. -/
theorem Counts.bind {f : α → Action β} (ha : Counts a) (hf : ∀ x, Counts (f x)) : Counts (a >>= f) := by
  obtain ⟨r, ha⟩ := ha
  cases r with
  | error e =>
      refine ⟨.error e, fun w => ?_⟩
      obtain ⟨hresult, hfiles⟩ := ha w
      rw [run_bind]
      split
      · simp_all
      · simp_all
  | ok x =>
      obtain ⟨r, hx⟩ := hf x
      refine ⟨r, fun w => ?_⟩
      obtain ⟨hresult, hfiles⟩ := ha w
      rw [run_bind]
      split
      · next y w₁ hrun =>
        rw [hrun] at hresult hfiles
        cases hresult
        obtain ⟨hresult', hfiles'⟩ := hx w₁
        exact ⟨hresult', hfiles'.trans hfiles⟩
      · simp_all

end

theorem counts_countResult (repeated : Bool) (result : Except CompileError CompiledController) :
    Counts (countResult repeated result) := by
  have hunits (us : List EncodedUnit) :
      Counts (us.forM fun u => count (·.recordUnit u.role.name u.bytes.length)) := by
    induction us with
    | nil => exact counts_pure ()
    | cons u us ih => exact (counts_count _).bind fun _ => ih
  unfold countResult
  cases result with
  | ok compiled =>
      simp only
      split
      · exact (counts_count _).bind fun _ => hunits _
      · exact hunits _
  | error e =>
      simp only
      split
      · exact (counts_count _).bind fun _ => counts_count _
      · exact counts_count _

/-- Compiling leaves files alone and only counts. -/
theorem counts_compileFrom (f : AttributeFilter) (failFast : Bool) (seen : List String) (cs : List Controller) :
    Counts (compileFrom f failFast seen cs) := by
  induction cs generalizing seen with
  | nil => exact counts_pure _
  | cons c cs ih =>
      unfold compileFrom
      refine (counts_countResult _ _).bind fun _ => ?_
      split
      · exact (ih _).bind fun _ => counts_pure _
      · split
        · exact counts_throw _
        · exact (ih _).bind fun _ => counts_pure _

/-- **Compiling leaves all files alone**, and what comes of it has nothing to do with them. -/
theorem counts_compile (config : Config) (cs : List Controller) : Counts (compile config cs) := by
  refine (counts_compileFrom _ _ _ _).bind fun result => ?_
  simp only
  split
  · exact counts_pure _
  · exact counts_throw _

/-! ## Writing counts -/

def metricsPath? (config : Config) : Measuring → Option String
  | .off => none
  | .plain | .described => config.metrics.outputFile

/-- Lines of which the first is a headline, if there are any. -/
def Headlined (lines : List String) : Prop := ∀ line ∈ lines.head?, ∃ cs, line.toList = '#' :: cs

theorem Headlined.append {lines lines' : List String} (h : Headlined lines) (h' : Headlined lines') :
    Headlined (lines ++ lines') := by
  cases lines with
  | nil => exact h'
  | cons line lines => exact h

/-- Lines of a metric have their heading in front, if headings are asked for. -/
theorem headlined_headed (described : Bool) (metric type : String) (lines : List String) :
    Headlined (Metrics.headed described metric type lines) := by
  unfold Metrics.headed
  split
  · simp [Headlined]
  · cases described <;> simp [Headlined]

theorem headlined_flatMap {α : Type} {f : α → List String} (h : ∀ x, Headlined (f x)) (xs : List α) :
    Headlined (xs.flatMap f) := by
  induction xs with
  | nil => simp [Headlined]
  | cons x xs ih => exact (h x).append ih

/-- The text of counts is empty or begins with a headline. -/
theorem head?_utf8_render (described : Bool) (m : Metrics) :
    ∀ b ∈ (Text.utf8 (m.render described)).head?, b = 0x23 := by
  obtain ⟨lines, hlines, hrender⟩ : ∃ lines, Headlined lines ∧
      m.render described = String.join (lines.map (· ++ "\n")) :=
    ⟨_, (headlined_flatMap (fun metric => headlined_headed described metric "counter" (m.linesOf metric)) _).append
      (headlined_headed described _ "summary" _), rfl⟩
  rw [hrender]
  cases lines with
  | nil => simp [String.join, Text.utf8]
  | cons line lines =>
      obtain ⟨cs, hcs⟩ := hlines line rfl
      have htext : (String.join ((line :: lines).map (· ++ "\n"))).toList =
          '#' :: (cs ++ '\n' :: (String.join (lines.map (· ++ "\n"))).toList) := by
        simp [hcs]
      intro b hb
      rw [utf8_of_toList htext] at hb
      cases hb
      rfl

/-- All that writing the counts can come to. -/
inductive Measured (config : Config) (measuring : Measuring) (t : FileTree) :
    Except BuildError Unit → FileTree → Prop where
  | nowhere (h : metricsPath? config measuring = none) : Measured config measuring t (.ok ()) t
  | written {path : String} {p : Place} {text : List UInt8} (h : metricsPath? config measuring = some path)
      (hp : t.locateNew path = .ok p) (htext : ∀ b ∈ text.head?, b = 0x23) :
      Measured config measuring t (.ok ()) (t.put p (.file text))
  | failed {path : String} {cause : FileError} (h : metricsPath? config measuring = some path)
      (hp : ∀ p, t.locateNew path ≠ .ok p) : Measured config measuring t (.error (.metrics path cause)) t

/-- Writing the counts comes to no more than is listed. -/
theorem writeMetrics_measured (config : Config) (measuring : Measuring) (w : Workspace) :
    Measured config measuring w.files ((writeMetrics config measuring).run.run w).1
      ((writeMetrics config measuring).run.run w).2.files := by
  unfold writeMetrics
  rw [run_bind, run_get]
  simp only
  cases measuring with
  | off => exact .nowhere rfl
  | plain | described =>
      cases hpath : config.metrics.outputFile with
      | none => exact .nowhere hpath
      | some path =>
          simp only [Measuring.text?]
          split
          · next files hwrite =>
            obtain ⟨p, hp, rfl⟩ := FileTree.write_eq_ok.mp hwrite
            exact .written hpath hp (head?_utf8_render _ _)
          · next cause hwrite =>
            refine .failed hpath fun p hp => ?_
            rw [FileTree.write_eq_ok.mpr ⟨p, hp, rfl⟩] at hwrite
            cases hwrite

section

variable {config : Config} {measuring : Measuring} {t t' : FileTree} {r : Except BuildError Unit} {path : String}
  {p : Place}

/-- Writing the counts changes no folder. -/
theorem Measured.sameFolders (h : Measured config measuring t r t') : FileTree.SameFolders t t' := by
  cases h with
  | nowhere _ => exact FileTree.SameFolders.refl t
  | written _ hp _ => exact FileTree.sameFolders_put (FileTree.find?_of_locateNew hp) _
  | failed _ _ => exact FileTree.SameFolders.refl t

/-- Only the file that counts are written to changes. -/
theorem Measured.find?_of_ne (h : Measured config measuring t r t')
    (hne : ∀ path ∈ metricsPath? config measuring, t.locateNew path ≠ .ok p) : t'.find? p = t.find? p := by
  cases h with
  | nowhere _ => rfl
  | written hpath hq _ =>
      rw [FileTree.find?_put (FileTree.find?_of_locateNew hq), if_neg]
      rintro rfl
      exact hne _ hpath hq
  | failed _ _ => rfl

/-- The counts have been written to where the path of their file leads. -/
theorem Measured.locateNew (h : Measured config measuring t (.ok ()) t')
    (hpath : path ∈ metricsPath? config measuring) : ∃ p, t.locateNew path = .ok p := by
  cases h with
  | nowhere hnowhere =>
      rw [hnowhere] at hpath
      cases hpath
  | @written path' q text hpath' hq _ =>
      rw [hpath'] at hpath
      cases hpath
      exact ⟨q, hq⟩

/-- What is in the file that counts are written to is neither a unit nor a manifest. -/
theorem Measured.find?_of_eq (h : Measured config measuring t (.ok ()) t')
    (hpath : path ∈ metricsPath? config measuring) (hp : t.locateNew path = .ok p) :
    ∃ text, t'.find? p = some (.file text) ∧ ∀ b ∈ text.head?, b = 0x23 := by
  cases h with
  | nowhere hnowhere =>
      rw [hnowhere] at hpath
      cases hpath
  | @written path' q text hpath' hq htext =>
      rw [hpath'] at hpath
      cases hpath
      rw [hq] at hp
      cases hp
      exact ⟨text, by rw [FileTree.find?_put (FileTree.find?_of_locateNew hq), if_pos rfl], htext⟩

end

/-! ## Building -/

/-- What comes of compiling. -/
def Compiles (config : Config) (cs : List Controller) (r : Except BuildError (List CompiledController)) : Prop :=
  ∀ w, ((compile config cs).run.run w).1 = r

/-- Controllers compile in one way only. -/
theorem Compiles.inj {config : Config} {cs : List Controller} {r r' : Except BuildError (List CompiledController)}
    (h : Compiles config cs r) (h' : Compiles config cs r') : r = r' := (h default).symm.trans (h' default)

/-- All that a build can come to. -/
inductive Ran (config : Config) (measuring : Measuring) (cs : List Controller) (t : FileTree) :
    Except BuildError Report → FileTree → Prop where
  | uncompiled {e : BuildError} (hcompile : Compiles config cs (.error e)) : Ran config measuring cs t (.error e) t
  | unwritten {ccs : List CompiledController} {e : BuildError} {t' : FileTree}
      (hcompile : Compiles config cs (.ok ccs)) (hwrite : Wrote config.output ccs t (.error e) t') :
      Ran config measuring cs t (.error e) t'
  | unmeasured {ccs : List CompiledController} {report : Report} {e : BuildError} {t₁ t' : FileTree}
      (hcompile : Compiles config cs (.ok ccs)) (hwrite : Wrote config.output ccs t (.ok report) t₁)
      (hmetrics : Measured config measuring t₁ (.error e) t') : Ran config measuring cs t (.error e) t'
  | built {ccs : List CompiledController} {report : Report} {t₁ t' : FileTree}
      (hcompile : Compiles config cs (.ok ccs)) (hwrite : Wrote config.output ccs t (.ok report) t₁)
      (hmetrics : Measured config measuring t₁ (.ok ()) t') : Ran config measuring cs t (.ok report) t'

/-- **A build** comes to one of these. -/
theorem run_ran (config : Config) (measuring : Measuring) (cs : List Controller) (w : Workspace) :
    Ran config measuring cs w.files ((run config measuring cs).run.run w).1
      ((run config measuring cs).run.run w).2.files := by
  obtain ⟨result, hcompile⟩ := counts_compile config cs
  have hcompiles : Compiles config cs result := fun w => (hcompile w).1
  obtain ⟨hresult, hfiles⟩ := hcompile w
  unfold run
  rw [run_bind]
  rcases hrun : (compile config cs).run.run w with ⟨e | ccs, w₁⟩
  · rw [hrun] at hresult hfiles
    cases hresult
    rw [hfiles]
    exact .uncompiled hcompiles
  · rw [hrun] at hresult hfiles
    cases hresult
    have hwrote := write_wrote config.output ccs w₁
    simp only at hfiles ⊢
    rw [hfiles] at hwrote
    rw [run_bind]
    rcases hwrite : (write config.output ccs).run.run w₁ with ⟨e | report, w₂⟩
    · rw [hwrite] at hwrote
      exact .unwritten hcompiles hwrote
    · rw [hwrite] at hwrote
      have hmeasured := writeMetrics_measured config measuring w₂
      simp only
      rw [run_bind]
      rcases hmetrics : (writeMetrics config measuring).run.run w₂ with ⟨e | _, w₃⟩
      · rw [hmetrics] at hmeasured
        exact .unmeasured hcompiles hwrote hmeasured
      · rw [hmetrics] at hmeasured
        exact .built hcompiles hwrote hmeasured

/-! ## Builds that succeed -/

/-- What a build that succeeds has done, with the tree after each step: it has compiled, made its folder, done its deeds
and written the counts. -/
structure Built (config : Config) (measuring : Measuring) (cs : List Controller) (ccs : List CompiledController)
    (m : Manifest) (t t₀ t₁ t' : FileTree) : Prop where
  compiles : Compiles config cs (.ok ccs)
  prepared : t.makeFolders config.output.dir = (.ok (), t₀)
  manifest : Manifest.ofCompiled ccs config.output.unitExtension = .ok m
  done : carryOut config.output.dir config.output.incremental
    (deeds config.output (foundIn config.output t₀) m ccs) t₀ = (.ok (), t₁)
  measured : Measured config measuring t₁ (.ok ()) t'

section

variable {config : Config} {measuring : Measuring} {cs : List Controller} {ccs : List CompiledController} {m : Manifest}
  {w w' : Workspace} {t₀ t₁ : FileTree} {report : Report}

/-- A build that succeeds has made its folder, its manifest and its deeds. -/
theorem built_of_run (h : (run config measuring cs).run.run w = (.ok report, w')) :
    ∃ ccs t₀ t₁, Built config measuring cs ccs report.manifest w.files t₀ t₁ w'.files := by
  have hran := run_ran config measuring cs w
  rw [h] at hran
  rcases hran with _ | _ | _ | ⟨hcompile, hwrite, hmetrics⟩
  rcases hwrite with _ | _ | ⟨hprepare, hm, hdeeds, rfl⟩
  exact ⟨_, _, _, hcompile, hprepare, hm, hdeeds, hmetrics⟩

/-- A build whose controllers do not compile leaves all files alone. -/
theorem run_of_uncompiled {e : BuildError} (hcompile : Compiles config cs (.error e)) :
    ((run config measuring cs).run.run w).1 = .error e ∧ ((run config measuring cs).run.run w).2.files = w.files := by
  have hran := run_ran config measuring cs w
  generalize ((run config measuring cs).run.run w).1 = result at hran ⊢
  generalize ((run config measuring cs).run.run w).2.files = files at hran ⊢
  cases hran with
  | uncompiled hcompile' =>
      cases hcompile.inj hcompile'
      exact ⟨rfl, rfl⟩
  | unwritten hcompile' _ => cases hcompile.inj hcompile'
  | unmeasured hcompile' _ _ => cases hcompile.inj hcompile'
  | built hcompile' _ _ => cases hcompile.inj hcompile'

/-- **A build succeeds** if all its steps do. -/
theorem run_of_carryOut (hcompile : Compiles config cs (.ok ccs))
    (hprepare : w.files.makeFolders config.output.dir = (.ok (), t₀))
    (hm : Manifest.ofCompiled ccs config.output.unitExtension = .ok m)
    (hdeeds : carryOut config.output.dir config.output.incremental
      (deeds config.output (foundIn config.output t₀) m ccs) t₀ = (.ok (), t₁))
    (hmetrics : ∀ path ∈ metricsPath? config measuring, ∃ p, t₁.locateNew path = .ok p) :
    ∃ report w', (run config measuring cs).run.run w = (.ok report, w') ∧ report.manifest = m ∧
      Built config measuring cs ccs m w.files t₀ t₁ w'.files := by
  have hran := run_ran config measuring cs w
  rcases hrun : (run config measuring cs).run.run w with ⟨e | report, w'⟩
  · -- No error fits what is assumed: each of them says of some step that it fails.
    exfalso
    rw [hrun] at hran
    simp only at hran
    generalize w'.files = files at hran
    cases hran with
    | uncompiled hcompile' => cases hcompile.inj hcompile'
    | unwritten hcompile' hwrite =>
        cases hcompile.inj hcompile'
        cases hwrite with
        | unprepared hprepare' =>
            rw [hprepare] at hprepare'
            cases hprepare'
        | refused _ hrefused =>
            rw [hm] at hrefused
            cases hrefused
        | failed hprepare' hm' hdeeds' =>
            rw [hprepare] at hprepare'
            cases hprepare'
            rw [hm] at hm'
            cases hm'
            rw [hdeeds] at hdeeds'
            cases hdeeds'
    | unmeasured hcompile' hwrite hmetrics' =>
        cases hcompile.inj hcompile'
        cases hwrite with
        | done hprepare' hm' hdeeds' _ =>
            rw [hprepare] at hprepare'
            cases hprepare'
            rw [hm] at hm'
            cases hm'
            rw [hdeeds] at hdeeds'
            cases hdeeds'
            cases hmetrics' with
            | failed hpath hfailed =>
                obtain ⟨p, hp⟩ := hmetrics _ hpath
                exact hfailed p hp
  · -- What was built is what was assumed, since all steps come to one thing only.
    obtain ⟨ccs', t₀', t₁', hbuilt⟩ := built_of_run hrun
    cases hcompile.inj hbuilt.compiles
    have hprepare' := hbuilt.prepared
    rw [hprepare] at hprepare'
    cases hprepare'
    have hm' := hbuilt.manifest
    rw [hm] at hm'
    cases hm'
    have hdeeds' := hbuilt.done
    rw [hdeeds] at hdeeds'
    cases hdeeds'
    exact ⟨report, w', rfl, rfl, hbuilt⟩

/-- The manifest of a build lists its units. -/
theorem Built.lists {t t' : FileTree} (h : Built config measuring cs ccs m t t₀ t₁ t') :
    Lists config.output.unitExtension ccs m := by
  rcases hcompile : (compile config cs).run.run default with ⟨r, w'⟩
  have hresult := h.compiles default
  rw [hcompile] at hresult
  cases hresult
  exact lists_of_compile hcompile h.manifest

end

end Routecraft.Build
