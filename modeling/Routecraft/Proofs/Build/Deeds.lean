import Routecraft.Build.Run
import Routecraft.Proofs.Build.Manifests
import Routecraft.Proofs.Files.Folders

/-!
# What a build does to files

A build that writes its units is a list of deeds: a file is written for each unit, the files of stale entries are
removed, and the manifest is written. The deeds are done in order, up to the first that fails. All that a build leaves
behind can be said of this list, without the counts and reports that are made beside it.

* `Deed.on`, `carryOut`: the tree after a deed, and after several.
* `deeds`: what a build does.
* `foundIn`: the manifest that a build finds.
* `CarriesOut`: an action on a workspace does some deeds, and nothing else to its files.
* `Wrote`, `write_wrote`: all that writing the units of a build can come to.
-/

namespace Routecraft.Build

open Bytecode Compile Files

/-! ## Deeds -/

/-- What is done to a file of a folder. -/
inductive Deed where
  | write (file : String) (content : List UInt8)
  | remove (file : String)
  deriving DecidableEq, Repr

namespace Deed

def file : Deed → String
  | write file _ => file
  | remove file => file

/-- The file of a unit is written. -/
def writing (pair : ManifestEntry × EncodedUnit) : Deed := .write pair.1.file pair.2.bytes

/-- The tree after a deed, and whether it could be done. A file is written by way of a temporary one, which remains if
it cannot be moved; with `incremental`, a file that has the content already stays as it is. -/
def on (dir : String) (incremental : Bool) (t : FileTree) : Deed → Except FileError Unit × FileTree
  | write file content =>
    if incremental = true ∧ t.read (join dir file) = .ok content then (.ok (), t)
    else
      match t.write (join dir (temporaryName file)) content with
      | .error cause => (.error cause, t)
      | .ok t₁ =>
        match t₁.rename (join dir (temporaryName file)) (join dir file) with
        | .error cause => (.error cause, t₁)
        | .ok t₂ => (.ok (), t₂)
  | remove file =>
    match t.remove (join dir file) with
    | .ok t₁ => (.ok (), t₁)
    | .error .notFound => (.ok (), t)
    | .error cause => (.error cause, t)

end Deed

/-- Does deeds in order, up to the first that fails. -/
def carryOut (dir : String) (incremental : Bool) : List Deed → FileTree → Except FileError Unit × FileTree
  | [], t => (.ok (), t)
  | d :: ds, t =>
    match d.on dir incremental t with
    | (.ok (), t₁) => carryOut dir incremental ds t₁
    | (.error cause, t₁) => (.error cause, t₁)

/-- The entries whose files a build removes. -/
def staleEntries (o : Config.Output) (previous : Option Manifest) (m : Manifest) : List ManifestEntry :=
  match previous with
  | some previous => if o.pruneStale then m.stale previous else []
  | none => []

/-- **What a build does**: it writes a file for each unit, removes those of stale entries, and writes the manifest. -/
def deeds (o : Config.Output) (previous : Option Manifest) (m : Manifest) (ccs : List CompiledController) :
    List Deed :=
  (m.units.zip (ccs.flatMap CompiledController.units)).map Deed.writing ++
    ((staleEntries o previous m).map (fun e => .remove e.file) ++ [.write o.manifestName (Text.utf8 m.toText)])

/-! ## Actions that do deeds -/

/-- An action succeeds as the deeds do, or fails for the same cause. -/
inductive Agrees {α : Type} : Except BuildError α → Except FileError Unit → Prop where
  | ok (x : α) : Agrees (.ok x) (.ok ())
  | error (path : String) (cause : FileError) : Agrees (.error (.io path cause)) (.error cause)

/-- An action does some deeds, and nothing else to the files of a workspace. -/
def CarriesOut {α : Type} (dir : String) (incremental : Bool) (a : Action α) (ds : List Deed) : Prop :=
  ∀ w, ∃ result, carryOut dir incremental ds w.files = (result, (a.run.run w).2.files) ∧
    Agrees (a.run.run w).1 result

section

variable {α β : Type} {dir : String} {incremental : Bool} {ds es : List Deed} {a : Action α} {t t' : FileTree}

/-- What is done one after the other comes to what its second part makes of the first. -/
theorem carryOut_append_ok (h : carryOut dir incremental ds t = (.ok (), t')) :
    carryOut dir incremental (ds ++ es) t = carryOut dir incremental es t' := by
  induction ds generalizing t with
  | nil =>
      cases h
      rfl
  | cons d ds ih =>
      rw [List.cons_append, carryOut]
      rw [carryOut] at h
      split at h
      · exact ih h
      · cases h

/-- Nothing is done behind the first failure. -/
theorem carryOut_append_error {cause : FileError} (h : carryOut dir incremental ds t = (.error cause, t')) :
    carryOut dir incremental (ds ++ es) t = (.error cause, t') := by
  induction ds generalizing t with
  | nil => cases h
  | cons d ds ih =>
      rw [List.cons_append, carryOut]
      rw [carryOut] at h
      split at h
      · exact ih h
      · exact h

theorem carryOut_singleton (d : Deed) (t : FileTree) : carryOut dir incremental [d] t = d.on dir incremental t := by
  rw [carryOut]
  rcases d.on dir incremental t with ⟨cause | _, t₁⟩ <;> rfl

/-- A step and what comes after it, whether it succeeds or not. -/
theorem run_bind (a : Action α) (f : α → Action β) (w : Workspace) :
    (a >>= f).run.run w =
      match a.run.run w with
      | (.ok x, w₁) => (f x).run.run w₁
      | (.error e, w₁) => (.error e, w₁) := by
  show StateT.bind a (ExceptT.bindCont f) w = _
  rcases h : a.run.run w with ⟨e | x, w₁⟩
  · simp only [StateT.bind, show a w = _ from h, bind, ExceptT.bindCont]
    rfl
  · simp only [StateT.bind, show a w = _ from h, bind, ExceptT.bindCont]
    rfl

/-- Where nothing is done to files, the list of deeds is empty. -/
theorem carriesOut_pure (x : α) : CarriesOut dir incremental (pure x) [] := fun _ => ⟨.ok (), rfl, .ok x⟩

theorem carriesOut_count (f : Metrics → Metrics) : CarriesOut dir incremental (count f) [] := fun _ =>
  ⟨.ok (), rfl, .ok ()⟩

/-- Deeds of an action, and then those of the next one. -/
theorem CarriesOut.bind {f : α → Action β} (ha : CarriesOut dir incremental a ds)
    (hf : ∀ x, CarriesOut dir incremental (f x) es) : CarriesOut dir incremental (a >>= f) (ds ++ es) := by
  intro w
  obtain ⟨result, hds, hagrees⟩ := ha w
  rw [run_bind]
  rcases hrun : a.run.run w with ⟨r, w₁⟩
  rw [hrun] at hds hagrees
  cases hagrees with
  | ok x =>
      rw [carryOut_append_ok hds]
      exact hf x w₁
  | error path cause =>
      rw [carryOut_append_error hds]
      exact ⟨_, rfl, .error path cause⟩

/-- Deeds of an action that no others follow. -/
theorem CarriesOut.last {f : α → Action β} (ha : CarriesOut dir incremental a ds)
    (hf : ∀ x, CarriesOut dir incremental (f x) []) : CarriesOut dir incremental (a >>= f) ds := by
  have := ha.bind hf
  rwa [List.append_nil] at this

/-- Reading the workspace leaves it as it is. -/
theorem run_get (w : Workspace) : (get : Action Workspace).run.run w = (.ok w, w) := rfl

/-- An action on files leaves the counts alone, and its error names the path. -/
theorem onFiles_run (path : String) (f : FileTree → Except FileError FileTree) (w : Workspace) :
    (onFiles path f).run.run w =
      match f w.files with
      | .ok files => (.ok (), ⟨files, w.metrics⟩)
      | .error cause => (.error (.io path cause), w) := by
  unfold onFiles
  rw [run_bind, run_get]
  simp only
  cases f w.files <;> rfl

/-- Writing a file is a deed. -/
theorem carriesOut_writeFile (file : String) (content : List UInt8) :
    CarriesOut dir incremental (writeFile dir incremental file content) [.write file content] := by
  intro w
  unfold writeFile
  rw [run_bind, run_get, carryOut_singleton]
  simp only [Deed.on]
  -- A file may be left as it is only if it holds the content already.
  by_cases hunchanged : incremental = true ∧ w.files.read (join dir file) = .ok content
  · rw [if_pos hunchanged]
    obtain ⟨rfl, hread⟩ := hunchanged
    simp only [hread, beq_self_eq_true, Bool.and_true, if_true]
    exact ⟨_, rfl, .ok _⟩
  · have hchanged {old : Bool} (hold : old = true → w.files.read (join dir file) = .ok content) :
        (incremental && old) = false := by
      rw [Bool.and_eq_false_iff, ← Bool.not_eq_true, ← Bool.not_eq_true]
      by_contra hboth
      grind
    rw [if_neg hunchanged, hchanged (by split <;> simp_all), if_neg Bool.false_ne_true, run_bind, onFiles_run]
    cases w.files.write (join dir (temporaryName file)) content with
    | error cause => exact ⟨_, rfl, .error _ cause⟩
    | ok t₁ =>
        simp only
        rw [run_bind, onFiles_run]
        simp only
        cases t₁.rename (join dir (temporaryName file)) (join dir file) with
        | error cause => exact ⟨_, rfl, .error _ cause⟩
        | ok t₂ => exact ⟨_, rfl, .ok _⟩

/-- So is removing one. -/
theorem carriesOut_removeFile (file : String) :
    CarriesOut dir incremental (removeFile dir file) [.remove file] := by
  intro w
  unfold removeFile
  rw [run_bind, run_get]
  rw [carryOut_singleton]
  simp only [Deed.on]
  cases w.files.remove (join dir file) with
  | ok files => exact ⟨_, rfl, .ok true⟩
  | error cause =>
      cases cause with
      | notFound => exact ⟨_, rfl, .ok false⟩
      | alreadyThere | notFolder | isFolder | busy | nameTooLong | badName | notText =>
          exact ⟨_, rfl, .error (join dir file) _⟩

/-- The deeds of several actions are those of each, in order. -/
theorem carriesOut_mapM {f : α → Action β} {deed : α → Deed} {xs : List α}
    (h : ∀ x, CarriesOut dir incremental (f x) [deed x]) :
    CarriesOut dir incremental (xs.mapM f) (xs.map deed) := by
  induction xs with
  | nil => exact carriesOut_pure []
  | cons x xs ih =>
      rw [List.mapM_cons]
      exact (h x).bind fun y => ih.last fun ys => carriesOut_pure (y :: ys)

end

/-! ## Builds as deeds -/

/-- Writing a unit is one deed. -/
theorem carriesOut_writeUnit (o : Config.Output) (entry : ManifestEntry) (u : EncodedUnit) :
    CarriesOut o.dir o.incremental (writeUnit o entry u) [.write entry.file u.bytes] :=
  (carriesOut_writeFile entry.file u.bytes).bind fun outcome =>
    (carriesOut_count _).bind fun _ => carriesOut_pure outcome

/-- The units are written in the order of their entries. -/
theorem carriesOut_units (o : Config.Output) (pairs : List (ManifestEntry × EncodedUnit)) :
    CarriesOut o.dir o.incremental (pairs.mapM fun (e, u) => writeUnit o e u)
      (pairs.map Deed.writing) := by
  apply carriesOut_mapM
  rintro ⟨e, u⟩
  exact carriesOut_writeUnit o e u

/-- The stale files are removed one by one. -/
theorem carriesOut_prune (o : Config.Output) (entries : List ManifestEntry) :
    CarriesOut o.dir o.incremental (prune o entries) (entries.map fun e => .remove e.file) := by
  induction entries with
  | nil => exact carriesOut_pure []
  | cons e rest ih =>
      rw [prune]
      refine (carriesOut_removeFile e.file).bind fun removed => ?_
      split
      · exact (carriesOut_count _).bind fun _ => ih.last fun files => carriesOut_pure (e.file :: files)
      · exact ih

abbrev foundIn (o : Config.Output) (t : FileTree) : Option Manifest := Manifest.ofFile? t (join o.dir o.manifestName)

/-- All that writing the units of controllers can come to: the folder cannot be made, a unit's name is refused, or the
deeds are done, up to the first that fails. -/
inductive Wrote (o : Config.Output) (ccs : List CompiledController) (t : FileTree) :
    Except BuildError Report → FileTree → Prop where
  | unprepared {cause : FileError} {t₀ : FileTree} (hprepare : t.makeFolders o.dir = (.error cause, t₀)) :
      Wrote o ccs t (.error (.io o.dir cause)) t₀
  | refused {e : BuildError} {t₀ : FileTree} (hprepare : t.makeFolders o.dir = (.ok (), t₀))
      (hrefused : Manifest.ofCompiled ccs o.unitExtension = .error e) : Wrote o ccs t (.error e) t₀
  | done {m : Manifest} {t₀ t' : FileTree} {report : Report} (hprepare : t.makeFolders o.dir = (.ok (), t₀))
      (hm : Manifest.ofCompiled ccs o.unitExtension = .ok m)
      (hdeeds : carryOut o.dir o.incremental (deeds o (foundIn o t₀) m ccs) t₀ = (.ok (), t'))
      (hreport : report.manifest = m) : Wrote o ccs t (.ok report) t'
  | failed {m : Manifest} {t₀ t' : FileTree} {path : String} {cause : FileError}
      (hprepare : t.makeFolders o.dir = (.ok (), t₀)) (hm : Manifest.ofCompiled ccs o.unitExtension = .ok m)
      (hdeeds : carryOut o.dir o.incremental (deeds o (foundIn o t₀) m ccs) t₀ = (.error cause, t')) :
      Wrote o ccs t (.error (.io path cause)) t'

/-- Making the folder changes only files, and its error names the folder. -/
theorem prepare_run (dir : String) (w : Workspace) :
    (prepare dir).run.run w =
      match w.files.makeFolders dir with
      | (.ok (), files) => (.ok (), ⟨files, w.metrics⟩)
      | (.error cause, files) => (.error (.io dir cause), ⟨files, w.metrics⟩) := by
  unfold prepare
  rw [run_bind, run_get]
  simp only
  rcases w.files.makeFolders dir with ⟨cause | _, files⟩ <;> rfl

/-- Once the folder is there and the manifest made, what an action carries out is what the build has written. -/
theorem wrote_of_carriesOut {o : Config.Output} {ccs : List CompiledController} {t : FileTree} {m : Manifest}
    {w : Workspace} {a : Action Report} (hprepare : t.makeFolders o.dir = (.ok (), w.files))
    (hm : Manifest.ofCompiled ccs o.unitExtension = .ok m)
    (ha : CarriesOut o.dir o.incremental a (deeds o (foundIn o w.files) m ccs))
    (hreport : ∀ report w', a.run.run w = (.ok report, w') → report.manifest = m) :
    Wrote o ccs t (a.run.run w).1 (a.run.run w).2.files := by
  obtain ⟨result, hdeeds, hagrees⟩ := ha w
  rcases hrun : a.run.run w with ⟨r, w'⟩
  rw [hrun] at hdeeds hagrees
  cases hagrees with
  | ok report => exact .done hprepare hm hdeeds (hreport report w' hrun)
  | error path cause => exact .failed hprepare hm hdeeds

/-- **Writing the units of controllers** is one of these. -/
theorem write_wrote (o : Config.Output) (ccs : List CompiledController) (w : Workspace) :
    Wrote o ccs w.files ((write o ccs).run.run w).1 ((write o ccs).run.run w).2.files := by
  unfold write
  rw [run_bind, prepare_run]
  rcases hprepare : w.files.makeFolders o.dir with ⟨cause | _, t₀⟩
  · exact .unprepared hprepare
  · simp only
    rw [run_bind, run_get]
    simp only
    rw [run_bind]
    cases hm : Manifest.ofCompiled ccs o.unitExtension with
    | error e => exact .refused hprepare hm
    | ok m =>
        have hrun (w₁ : Workspace) : (orFail (.ok m) : Action Manifest).run.run w₁ = (.ok m, w₁) := rfl
        rw [hrun]
        -- From here on only files are changed: units, stale ones, then the manifest.
        refine wrote_of_carriesOut hprepare hm ?_ fun report w' hreport => ?_
        · unfold deeds staleEntries foundIn
          refine (carriesOut_units o _).bind fun outcomes => ?_
          simp only
          cases Manifest.ofFile? t₀ (join o.dir o.manifestName) with
          | none =>
              refine (carriesOut_pure []).bind fun pruned => ?_
              exact (carriesOut_writeFile _ _).last fun _ => carriesOut_pure _
          | some previous =>
              simp only
              split
              · refine (carriesOut_prune o _).bind fun pruned => ?_
                exact (carriesOut_writeFile _ _).last fun _ => carriesOut_pure _
              · refine (carriesOut_pure []).bind fun pruned => ?_
                exact (carriesOut_writeFile _ _).last fun _ => carriesOut_pure _
        · -- The report that comes last is the same in all cases.
          obtain ⟨outcomes, w₁, -, hreport⟩ := run_bind_eq_ok.mp hreport
          split at hreport
          · split at hreport
            all_goals
              obtain ⟨pruned, w₂, -, hreport⟩ := run_bind_eq_ok.mp hreport
              obtain ⟨outcome, w₃, -, hreport⟩ := run_bind_eq_ok.mp hreport
              cases hreport
              rfl
          · obtain ⟨pruned, w₂, -, hreport⟩ := run_bind_eq_ok.mp hreport
            obtain ⟨outcome, w₃, -, hreport⟩ := run_bind_eq_ok.mp hreport
            cases hreport
            rfl

end Routecraft.Build
