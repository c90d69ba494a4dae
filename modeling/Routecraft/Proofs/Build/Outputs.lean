import Mathlib.Data.List.Zip
import Routecraft.Proofs.Build.Places

/-!
# What a build leaves behind

After a build, the file of a unit holds the bytes of the unit unless something else has been done to it since: the
manifest may have been written in its place, an entry of an earlier manifest may have led there and had it removed, and
the counts may have been written there. Nothing else can happen to it, for no two units have one file and no temporary
file is the file of a unit.

* `mem_deeds`, `plainWrites_deeds`: the deeds of a build.
* `find?_manifest`, `find?_unit`, `find?_unit_of_stale`: what the deeds leave at the places of the files.
-/

namespace Routecraft.Build

open Bytecode Compile Files

/-! ## The deeds of a build -/

section

variable {o : Config.Output} {previous : Option Manifest} {m : Manifest} {ccs : List CompiledController}
  {t t' : FileTree} {e : ManifestEntry} {u : EncodedUnit} {d : Deed}

/-- What is to be done to files: a unit written, a stale file removed, or the manifest written. -/
theorem mem_deeds :
    d ∈ deeds o previous m ccs ↔
      (∃ e u, (e, u) ∈ m.units.zip (ccs.flatMap CompiledController.units) ∧ d = .write e.file u.bytes) ∨
        (∃ e ∈ staleEntries o previous m, d = .remove e.file) ∨ d = .write o.manifestName (Text.utf8 m.toText) := by
  simp only [deeds, Deed.writing, List.mem_append, List.mem_map, Prod.exists, List.mem_singleton]
  grind

/-- The files that a build writes. -/
theorem write_mem_deeds {file : String} {content : List UInt8} (h : .write file content ∈ deeds o previous m ccs) :
    (∃ e ∈ m.units, file = e.file) ∨ file = o.manifestName := by
  rcases mem_deeds.mp h with ⟨e, u, hmem, heq⟩ | ⟨e, -, heq⟩ | heq
  · cases heq
    exact .inl ⟨e, (List.of_mem_zip hmem).1, rfl⟩
  · cases heq
  · cases heq
    exact .inr rfl

/-- A build writes files without slashes in their names. -/
theorem plainWrites_deeds (hm : Lists o.unitExtension ccs m) (hextension : '/' ∉ o.unitExtension.toList)
    (hmanifest : '/' ∉ o.manifestName.toList) : PlainWrites (deeds o previous m ccs) := by
  intro file content hmem
  rcases write_mem_deeds hmem with ⟨e, he, rfl⟩ | rfl
  · obtain ⟨cu, -, hdescribes⟩ := hm.describes he
    exact hdescribes.slash_notMem hextension
  · exact hmanifest

/-- A build of names without slashes writes plain names only. -/
theorem Built.plainWrites {config : Config} {measuring : Measuring} {cs : List Controller} {t₀ t₁ : FileTree}
    (h : Built config measuring cs ccs m t t₀ t₁ t') (hextension : '/' ∉ config.output.unitExtension.toList)
    (hmanifest : '/' ∉ config.output.manifestName.toList) :
    PlainWrites (deeds config.output (foundIn config.output t₀) m ccs) :=
  plainWrites_deeds h.lists hextension hmanifest

/-! ## What is at a place afterwards -/

/-- **The manifest** is in its file. -/
theorem find?_manifest (hplain : PlainWrites (deeds o previous m ccs))
    (h : carryOut o.dir o.incremental (deeds o previous m ccs) t = (.ok (), t')) :
    t'.find? (placeIn t o.dir o.manifestName) = some (.file (Text.utf8 m.toText)) := by
  have hlast : deeds o previous m ccs =
      ((m.units.zip (ccs.flatMap CompiledController.units)).map Deed.writing ++
        (staleEntries o previous m).map (fun e => .remove e.file)) ++
      .write o.manifestName (Text.utf8 m.toText) :: [] := by
    rw [deeds, List.append_assoc]
  rw [hlast] at hplain h
  exact find?_carryOut_write hplain h (by simp)

/-- Writing another unit or the manifest does not touch the file of a unit. -/
theorem not_touches_write {file : String} {content : List UInt8} (hm : Lists o.unitExtension ccs m) (he : e ∈ m.units)
    (hne : e.file ≠ file) : ¬ Touches t o.dir (.write file content) (placeIn t o.dir e.file) := by
  obtain ⟨cu, -, hdescribes⟩ := hm.describes he
  simp only [Touches, placeIn_inj, not_or]
  exact ⟨hne, hdescribes.ne_temporaryName file⟩

/-- **The bytes of a unit** are in its file, unless the manifest is written there or a stale entry leads there. -/
theorem find?_unit (hm : Lists o.unitExtension ccs m) (hplain : PlainWrites (deeds o previous m ccs))
    (h : carryOut o.dir o.incremental (deeds o previous m ccs) t = (.ok (), t'))
    (heu : (e, u) ∈ m.units.zip (ccs.flatMap CompiledController.units)) (hmanifest : e.file ≠ o.manifestName)
    (hstale : ∀ s ∈ staleEntries o previous m, t.locateNew (join o.dir s.file) ≠ .ok (placeIn t o.dir e.file)) :
    t'.find? (placeIn t o.dir e.file) = some (.file u.bytes) := by
  have he := (List.of_mem_zip heu).1
  obtain ⟨before, after, hzip⟩ := List.append_of_mem heu
  have hothers : ∀ e' u', (e', u') ∈ after → e.file ≠ e'.file := by
    intro e' u' hmem heq
    have hnodup : ((m.units.zip (ccs.flatMap CompiledController.units)).map (·.1.file)).Nodup := by
      have hentries := List.map_fst_zip (Nat.le_of_eq hm.length_units)
      have hfiles := congrArg (List.map ManifestEntry.file) hentries
      rw [List.map_map] at hfiles
      exact hfiles ▸ hm.files_nodup
    rw [hzip, List.map_append, List.map_cons, List.nodup_append, List.nodup_cons] at hnodup
    exact hnodup.2.1.1 (heq ▸ List.mem_map_of_mem hmem)
  -- The deeds around the one that writes the unit do not touch its file.
  have hdeeds : deeds o previous m ccs =
      before.map Deed.writing ++ .write e.file u.bytes ::
        (after.map Deed.writing ++
          ((staleEntries o previous m).map (fun e => .remove e.file) ++
            [.write o.manifestName (Text.utf8 m.toText)])) := by
    rw [deeds, hzip, List.map_append, List.map_cons, List.append_assoc]
    rfl
  rw [hdeeds] at hplain h
  refine find?_carryOut_write hplain h fun d hd => ?_
  simp only [Deed.writing, List.mem_append, List.mem_map, List.mem_singleton, Prod.exists] at hd
  rcases hd with ⟨e', u', hmem, rfl⟩ | ⟨s, hs, rfl⟩ | rfl
  · exact not_touches_write hm he (hothers e' u' hmem)
  · exact hstale s hs
  · exact not_touches_write hm he hmanifest

/-- There is nothing in the file of a unit if a stale entry leads there, unless the manifest is written there. -/
theorem find?_unit_of_stale {s : ManifestEntry} (hm : Lists o.unitExtension ccs m)
    (hplain : PlainWrites (deeds o previous m ccs))
    (h : carryOut o.dir o.incremental (deeds o previous m ccs) t = (.ok (), t')) (he : e ∈ m.units)
    (hmanifest : e.file ≠ o.manifestName) (hs : s ∈ staleEntries o previous m)
    (hleads : t.locateNew (join o.dir s.file) = .ok (placeIn t o.dir e.file)) :
    t'.find? (placeIn t o.dir e.file) = none := by
  unfold deeds at hplain h
  obtain ⟨t₁, hunits, h⟩ := carryOut_append_eq_ok.mp h
  obtain ⟨t₂, hremoved, hlast⟩ := carryOut_append_eq_ok.mp h
  have hsame₁ := carryOut_sameFolders (hplain.of_subset (by simp)) hunits
  have hsame₂ := carryOut_sameFolders (hplain.of_subset (by simp)) hremoved
  have hnone : t₂.find? (placeIn t o.dir e.file) = none := by
    refine find?_carryOut_remove (hplain.of_subset (by simp)) hremoved (List.mem_map_of_mem hs)
      (hsame₁.locateNew hleads) fun file content hmem => ?_
    obtain ⟨s', -, hfalse⟩ := List.mem_map.mp hmem
    cases hfalse
  rw [← hnone]
  refine find?_carryOut_of_untouched (hplain.of_subset (by simp)) hlast fun d hd => ?_
  rw [List.mem_singleton.mp hd, touches_of_sameFolders (hsame₁.trans hsame₂)]
  exact not_touches_write hm he hmanifest

end

/-! ## What a build leaves -/

/-- The manifest that a build finds in its folder. -/
def previousIn (o : Config.Output) (t : FileTree) : Option Manifest :=
  foundIn o (t.makeFolders o.dir).2

/-- A path leads to a file of a folder. -/
def Leads (t : FileTree) (path dir file : String) : Prop := t.locateNew path = .ok (placeIn t dir file)

section

variable {config : Config} {measuring : Measuring} {cs : List Controller} {t t' : FileTree} {path dir file : String}
  {content : List UInt8}

/-- Ways depend on the folders alone. -/
theorem leads_of_sameFolders (h : FileTree.SameFolders t t') : Leads t' path dir file ↔ Leads t path dir file := by
  unfold Leads
  rw [placeIn_of_sameFolders h]
  exact ⟨h.symm.locateNew, h.locateNew⟩

/-- What is read by a path is what is at the place that it leads to. -/
theorem read_of_leads (h : Leads t path dir file) :
    t.read path = .ok content ↔ t.find? (placeIn t dir file) = some (.file content) := by
  rw [FileTree.read_eq_ok]
  constructor
  · rintro ⟨p, hp, hfind⟩
    rw [show p = placeIn t dir file by rw [h] at hp; cases hp; rfl] at hfind
    exact hfind
  · exact fun hfind => ⟨_, h, hfind⟩

/-- The names in a valid configuration are names of files. -/
theorem isFileName_of_validate (h : config.validate = .ok ()) :
    Config.isFileName config.output.manifestName = true ∧ Config.isFileName config.output.unitExtension = true := by
  unfold Config.validate at h
  split at h
  · cases h
  · next hfault =>
    unfold Config.fault? at hfault
    simp only at hfault
    split_ifs at hfault with _ _ hmanifest hextension
    simp only [Bool.or_eq_true, not_or, Bool.not_eq_true', Bool.not_eq_false] at hmanifest hextension
    exact ⟨hmanifest, hextension.2⟩

end

section

variable {config : Config} {measuring : Measuring} {previous : Option Manifest} {m : Manifest}
  {ccs : List CompiledController} {t t₁ t' : FileTree} {e : ManifestEntry} {u : EncodedUnit}

/-- A unit with its controller and its entry, the other way round. -/
theorem mem_zip_units {cu : CompiledController × EncodedUnit} (h : (cu, e) ∈ (unitsOf ccs).zip m.units) :
    (e, cu.2) ∈ m.units.zip (ccs.flatMap CompiledController.units) := by
  rw [← map_snd_unitsOf, List.zip_map_right, ← List.zip_swap]
  simp only [List.map_map, List.mem_map]
  exact ⟨(cu, e), h, rfl⟩

/-- Whether the bytes of a unit are in its file in the end. -/
theorem read_unit_iff (hm : Lists config.output.unitExtension ccs m)
    (hplain : PlainWrites (deeds config.output previous m ccs))
    (h : carryOut config.output.dir config.output.incremental
      (deeds config.output previous m ccs) t = (.ok (), t₁))
    (hmetrics : Measured config measuring t₁ (.ok ()) t')
    (heu : (e, u) ∈ m.units.zip (ccs.flatMap CompiledController.units)) :
    t'.read (join config.output.dir e.file) = .ok u.bytes ↔
      e.file ≠ config.output.manifestName ∧
      (∀ s ∈ staleEntries config.output previous m,
        ¬ Leads t' (join config.output.dir s.file) config.output.dir e.file) ∧
      ∀ path ∈ metricsPath? config measuring, ¬ Leads t' path config.output.dir e.file := by
  obtain ⟨he, hu⟩ := List.of_mem_zip heu
  have hhead := hm.head?_bytes hu
  have hsame₁ := carryOut_sameFolders hplain h
  have hsame' := hmetrics.sameFolders
  have hplace := placeIn_of_sameFolders hsame₁ config.output.dir e.file
  have hleads : Leads t' (join config.output.dir e.file) config.output.dir e.file :=
    (leads_of_sameFolders (hsame₁.trans hsame')).mpr
      (locateNew_of_carryOut hplain h (mem_deeds.mpr (.inl ⟨e, u, heu, rfl⟩)))
  rw [read_of_leads hleads, placeIn_of_sameFolders hsame', hplace]
  constructor
  · intro hfind
    -- Metrics begin with another character than a unit, so they are not in its place.
    have hmeasured : ∀ path ∈ metricsPath? config measuring, ¬ Leads t' path config.output.dir e.file := by
      intro path hpath hmetricsLeads
      have hp := (leads_of_sameFolders hsame').mp hmetricsLeads
      obtain ⟨text, htext, hfirst⟩ := hmetrics.find?_of_eq hpath hp
      rw [hplace, hfind] at htext
      cases htext
      simpa using hfirst _ hhead
    have hbefore : t₁.find? (placeIn t config.output.dir e.file) = some (.file u.bytes) := by
      rw [← hfind, ← hplace]
      exact (hmetrics.find?_of_ne fun path hpath hp =>
        hmeasured path hpath ((leads_of_sameFolders hsame').mpr hp)).symm
    -- The same goes for the manifest.
    have hmanifest : e.file ≠ config.output.manifestName := by
      intro heq
      have htext := find?_manifest hplain h
      rw [← heq, hbefore] at htext
      have hfirst := Manifest.head?_utf8_toText m
      rw [← Entry.file.inj (Option.some.inj htext), hhead] at hfirst
      simp at hfirst
    refine ⟨hmanifest, fun s hs hstale => ?_, hmeasured⟩
    have hnone := find?_unit_of_stale hm hplain h he hmanifest hs
      ((leads_of_sameFolders (hsame₁.trans hsame')).mp hstale)
    rw [hbefore] at hnone
    cases hnone
  · rintro ⟨hmanifest, hstale, hmeasured⟩
    rw [← hplace, hmetrics.find?_of_ne fun path hpath hp =>
      hmeasured path hpath ((leads_of_sameFolders hsame').mpr hp), hplace]
    exact find?_unit hm hplain h heu hmanifest fun s hs hleads =>
      hstale s hs ((leads_of_sameFolders (hsame₁.trans hsame')).mpr hleads)

/-- Whether the manifest is in its file in the end. -/
theorem read_manifest_iff
    (hplain : PlainWrites (deeds config.output previous m ccs))
    (h : carryOut config.output.dir config.output.incremental
      (deeds config.output previous m ccs) t = (.ok (), t₁))
    (hmetrics : Measured config measuring t₁ (.ok ()) t') :
    t'.read (join config.output.dir config.output.manifestName) = .ok (Text.utf8 m.toText) ↔
      ∀ path ∈ metricsPath? config measuring, ¬ Leads t' path config.output.dir config.output.manifestName := by
  have hsame₁ := carryOut_sameFolders hplain h
  have hsame' := hmetrics.sameFolders
  have hplace := placeIn_of_sameFolders hsame₁ config.output.dir config.output.manifestName
  have hleads : Leads t' (join config.output.dir config.output.manifestName) config.output.dir
      config.output.manifestName :=
    (leads_of_sameFolders (hsame₁.trans hsame')).mpr
      (locateNew_of_carryOut hplain h (mem_deeds.mpr (.inr (.inr rfl))))
  rw [read_of_leads hleads, placeIn_of_sameFolders hsame', hplace]
  constructor
  · intro hfind path hpath hmetricsLeads
    have hp := (leads_of_sameFolders hsame').mp hmetricsLeads
    obtain ⟨text, htext, hfirst⟩ := hmetrics.find?_of_eq hpath hp
    rw [hplace, hfind] at htext
    cases htext
    simpa using hfirst _ (Manifest.head?_utf8_toText m)
  · intro hmeasured
    rw [← hplace, hmetrics.find?_of_ne fun path hpath hp =>
      hmeasured path hpath ((leads_of_sameFolders hsame').mpr hp), hplace]
    exact find?_manifest hplain h

end

/-- **What a build leaves behind.** Whenever a build with a valid configuration succeeds, its manifest has an entry for
each unit, in the order of the units. The file of an entry holds the bytes of the unit exactly if the manifest has
another name, no entry of an earlier manifest that is no longer listed leads to the file, and the counts are not written
there. The manifest is in its file exactly if the counts are not written there. -/
theorem outputs_held_iff {config : Config} {measuring : Measuring} {cs : List Controller} {w w' : Workspace}
    {report : Report} (hvalid : config.validate = .ok ())
    (hrun : (run config measuring cs).run.run w = (.ok report, w')) :
    ∃ ccs, ((compile config cs).run.run w).1 = .ok ccs ∧
      List.Forall₂ (fun cu e => Describes config.output.unitExtension cu.1 cu.2 e ∧
        (w'.files.read (join config.output.dir e.file) = .ok cu.2.bytes ↔
          e.file ≠ config.output.manifestName ∧
          (∀ s ∈ staleEntries config.output (previousIn config.output w.files) report.manifest,
            ¬ Leads w'.files (join config.output.dir s.file) config.output.dir e.file) ∧
          ∀ path ∈ metricsPath? config measuring, ¬ Leads w'.files path config.output.dir e.file))
        (unitsOf ccs) report.manifest.units ∧
      (w'.files.read (join config.output.dir config.output.manifestName) = .ok (Text.utf8 report.manifest.toText) ↔
        ∀ path ∈ metricsPath? config measuring,
          ¬ Leads w'.files path config.output.dir config.output.manifestName) := by
  obtain ⟨hmanifest, hextension⟩ := isFileName_of_validate hvalid
  obtain ⟨ccs, t₀, t₁, hbuilt⟩ := built_of_run hrun
  have hlists := hbuilt.lists
  have hplain := hbuilt.plainWrites (isFileName_iff.mp hextension).1 (isFileName_iff.mp hmanifest).1
  have hprevious : previousIn config.output w.files = foundIn config.output t₀ := by
    rw [previousIn, hbuilt.prepared]
  refine ⟨ccs, hbuilt.compiles w, ?_, read_manifest_iff hplain hbuilt.done hbuilt.measured⟩
  rw [hprevious, List.forall₂_iff_zip]
  refine ⟨hlists.entries.length_eq, fun {cu e} hmem => ⟨(List.forall₂_iff_zip.mp hlists.entries).2 hmem, ?_⟩⟩
  exact read_unit_iff hlists hplain hbuilt.done hbuilt.measured (mem_zip_units hmem)

def bareLibrary : Controller := ⟨"app.Library", "/", []⟩

/-- The first build of a controller leaves all its units and the manifest. -/
theorem outputs_held_iff_library :
    Config.default.validate = .ok () ∧
    ∃ report w' ccs, (run .default .off [bareLibrary]).run.run default = (.ok report, w') ∧
      ((compile .default [bareLibrary]).run.run default).1 = .ok ccs ∧
      List.Forall₂ (fun cu e => w'.files.read (join Config.default.output.dir e.file) = .ok cu.2.bytes)
        (unitsOf ccs) report.manifest.units ∧
      w'.files.read (join Config.default.output.dir Config.default.output.manifestName) =
        .ok (Text.utf8 report.manifest.toText) := by
  have hvalid : Config.default.validate = .ok () := by decide
  have hfirst : (previousIn Config.default.output (default : Workspace).files).isNone = true := by decide +kernel
  have hok : (((run .default .off [bareLibrary]).run.run default).1.toOption.any fun report =>
      report.manifest.units.all (·.file != Config.default.output.manifestName)) = true := by decide +kernel
  refine ⟨hvalid, ?_⟩
  rcases hrun : (run .default .off [bareLibrary]).run.run default with ⟨e | report, w'⟩
  · rw [hrun] at hok
    cases hok
  · rw [hrun] at hok
    obtain ⟨ccs, hcompile, hunits, hmanifest⟩ := outputs_held_iff hvalid hrun
    refine ⟨report, w', ccs, rfl, hcompile, ?_, hmanifest.mpr fun path hpath => by cases hpath⟩
    rw [List.forall₂_iff_zip] at hunits ⊢
    refine ⟨hunits.1, fun {cu e} hmem => (hunits.2 hmem).2.mpr ⟨?_, fun s hs => ?_, fun path hpath => by cases hpath⟩⟩
    · have hother := List.all_eq_true.mp hok e (List.of_mem_zip hmem).2
      simpa using hother
    · rw [Option.isNone_iff_eq_none.mp hfirst] at hs
      cases hs

/-- A valid configuration whose manifest has the name of a unit's file. -/
def overwriting : Config :=
  { Config.default with output :=
    { Config.Output.default with manifestName := "app.Library$Routes.dunit", incremental := false } }

/-- **A unit can be overwritten**: with this configuration, the build of a controller without endpoints succeeds, and
the file of its registration holds the manifest and not the bytes of the unit. -/
theorem registration_overwritten :
    overwriting.validate = .ok () ∧
    ∃ report w' ccs, (run overwriting .off [bareLibrary]).run.run default = (.ok report, w') ∧
      ((compile overwriting [bareLibrary]).run.run default).1 = .ok ccs ∧
      ∃ cu e, (cu, e) ∈ (unitsOf ccs).zip report.manifest.units ∧
        Describes overwriting.output.unitExtension cu.1 cu.2 e ∧
        w'.files.read (join overwriting.output.dir e.file) = .ok (Text.utf8 report.manifest.toText) ∧
        w'.files.read (join overwriting.output.dir e.file) ≠ .ok cu.2.bytes := by
  have hvalid : overwriting.validate = .ok () := by decide
  have hok : (((run overwriting .off [bareLibrary]).run.run default).1.toOption.any fun report =>
      report.manifest.units.any (·.file == overwriting.output.manifestName)) = true := by decide +kernel
  refine ⟨hvalid, ?_⟩
  rcases hrun : (run overwriting .off [bareLibrary]).run.run default with ⟨e | report, w'⟩
  · rw [hrun] at hok
    cases hok
  · rw [hrun] at hok
    obtain ⟨e, he, hfile⟩ := List.any_eq_true.mp hok
    have hname : e.file = overwriting.output.manifestName := by simpa using hfile
    obtain ⟨hmanifest, hextension⟩ := isFileName_of_validate hvalid
    obtain ⟨ccs, t₀, t₁, hbuilt⟩ := built_of_run hrun
    have hlists := hbuilt.lists
    have hplain := hbuilt.plainWrites (isFileName_iff.mp hextension).1 (isFileName_iff.mp hmanifest).1
    obtain ⟨⟨cu, e'⟩, hmem, rfl⟩ : ∃ pair ∈ (unitsOf ccs).zip report.manifest.units, pair.2 = e := by
      rw [← List.mem_map, List.map_snd_zip (Nat.le_of_eq hlists.entries.length_eq.symm)]
      exact he
    refine ⟨report, w', ccs, rfl, hbuilt.compiles default, cu, e', hmem, ?_, ?_, ?_⟩
    · exact (List.forall₂_iff_zip.mp hlists.entries).2 hmem
    · rw [hname]
      exact (read_manifest_iff hplain hbuilt.done hbuilt.measured).mpr fun path hpath => by cases hpath
    · intro hread
      exact ((read_unit_iff hlists hplain hbuilt.done hbuilt.measured (mem_zip_units hmem)).mp hread).1 hname

end Routecraft.Build
