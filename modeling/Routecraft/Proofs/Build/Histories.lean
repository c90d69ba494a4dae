import Routecraft.Proofs.Build.Outputs

/-!
# Builds one after the other

Builds that write into one folder, and remove there what is stale, leave in it what the last of them that succeeded
would have left there alone. What carries this over from one build to the next is that besides the files which the
folder held at first, it holds only files that its manifest lists.

* `Vacant`: the names of files that the folder did not hold at first.
* `Listing`: a folder and what its manifest lists.
* `Holds`: what a build leaves in a folder.
* `BuildsOn`, with `BuildsOn.holds` and `BuildsOn.next`: one build, what it leaves, and the listing for the next one.
* `Stage`, with `Stage.run` and `Stage.runAll`: what calls preserve, whether they succeed or are refused.
-/

namespace Routecraft.Build

open Bytecode Compile Files

/-! ## What a folder holds -/

/-- No file is where a file or its temporary file is to be. -/
structure Vacant (t : FileTree) (dir file : String) : Prop where
  target : ∀ content, t.find? (placeIn t dir file) ≠ some (.file content)
  temporary : ∀ content, t.find? (placeIn t dir (temporaryName file)) ≠ some (.file content)

instance (found : Option Entry) : Decidable (∀ content, found ≠ some (.file content)) :=
  match found with
  | none => isTrue fun _ heq => nomatch heq
  | some .folder => isTrue fun _ heq => nomatch heq
  | some (.file content) => isFalse fun h => h content rfl

instance (t : FileTree) (dir file : String) : Decidable (Vacant t dir file) :=
  decidable_of_iff ((∀ content, t.find? (placeIn t dir file) ≠ some (.file content)) ∧
      ∀ content, t.find? (placeIn t dir (temporaryName file)) ≠ some (.file content))
    ⟨fun h => ⟨h.1, h.2⟩, fun h => ⟨h.target, h.temporary⟩⟩

/-- A folder and the entries that its manifest lists: besides what the folder held at first, it holds the files of these
entries and the manifest only. -/
structure Listing (dir manifestName : String) (entries : List ManifestEntry) (t₀ t : FileTree) : Prop where
  folders : FileTree.SameFolders t₀ t
  read : ((Manifest.ofFile? t (join dir manifestName)).map Manifest.units).getD [] = entries
  plain : ∀ e ∈ entries, '/' ∉ e.file.toList
  vacant : ∀ e ∈ entries, Vacant t₀ dir e.file
  takes : ∀ e ∈ entries, Takes t₀ dir e.file
  manifest : t.find? (placeIn t₀ dir manifestName) = t₀.find? (placeIn t₀ dir manifestName) ∨ Takes t₀ dir manifestName
  others : ∀ p, t₀.placeOf dir <+: p → p ≠ placeIn t₀ dir manifestName → (∀ e ∈ entries, p ≠ placeIn t₀ dir e.file) →
    t.find? p = t₀.find? p

/-- What a build leaves in a folder: its manifest, its units, and whatever else the folder held at first. -/
structure Holds (dir manifestName : String) (m : Manifest) (units : List EncodedUnit) (t₀ t : FileTree) : Prop where
  manifest : t.find? (placeIn t₀ dir manifestName) = some (.file (Text.utf8 m.toText))
  units : ∀ e u, (e, u) ∈ m.units.zip units → e.file ≠ manifestName →
    t.find? (placeIn t₀ dir e.file) = some (.file u.bytes)
  others : ∀ p, t₀.placeOf dir <+: p → p ≠ placeIn t₀ dir manifestName → (∀ e ∈ m.units, p ≠ placeIn t₀ dir e.file) →
    t.find? p = t₀.find? p

section

variable {dir manifestName : String} {entries : List ManifestEntry} {m : Manifest} {units : List EncodedUnit}
  {t₀ t t' : FileTree} {file : String} {content : List UInt8} {p : Place}

/-- The place of a file in a folder begins with that of the folder. -/
theorem placeOf_prefix_placeIn (t : FileTree) (dir file : String) : t.placeOf dir <+: placeIn t dir file :=
  List.prefix_append _ _

/-- Folders that hold what one build leaves hold the same. -/
theorem Holds.unique (h : Holds dir manifestName m units t₀ t) (h' : Holds dir manifestName m units t₀ t')
    (hlength : m.units.length = units.length) (hp : t₀.placeOf dir <+: p) : t.find? p = t'.find? p := by
  by_cases hmanifest : p = placeIn t₀ dir manifestName
  · rw [hmanifest, h.manifest, h'.manifest]
  · by_cases hunit : ∃ e ∈ m.units, p = placeIn t₀ dir e.file
    · obtain ⟨e, he, rfl⟩ := hunit
      obtain ⟨⟨e', u⟩, hmem, rfl⟩ : ∃ pair ∈ m.units.zip units, pair.1 = e := by
        rw [← List.mem_map, List.map_fst_zip (Nat.le_of_eq hlength)]
        exact he
      have hother : e'.file ≠ manifestName := fun heq => hmanifest (by rw [heq])
      rw [h.units e' u hmem hother, h'.units e' u hmem hother]
    · have hothers : ∀ e ∈ m.units, p ≠ placeIn t₀ dir e.file := fun e he heq => hunit ⟨e, he, heq⟩
      rw [h.others p hp hmanifest hothers, h'.others p hp hmanifest hothers]

/-- Where a file has come to be that was not there at first, files can be put. -/
theorem Listing.takes_of_file (h : Listing dir manifestName entries t₀ t) (hvacant : Vacant t₀ dir file)
    (hfile : t.find? (placeIn t₀ dir file) = some (.file content)) : Takes t₀ dir file := by
  by_cases hmanifest : file = manifestName
  · subst hmanifest
    rcases h.manifest with hsame | htakes
    · rw [hfile] at hsame
      exact absurd hsame.symm (hvacant.target content)
    · exact htakes
  · by_cases hentry : ∃ e ∈ entries, e.file = file
    · obtain ⟨e, he, rfl⟩ := hentry
      exact h.takes e he
    · have hsame := h.others _ (placeOf_prefix_placeIn t₀ dir file) (placeIn_inj.not.mpr hmanifest)
        fun e he heq => hentry ⟨e, he, (placeIn_inj.mp heq).symm⟩
      rw [hfile] at hsame
      exact absurd hsame.symm (hvacant.target content)

/-- The folder as it was at first lists nothing. -/
theorem listing_nil (hmanifest : '/' ∉ manifestName.toList) (hvacant : Vacant t₀ dir manifestName) :
    Listing dir manifestName [] t₀ t₀ := by
  refine ⟨FileTree.SameFolders.refl t₀, ?_, by simp, by simp, by simp, .inl rfl, fun _ _ _ _ => rfl⟩
  rw [Manifest.ofFile?_of_no_file fun p content hp => ?_]
  · rfl
  · rw [show p = placeIn t₀ dir manifestName from FileTree.locateNew_join hmanifest hp]
    exact hvacant.target content

end

/-! ## What one build leaves -/

/-- The entries that are removed: those of the manifest that has been found whose files are no longer listed. -/
theorem mem_staleEntries {o : Config.Output} {previous : Option Manifest} {m : Manifest} {s : ManifestEntry}
    (hprunes : o.pruneStale = true) :
    s ∈ staleEntries o previous m ↔
      s ∈ (previous.map Manifest.units).getD [] ∧ ∀ e ∈ m.units, e.file ≠ s.file := by
  cases previous with
  | none => simp [staleEntries]
  | some previous => simp [staleEntries, hprunes, Manifest.stale]

/-- A build writes into a folder, removes there what is stale, and writes its counts elsewhere. -/
structure WritesInto (dir manifestName : String) (t : FileTree) (config : Config) (measuring : Measuring) : Prop where
  folder : config.output.dir = dir
  listing : config.output.manifestName = manifestName
  prunes : config.output.pruneStale = true
  extension : '/' ∉ config.output.unitExtension.toList
  elsewhere : ∀ path ∈ metricsPath? config measuring, ¬ t.placeOf dir <+: t.placeOf path

section

variable {config : Config} {measuring : Measuring} {cs : List Controller} {ccs : List CompiledController} {m : Manifest}
  {entries : List ManifestEntry} {dir manifestName : String} {t t₀ t₁ t' current : FileTree} {p : Place}

/-- Writing the counts elsewhere does not change the folder. -/
theorem WritesInto.find?_measured (h : WritesInto dir manifestName t₀ config measuring)
    (hsame : FileTree.SameFolders t₀ t) {r : Except BuildError Unit} (hmeasured : Measured config measuring t r t')
    (hp : t₀.placeOf dir <+: p) : t'.find? p = t.find? p := by
  refine hmeasured.find?_of_ne fun path hpath heq => h.elsewhere path hpath ?_
  rw [← FileTree.placeOf_of_home hsame.home path, ← FileTree.placeOf_of_locateNew heq]
  exact hp

/-- A build that succeeds in a folder with a listing, where the files that it writes were not held at first. -/
structure BuildsOn (config : Config) (measuring : Measuring) (cs : List Controller) (ccs : List CompiledController)
    (m : Manifest) (entries : List ManifestEntry) (t₀ current t t₁ t' : FileTree) : Prop where
  listing : Listing config.output.dir config.output.manifestName entries t₀ t
  writes : WritesInto config.output.dir config.output.manifestName t₀ config measuring
  built : Built config measuring cs ccs m current t t₁ t'
  slash : '/' ∉ config.output.manifestName.toList
  manifest : Vacant t₀ config.output.dir config.output.manifestName
  units : ∀ e ∈ m.units, Vacant t₀ config.output.dir e.file

/-- **A build succeeds** if its controllers compile and its files can be put into the folder. -/
theorem Listing.run_of_takes {w : Workspace}
    (h : Listing config.output.dir config.output.manifestName entries t₀ t)
    (hwrites : WritesInto config.output.dir config.output.manifestName t₀ config measuring)
    (hslash : '/' ∉ config.output.manifestName.toList)
    (hvacant : Vacant t₀ config.output.dir config.output.manifestName)
    (hunits : ∀ e ∈ m.units, Vacant t₀ config.output.dir e.file) (hcompile : Compiles config cs (.ok ccs))
    (hprepare : w.files.makeFolders config.output.dir = (.ok (), t))
    (hm : Manifest.ofCompiled ccs config.output.unitExtension = .ok m)
    (htakes : Takes t₀ config.output.dir config.output.manifestName)
    (hunitsTaken : ∀ e ∈ m.units, Takes t₀ config.output.dir e.file)
    (hmetrics : ∀ path ∈ metricsPath? config measuring, ∃ p, t₀.locateNew path = .ok p) :
    ∃ report w' t₁, (run config measuring cs).run.run w = (.ok report, w') ∧ report.manifest = m ∧
      BuildsOn config measuring cs ccs m entries t₀ w.files t t₁ w'.files := by
  have hentries := (ofCompiled_eq_ok hm).2
  -- Each deed can be done: the names lead into the folder, which can take the files.
  have hfeasible : ∀ d ∈ deeds config.output (foundIn config.output t) m ccs, Feasible t config.output.dir d := by
    intro d hd
    rcases mem_deeds.mp hd with ⟨e, u, hmem, rfl⟩ | ⟨s, hs, rfl⟩ | rfl
    · have he := (List.of_mem_zip hmem).1
      obtain ⟨cu, -, hentry⟩ := exists_left_of_mem hentries he
      exact ⟨(entryOf_eq_ok hentry).slash_notMem hwrites.extension, (hunitsTaken e he).of_sameFolders h.folders⟩
    · rw [mem_staleEntries hwrites.prunes, h.read] at hs
      exact ⟨_, h.folders.locateNew (h.takes s hs.1).target⟩
    · exact ⟨hslash, htakes.of_sameFolders h.folders⟩
  obtain ⟨t₁, hdone⟩ := carryOut_of_feasible config.output.incremental hfeasible
  have hsame := h.folders.trans (carryOut_sameFolders (plainWrites_of_feasible hfeasible) hdone)
  obtain ⟨report, w', hrun, hmanifest, hbuilt⟩ := run_of_carryOut hcompile hprepare hm hdone fun path hpath => by
    obtain ⟨p, hp⟩ := hmetrics path hpath
    exact ⟨p, hsame.locateNew hp⟩
  exact ⟨report, w', t₁, hrun, hmanifest, h, hwrites, hbuilt, hslash, hvacant, hunits⟩

namespace BuildsOn

variable {file : String} {content : List UInt8}

/-- A build that begins writes nothing but plain names. -/
theorem plainWrites (h : BuildsOn config measuring cs ccs m entries t₀ current t t₁ t') :
    PlainWrites (deeds config.output (foundIn config.output t) m ccs) :=
  h.built.plainWrites h.writes.extension h.slash

/-- Deeds change no folder. -/
theorem folders (h : BuildsOn config measuring cs ccs m entries t₀ current t t₁ t') :
    FileTree.SameFolders t₀ t₁ ∧ FileTree.SameFolders t₀ t' := by
  have hsame := h.listing.folders.trans (carryOut_sameFolders h.plainWrites h.built.done)
  exact ⟨hsame, hsame.trans h.built.measured.sameFolders⟩

/-- What a build writes stands where there is no folder in its way. -/
theorem vacant (h : BuildsOn config measuring cs ccs m entries t₀ current t t₁ t')
    (hwrite : .write file content ∈ deeds config.output (foundIn config.output t) m ccs) :
    Vacant t₀ config.output.dir file := by
  rcases write_mem_deeds hwrite with ⟨e, he, rfl⟩ | rfl
  · exact h.units e he
  · exact h.manifest

/-- The entries whose files are removed are listed, and have other files than the units. -/
theorem mem_stale (h : BuildsOn config measuring cs ccs m entries t₀ current t t₁ t') {s : ManifestEntry} :
    s ∈ staleEntries config.output (foundIn config.output t) m ↔
      s ∈ entries ∧ ∀ e ∈ m.units, e.file ≠ s.file := by
  rw [mem_staleEntries h.writes.prunes, h.listing.read]

/-- A path of a listed entry leads to the file of the entry. -/
theorem eq_placeIn_of_leads (h : BuildsOn config measuring cs ccs m entries t₀ current t t₁ t') {s : ManifestEntry}
    (hs : s ∈ entries) (hp : t.locateNew (join config.output.dir s.file) = .ok p) :
    p = placeIn t₀ config.output.dir s.file := by
  rw [← placeIn_of_sameFolders h.listing.folders]
  exact FileTree.locateNew_join (h.listing.plain s hs) hp

/-- The files that the folder held at first are not touched. -/
theorem not_touches (h : BuildsOn config measuring cs ccs m entries t₀ current t t₁ t')
    (hfile : t₀.find? p = some (.file content)) {d : Deed}
    (hd : d ∈ deeds config.output (foundIn config.output t) m ccs) : ¬ Touches t config.output.dir d p := by
  cases d with
  | write file bytes =>
      have hvacant := h.vacant hd
      rw [touches_of_sameFolders h.listing.folders]
      rintro (rfl | rfl)
      · exact hvacant.target content hfile
      · exact hvacant.temporary content hfile
  | remove file =>
      intro hleads
      rcases mem_deeds.mp hd with ⟨e, u, -, heq⟩ | ⟨s, hs, heq⟩ | heq
      · cases heq
      · cases heq
        have hs := (h.mem_stale.mp hs).1
        rw [h.eq_placeIn_of_leads hs hleads] at hfile
        exact (h.listing.vacant s hs).target content hfile
      · cases heq

/-- Where no file is written, the folder holds what it held at first. -/
theorem find?_of_others (h : BuildsOn config measuring cs ccs m entries t₀ current t t₁ t')
    (hp : t₀.placeOf config.output.dir <+: p)
    (hmanifest : p ≠ placeIn t₀ config.output.dir config.output.manifestName)
    (hunits : ∀ e ∈ m.units, p ≠ placeIn t₀ config.output.dir e.file) : t₁.find? p = t₀.find? p := by
  rcases hfirst : t₀.find? p with _ | ⟨content | _⟩
  · -- A place that was empty is empty again: what an earlier build put there is removed.
    have hunwritten : ∀ file content, .write file content ∈ deeds config.output (foundIn config.output t) m ccs →
        p ≠ placeIn t config.output.dir file := by
      intro file content hmem
      rw [placeIn_of_sameFolders h.listing.folders]
      rcases write_mem_deeds hmem with ⟨e, he, rfl⟩ | rfl
      · exact hunits e he
      · exact hmanifest
    by_cases hentry : ∃ s ∈ entries, p = placeIn t₀ config.output.dir s.file
    · obtain ⟨s, hs, rfl⟩ := hentry
      have hstale := h.mem_stale.mpr ⟨hs, fun e he heq => hunits e he (placeIn_inj.mpr heq.symm)⟩
      exact find?_carryOut_remove h.plainWrites h.built.done (mem_deeds.mpr (.inr (.inl ⟨s, hstale, rfl⟩)))
        (h.listing.folders.locateNew (h.listing.takes s hs).target) hunwritten
    · rcases find?_carryOut_or_none h.plainWrites h.built.done hunwritten with heq | hnone
      · rw [heq, h.listing.others p hp hmanifest fun s hs heq => hentry ⟨s, hs, heq⟩, hfirst]
      · exact hnone
  · -- A file from the beginning is not touched.
    rw [find?_carryOut_of_untouched h.plainWrites h.built.done fun d hd => h.not_touches hfirst hd, ← hfirst]
    refine h.listing.others p hp hmanifest fun s hs heq => ?_
    rw [heq] at hfirst
    exact (h.listing.vacant s hs).target content hfirst
  · exact (h.folders.1.folder p).mpr hfirst

/-- Files can be put where a build writes them, already at first. -/
theorem takes (h : BuildsOn config measuring cs ccs m entries t₀ current t t₁ t')
    (hwrite : .write file content ∈ deeds config.output (foundIn config.output t) m ccs) :
    Takes t₀ config.output.dir file := by
  rcases takes_or_file_of_carryOut h.plainWrites h.built.done hwrite with htakes | ⟨content', hfile⟩
  · exact htakes.of_sameFolders h.listing.folders.symm
  · rw [placeIn_of_sameFolders h.listing.folders] at hfile
    exact h.listing.takes_of_file (h.vacant hwrite) hfile

/-- **What a build leaves**: its manifest, its units and what the folder held at first. -/
theorem holds (h : BuildsOn config measuring cs ccs m entries t₀ current t t₁ t') :
    Holds config.output.dir config.output.manifestName m (ccs.flatMap CompiledController.units) t₀ t' := by
  have hmeasured {p : Place} (hp : t₀.placeOf config.output.dir <+: p) : t'.find? p = t₁.find? p :=
    h.writes.find?_measured h.folders.1 h.built.measured hp
  refine ⟨?_, fun e u hmem hne => ?_, fun p hp hmanifest hunits => ?_⟩
  · rw [hmeasured (placeOf_prefix_placeIn _ _ _), ← placeIn_of_sameFolders h.listing.folders]
    exact find?_manifest h.plainWrites h.built.done
  · rw [hmeasured (placeOf_prefix_placeIn _ _ _), ← placeIn_of_sameFolders h.listing.folders]
    refine find?_unit h.built.lists h.plainWrites h.built.done hmem hne fun s hs hleads => ?_
    obtain ⟨hentry, hother⟩ := h.mem_stale.mp hs
    have hplace := h.eq_placeIn_of_leads hentry hleads
    rw [placeIn_of_sameFolders h.listing.folders, placeIn_inj] at hplace
    exact hother e (List.of_mem_zip hmem).1 hplace
  · rw [hmeasured hp]
    exact h.find?_of_others hp hmanifest hunits

/-- The path of the manifest leads to its file. -/
theorem takes_manifest (h : BuildsOn config measuring cs ccs m entries t₀ current t t₁ t') :
    Takes t₀ config.output.dir config.output.manifestName :=
  h.takes (mem_deeds.mpr (.inr (.inr rfl)))

/-- The folder can take each unit of the manifest. -/
theorem takes_unit (h : BuildsOn config measuring cs ccs m entries t₀ current t t₁ t') {e : ManifestEntry}
    (he : e ∈ m.units) : Takes t₀ config.output.dir e.file := by
  obtain ⟨⟨e', u⟩, hmem, rfl⟩ : ∃ pair ∈ m.units.zip (ccs.flatMap CompiledController.units), pair.1 = e := by
    rw [← List.mem_map, List.map_fst_zip (Nat.le_of_eq h.built.lists.length_units)]
    exact he
  exact h.takes (mem_deeds.mpr (.inl ⟨e', u, hmem, rfl⟩))

/-- **What the manifest of a build lists** is all that the folder holds besides what it held at first. -/
theorem next (h : BuildsOn config measuring cs ccs m entries t₀ current t t₁ t') :
    Listing config.output.dir config.output.manifestName m.units t₀ t' where
  folders := h.folders.2
  read := by
    have hlists := h.built.lists
    rw [Manifest.ofFile?_of_file (h.folders.2.locateNew h.takes_manifest.target) h.holds.manifest hlists.ofText?_toText
      hlists.version]
    rfl
  plain e he := by
    obtain ⟨cu, -, hdescribes⟩ := h.built.lists.describes he
    exact hdescribes.slash_notMem h.writes.extension
  vacant := h.units
  takes e he := h.takes_unit he
  manifest := .inr h.takes_manifest
  others := h.holds.others

/-- **A build that succeeds after others succeeds alone.** -/
theorem alone (h : BuildsOn config measuring cs ccs m entries t₀ current t t₁ t') {w : Workspace}
    (hprepare : w.files.makeFolders config.output.dir = (.ok (), t₀)) :
    ∃ report w' t₁', (run config measuring cs).run.run w = (.ok report, w') ∧ report.manifest = m ∧
      BuildsOn config measuring cs ccs m [] t₀ w.files t₀ t₁' w'.files := by
  refine (listing_nil h.slash h.manifest).run_of_takes h.writes h.slash h.manifest h.units h.built.compiles hprepare
    h.built.manifest h.takes_manifest (fun e he => h.takes_unit he) fun path hpath => ?_
  obtain ⟨p, hp⟩ := h.built.measured.locateNew hpath
  exact ⟨p, h.folders.1.symm.locateNew hp⟩

end BuildsOn

end

/-! ## Calls -/

structure Call where
  config : Config
  measuring : Measuring
  controllers : List Controller

/-- What comes of a call. -/
def Call.run (c : Call) (w : Workspace) : Except BuildError Report × Workspace :=
  (Build.run c.config c.measuring c.controllers).run.run w

/-- The results of several calls, and the workspace after them. -/
def runAll : List Call → Workspace → List (Except BuildError Report) × Workspace
  | [], w => ([], w)
  | c :: calls, w =>
    ((c.run w).1 :: (runAll calls (c.run w).2).1, (runAll calls (c.run w).2).2)

/-- An error that is about the controllers and not about files. -/
inductive Refusal : BuildError → Prop where
  | compile (controller : String) (cause : CompileError) : Refusal (.compile controller cause)
  | failed (failures : List (String × CompileError)) : Refusal (.failed failures)
  | invalidUnitName (name : String) : Refusal (.invalidUnitName name)

/-- Calls on one folder with one name for the manifest, of which none fails for the sake of a file, where the folder
held no file at first whose name is that of the manifest or of a unit, or of a temporary file for one of them. -/
structure History (dir manifestName : String) (t : FileTree) (calls : List Call) (w : Workspace) : Prop where
  slash : '/' ∉ manifestName.toList
  writes : ∀ c ∈ calls, WritesInto dir manifestName t c.config c.measuring
  refused : ∀ e, .error e ∈ (runAll calls w).1 → Refusal e
  manifest : Vacant t dir manifestName
  units : ∀ report, .ok report ∈ (runAll calls w).1 → ∀ e ∈ report.manifest.units, Vacant t dir e.file

section

variable {dir manifestName : String} {t t₀ t' : FileTree} {calls before after : List Call} {c : Call} {w w' : Workspace}
  {report : Report} {p : Place}

/-- A history in two parts is the one and then the other. -/
theorem runAll_append (before after : List Call) (w : Workspace) :
    runAll (before ++ after) w =
      ((runAll before w).1 ++ (runAll after (runAll before w).2).1, (runAll after (runAll before w).2).2) := by
  induction before generalizing w with
  | nil => rfl
  | cons c calls ih => rw [List.cons_append, runAll, ih, runAll, List.cons_append]

/-- The front of a history is one. -/
theorem History.of_append_left (h : History dir manifestName t (before ++ after) w) :
    History dir manifestName t before w where
  slash := h.slash
  writes c hc := h.writes c (List.mem_append_left after hc)
  refused e he := h.refused e (by rw [runAll_append]; exact List.mem_append_left _ he)
  manifest := h.manifest
  units report hreport := h.units report (by rw [runAll_append]; exact List.mem_append_left _ hreport)

/-- The rest of a history is one, from what its front leaves. -/
theorem History.of_append_right (before : List Call) (h : History dir manifestName t (before ++ after) w) :
    History dir manifestName t after (runAll before w).2 where
  slash := h.slash
  writes c hc := h.writes c (List.mem_append_right before hc)
  refused e he := h.refused e (by rw [runAll_append]; exact List.mem_append_right _ he)
  manifest := h.manifest
  units report hreport := h.units report (by rw [runAll_append]; exact List.mem_append_right _ hreport)

/-! ## From one call to the next -/

theorem Vacant.of_grows {file : String} (h : Vacant t dir file) (hgrows : FileTree.Grows t t₀) :
    Vacant t₀ dir file where
  target content hfile := h.target content (by
    rwa [placeIn_of_home hgrows.home, hgrows.file content] at hfile)
  temporary content hfile := h.temporary content (by
    rwa [placeIn_of_home hgrows.home, hgrows.file content] at hfile)

theorem WritesInto.of_home {config : Config} {measuring : Measuring}
    (h : WritesInto dir manifestName t config measuring) (hhome : t₀.home = t.home) :
    WritesInto dir manifestName t₀ config measuring := by
  refine ⟨h.folder, h.listing, h.prunes, h.extension, fun path hpath => ?_⟩
  rw [FileTree.placeOf_of_home hhome, FileTree.placeOf_of_home hhome]
  exact h.elsewhere path hpath

/-- What calls leave behind: the files as they were at first, or the folder with a listing. -/
inductive Stage (dir manifestName : String) (t : FileTree) : FileTree → Prop where
  | untouched : Stage dir manifestName t t
  | listed {t₀ t' : FileTree} {entries : List ManifestEntry} (hprepare : t.makeFolders dir = (.ok (), t₀))
      (hlisting : Listing dir manifestName entries t₀ t') : Stage dir manifestName t t'

/-- The folder that a call makes has a listing. -/
theorem Stage.prepared {current prepared : FileTree} (h : Stage dir manifestName t current)
    (hslash : '/' ∉ manifestName.toList) (hvacant : Vacant t dir manifestName)
    (hprepare : current.makeFolders dir = (.ok (), prepared)) :
    ∃ t₀ entries, t.makeFolders dir = (.ok (), t₀) ∧ Listing dir manifestName entries t₀ prepared := by
  cases h with
  | untouched =>
      have hgrows := FileTree.grows_makeFolders t dir
      rw [hprepare] at hgrows
      exact ⟨prepared, [], hprepare, listing_nil hslash (hvacant.of_grows hgrows)⟩
  | @listed t₀ _ entries hfirst hlisting =>
      rw [FileTree.makeFolders_again hfirst hlisting.folders] at hprepare
      cases hprepare
      exact ⟨t₀, entries, hfirst, hlisting⟩

/-- A call that succeeds builds on what is there. -/
theorem Stage.buildsOn (h : Stage dir manifestName t w.files) (hslash : '/' ∉ manifestName.toList)
    (hwrites : WritesInto dir manifestName t c.config c.measuring) (hmanifest : Vacant t dir manifestName)
    (hunits : ∀ e ∈ report.manifest.units, Vacant t dir e.file) (hrun : c.run w = (.ok report, w')) :
    ∃ t₀ entries ccs prepared t₁, t.makeFolders dir = (.ok (), t₀) ∧
      BuildsOn c.config c.measuring c.controllers ccs report.manifest entries t₀ w.files prepared t₁ w'.files := by
  obtain ⟨rfl, rfl, -⟩ := id hwrites
  obtain ⟨ccs, prepared, t₁, hbuilt⟩ := built_of_run hrun
  obtain ⟨t₀, entries, hprepare, hlisting⟩ := h.prepared hslash hmanifest hbuilt.prepared
  have hgrows := FileTree.grows_makeFolders t c.config.output.dir
  rw [hprepare] at hgrows
  exact ⟨t₀, entries, ccs, prepared, t₁, hprepare, hlisting, hwrites.of_home hgrows.home, hbuilt, hslash,
    hmanifest.of_grows hgrows, fun e he => (hunits e he).of_grows hgrows⟩

/-- A call that is refused makes its folder at most. -/
theorem files_of_refused {e : BuildError} (hrefusal : Refusal e) (hrun : c.run w = (.error e, w')) :
    w'.files = w.files ∨ w.files.makeFolders c.config.output.dir = (.ok (), w'.files) := by
  have hran := run_ran c.config c.measuring c.controllers w
  rw [show (Build.run c.config c.measuring c.controllers).run.run w = (.error e, w') from hrun] at hran
  simp only at hran
  generalize w'.files = files at hran
  cases hran with
  | uncompiled _ => exact .inl rfl
  | unwritten _ hwrite =>
      cases hwrite with
      | unprepared _ => cases hrefusal
      | refused hprepare _ => exact .inr hprepare
      | failed _ _ _ => cases hrefusal
  | unmeasured _ _ hmetrics =>
      cases hmetrics
      cases hrefusal

/-- **What one call preserves.** -/
theorem Stage.run (h : Stage dir manifestName t w.files) (hhistory : History dir manifestName t (c :: calls) w) :
    Stage dir manifestName t (c.run w).2.files := by
  have hwrites := hhistory.writes c List.mem_cons_self
  rcases hrun : c.run w with ⟨e | report, w'⟩
  · have hrefusal := hhistory.refused e (by rw [runAll, hrun]; exact List.mem_cons_self)
    rcases files_of_refused hrefusal hrun with hsame | hprepare
    · rw [hsame]
      exact h
    · rw [hwrites.folder] at hprepare
      obtain ⟨t₀, entries, hfirst, hlisting⟩ := h.prepared hhistory.slash hhistory.manifest hprepare
      exact .listed hfirst hlisting
  · have hunits := hhistory.units report (by rw [runAll, hrun]; exact List.mem_cons_self)
    obtain ⟨t₀, entries, ccs, prepared, t₁, hprepare, hbuilds⟩ :=
      h.buildsOn hhistory.slash hwrites hhistory.manifest hunits hrun
    have hnext := hbuilds.next
    rw [hwrites.folder, hwrites.listing] at hnext
    exact .listed hprepare hnext

/-- **What several calls preserve.** -/
theorem Stage.runAll (h : Stage dir manifestName t w.files) (hhistory : History dir manifestName t calls w) :
    Stage dir manifestName t (runAll calls w).2.files := by
  induction calls generalizing w with
  | nil => exact h
  | cons c calls ih => exact ih (h.run hhistory) (History.of_append_right [c] hhistory)

/-- Calls that are refused leave a folder with a listing alone. -/
theorem files_of_all_refused {entries : List ManifestEntry} (hprepare : t.makeFolders dir = (.ok (), t₀))
    (hlisting : Listing dir manifestName entries t₀ w.files) (hhistory : History dir manifestName t calls w)
    (hrefused : ∀ r ∈ (Build.runAll calls w).1, ∃ e, r = .error e) : (Build.runAll calls w).2.files = w.files := by
  induction calls generalizing w with
  | nil => rfl
  | cons c calls ih =>
      obtain ⟨⟨e, hfirst⟩, hrest⟩ := List.forall_mem_cons.mp hrefused
      have hrun : c.run w = (.error e, (c.run w).2) := by rw [← hfirst]
      have hsame : (c.run w).2.files = w.files := by
        have hrefusal := hhistory.refused e (by rw [Build.runAll, hfirst]; exact List.mem_cons_self)
        rcases files_of_refused hrefusal hrun with hsame | hagain
        · exact hsame
        · rw [(hhistory.writes c List.mem_cons_self).folder,
            FileTree.makeFolders_again hprepare hlisting.folders] at hagain
          exact (Prod.mk.inj hagain).2.symm
      rw [← hsame] at hlisting
      exact (ih hlisting (History.of_append_right [c] hhistory) hrest).trans hsame

/-- The files that the folder held at first stay. -/
theorem Stage.find?_eq_file (h : Stage dir manifestName t t') (hmanifest : Vacant t dir manifestName)
    (hp : t.placeOf dir <+: p) {content : List UInt8} (hfile : t.find? p = some (.file content)) :
    t'.find? p = some (.file content) := by
  cases h with
  | untouched => exact hfile
  | @listed t₀ _ entries hprepare hlisting =>
      have hgrows := FileTree.grows_makeFolders t dir
      rw [hprepare] at hgrows
      have hfile₀ := (hgrows.file content).mpr hfile
      rw [hlisting.others p, hfile₀]
      · rw [FileTree.placeOf_of_home hgrows.home]
        exact hp
      · rintro rfl
        exact (hmanifest.of_grows hgrows).target content hfile₀
      · rintro e he rfl
        exact (hlisting.vacant e he).target content hfile₀

/-- **The last build that succeeds decides what a folder holds.** Take any calls on one folder with one name for the
manifest that remove what is stale, each with its own controllers, unit extension and settings, of which some may be
refused because of their controllers, where the names contain no slash, the counts are written elsewhere, and the folder
held no file at first with the name of a file that is written. If a call succeeds and all after it are refused, then
this call alone succeeds too, and the folder holds the same as if this call alone had been made. The files that the
folder held at first are never changed or removed. -/
theorem last_success_decides {dir manifestName : String} {calls : List Call} {w : Workspace}
    (h : History dir manifestName w.files calls w) :
    (∀ before c after, calls = before ++ c :: after →
      (∃ report, (c.run (Build.runAll before w).2).1 = .ok report) →
      (∀ r ∈ (Build.runAll after (c.run (Build.runAll before w).2).2).1, ∃ e, r = .error e) →
        ∃ report w', c.run w = (.ok report, w') ∧
          ∀ p, w.files.placeOf dir <+: p → (Build.runAll calls w).2.files.find? p = w'.files.find? p) ∧
      ∀ before after, calls = before ++ after → ∀ p content, w.files.placeOf dir <+: p →
        w.files.find? p = some (.file content) → (Build.runAll before w).2.files.find? p = some (.file content) := by
  constructor
  · rintro before c after rfl ⟨report, hsuccess⟩ hrefused
    have hfrom := h.of_append_right before
    -- What the calls before have left is a folder in good order, with a manifest of what they have written.
    have hstage := Stage.untouched.runAll h.of_append_left
    generalize hw₁ : (Build.runAll before w).2 = w₁ at *
    rcases hrun : c.run w₁ with ⟨r, w₂⟩
    rw [hrun] at hsuccess hrefused
    cases hsuccess
    have hwrites := hfrom.writes c List.mem_cons_self
    have hunits := hfrom.units report (by rw [Build.runAll, hrun]; exact List.mem_cons_self)
    obtain ⟨t₀, entries, ccs, prepared, t₁, hprepare, hbuilds⟩ :=
      hstage.buildsOn h.slash hwrites h.manifest hunits hrun
    obtain ⟨rfl, rfl, -⟩ := hwrites
    -- On the folder as it was at first, the same call writes the same files.
    obtain ⟨report', w', t₁', halone, -, hbuildsAlone⟩ := hbuilds.alone hprepare
    refine ⟨report', w', halone, fun p hp => ?_⟩
    have hlater := hfrom.of_append_right [c]
    rw [Build.runAll, hrun] at hlater
    -- The calls after it are refused, and leave the files as they are.
    have hafter := files_of_all_refused hprepare hbuilds.next hlater hrefused
    have hhome : t₀.home = w.files.home := by
      have hgrows := FileTree.grows_makeFolders w.files c.config.output.dir
      rw [hprepare] at hgrows
      exact hgrows.home
    rw [runAll_append, hw₁, Build.runAll, hrun, hafter]
    refine hbuilds.holds.unique hbuildsAlone.holds hbuilds.built.lists.length_units ?_
    rw [FileTree.placeOf_of_home hhome]
    exact hp
  · rintro before after rfl p content hp hfile
    exact (Stage.untouched.runAll h.of_append_left).find?_eq_file h.manifest hp hfile

end

/-! ## A history -/

def notes : Workspace :=
  ⟨⟨[(["out"], .folder), (["out", "notes.txt"], .file [0x6b, 0x65, 0x65, 0x70])], []⟩, default⟩

def callFor (extension : String) (names : List String) : Call :=
  ⟨{ Config.default with output := { Config.Output.default with dir := "out", unitExtension := extension } }, .off,
    names.map fun name => ⟨name, "/", []⟩⟩

/-- Whether the controllers of a call compile to units with files that can be put into the folder and were not there. -/
def Call.isReady (c : Call) (t : FileTree) : Bool :=
  match ((compile c.config c.controllers).run.run default).1 with
  | .error _ => false
  | .ok ccs =>
    match Manifest.ofCompiled ccs c.config.output.unitExtension with
    | .error _ => false
    | .ok m => m.units.all fun e => decide (Vacant t c.config.output.dir e.file ∧ Takes t c.config.output.dir e.file)

/-- Whether the controllers of a call are refused. -/
def Call.isRefused (c : Call) : Bool :=
  match ((compile c.config c.controllers).run.run default).1 with
  | .error (.compile _ _) => true
  | _ => false

theorem compiles_default (config : Config) (cs : List Controller) :
    Compiles config cs ((compile config cs).run.run default).1 := by
  obtain ⟨r, hr⟩ := counts_compile config cs
  intro w
  rw [(hr w).1, (hr default).1]

/-- A refused call ends with its refusal, and leaves the files as they are. -/
theorem Call.run_of_isRefused {c : Call} (h : c.isRefused = true) (w : Workspace) :
    ∃ e, Refusal e ∧ (c.run w).1 = .error e ∧ (c.run w).2.files = w.files := by
  have hcompiles := compiles_default c.config c.controllers
  unfold Call.isRefused at h
  split at h
  · next controller cause hresult =>
    rw [hresult] at hcompiles
    exact ⟨_, .compile controller cause, run_of_uncompiled hcompiles⟩
  · cases h

theorem writesInto_callFor {extension : String} (names : List String) (h : '/' ∉ extension.toList) (t : FileTree) :
    WritesInto "out" "daedalus-manifest.json" t (callFor extension names).config (callFor extension names).measuring :=
  ⟨rfl, rfl, rfl, h, fun _ hpath => nomatch hpath⟩

/-- The folder is there, and the manifest can be put into it and was not there. -/
theorem places_notes :
    notes.files.locate "out" = .ok ["out"] ∧ '/' ∉ "daedalus-manifest.json".toList ∧
      Vacant notes.files "out" "daedalus-manifest.json" ∧ Takes notes.files "out" "daedalus-manifest.json" := by
  decide +kernel

theorem listing_notes : Listing "out" "daedalus-manifest.json" [] notes.files notes.files :=
  listing_nil places_notes.2.1 places_notes.2.2.1

theorem makeFolders_notes : notes.files.makeFolders "out" = (.ok (), notes.files) :=
  FileTree.makeFolders_of_locate places_notes.1 rfl

/-- A call that is ready succeeds, whatever is listed. -/
theorem run_of_isReady (extension : String) (names : List String) {entries : List ManifestEntry} {w : Workspace}
    (h : (callFor extension names).isReady notes.files = true) (hextension : '/' ∉ extension.toList)
    (hlisting : Listing "out" "daedalus-manifest.json" entries notes.files w.files) :
    ∃ report w', (callFor extension names).run w = (.ok report, w') ∧
      (∀ e ∈ report.manifest.units, Vacant notes.files "out" e.file) ∧
      Listing "out" "daedalus-manifest.json" report.manifest.units notes.files w'.files := by
  obtain ⟨-, hslash, hvacant, htakes⟩ := places_notes
  have hprepare := FileTree.makeFolders_again makeFolders_notes hlisting.folders
  have hcompiles := compiles_default (callFor extension names).config (callFor extension names).controllers
  unfold Call.isReady at h
  split at h
  · cases h
  · next ccs hresult =>
    rw [hresult] at hcompiles
    split at h
    · cases h
    · next m hm =>
      have hfiles : ∀ e ∈ m.units, Vacant notes.files "out" e.file ∧ Takes notes.files "out" e.file := by
        intro e he
        exact of_decide_eq_true (List.all_eq_true.mp h e he)
      have hwrites := writesInto_callFor names hextension notes.files
      obtain ⟨report, w', t₁, hrun, rfl, hbuilds⟩ := Listing.run_of_takes hlisting hwrites hslash hvacant
        (fun e he => (hfiles e he).1) hcompiles hprepare hm htakes (fun e he => (hfiles e he).2)
        fun _ hpath => nomatch hpath
      exact ⟨report, w', hrun, hbuilds.units, hbuilds.next⟩

/-- Four calls: two units, a refusal, one unit with another extension, and a refusal again. -/
def calls : List Call :=
  [callFor "dunit" ["app.Library", "app.Archive"], callFor "dunit" ["app.Library", "app.Library"],
    callFor "unit" ["app.Library"], callFor "unit" ["app.Library", "app.Library"]]

/-- The file of the folder stays, and the third call decides what is beside it. -/
theorem last_success_decides_notes :
    History "out" "daedalus-manifest.json" notes.files calls notes ∧
    (∃ report w', (callFor "unit" ["app.Library"]).run notes = (.ok report, w') ∧
      ∀ p, ["out"] <+: p → (runAll calls notes).2.files.find? p = w'.files.find? p) ∧
    (runAll calls notes).2.files.find? ["out", "notes.txt"] = some (.file [0x6b, 0x65, 0x65, 0x70]) := by
  obtain ⟨r₁, w₁, hrun₁, hunits₁, hlisting₁⟩ := run_of_isReady "dunit" ["app.Library", "app.Archive"]
    (by decide +kernel) (by decide +kernel) listing_notes
  obtain ⟨e₂, hrefusal₂, hrun₂, hfiles₂⟩ :=
    Call.run_of_isRefused (c := callFor "dunit" ["app.Library", "app.Library"]) (by decide +kernel) w₁
  rw [← hfiles₂] at hlisting₁
  obtain ⟨r₃, w₃, hrun₃, hunits₃, -⟩ := run_of_isReady "unit" ["app.Library"]
    (by decide +kernel) (by decide +kernel) hlisting₁
  obtain ⟨e₄, hrefusal₄, hrun₄, -⟩ :=
    Call.run_of_isRefused (c := callFor "unit" ["app.Library", "app.Library"]) (by decide +kernel) w₃
  have hresults : (runAll calls notes).1 = [.ok r₁, .error e₂, .ok r₃, .error e₄] := by
    simp only [calls, runAll, hrun₁, hrun₂, hrun₃, hrun₄]
  have hhistory : History "out" "daedalus-manifest.json" notes.files calls notes := by
    refine ⟨by decide +kernel, fun c hc => ?_, fun e he => ?_, by decide +kernel, fun report hreport => ?_⟩
    · simp only [calls, List.mem_cons, List.not_mem_nil, or_false] at hc
      rcases hc with rfl | rfl | rfl | rfl <;> exact writesInto_callFor _ (by decide) _
    · rw [hresults] at he
      simp only [List.mem_cons, reduceCtorEq, Except.error.injEq, List.not_mem_nil, or_false, false_or] at he
      rcases he with rfl | rfl
      · exact hrefusal₂
      · exact hrefusal₄
    · rw [hresults] at hreport
      simp only [List.mem_cons, reduceCtorEq, Except.ok.injEq, List.not_mem_nil, or_false, false_or] at hreport
      rcases hreport with rfl | rfl
      · exact hunits₁
      · exact hunits₃
  have hplace : notes.files.placeOf "out" = ["out"] := by decide +kernel
  obtain ⟨hlast, hstay⟩ := last_success_decides hhistory
  rw [hplace] at hlast hstay
  refine ⟨hhistory, ?_, hstay calls [] rfl _ _ ⟨["notes.txt"], rfl⟩ rfl⟩
  refine hlast [callFor "dunit" ["app.Library", "app.Archive"], callFor "dunit" ["app.Library", "app.Library"]]
    (callFor "unit" ["app.Library"]) [callFor "unit" ["app.Library", "app.Library"]] rfl ?_ ?_
  · simp only [runAll, hrun₁, hrun₂, hrun₃]
    exact ⟨r₃, rfl⟩
  · simp only [runAll, hrun₁, hrun₂, hrun₃, hrun₄]
    simp

/-- A folder with a file, and with folders in it that a path can lead through. -/
def crossroads : Workspace :=
  ⟨⟨[(["out"], .folder), (["out", "notes.txt.tmp"], .file [0x6b, 0x65, 0x65, 0x70]), (["out", "sub"], .folder),
      (["out", ".sub"], .folder), (["out", "app.Library$Routes."], .folder),
      (["out", ".app.Library$Routes."], .folder)], []⟩, default⟩

def countingCall : Call :=
  ⟨{ Config.default with
      output := { Config.Output.default with dir := "out" }
      metrics := ⟨true, some "out/notes.txt.tmp"⟩ }, .plain, []⟩

/-- A call whose manifest has a path for a name. -/
def climbingCall : Call :=
  ⟨{ Config.default with output := { Config.Output.default with dir := "out", manifestName := "sub/../notes.txt" } },
    .off, []⟩

/-- A call on the folder succeeds and changes the file in it. -/
def ChangesFile (c : Call) : Prop :=
  c.config.output.dir = "out" ∧ c.config.output.pruneStale = true ∧ (c.run crossroads).1.toOption.isSome = true ∧
    (c.run crossroads).2.files.find? ["out", "notes.txt.tmp"] ≠ crossroads.files.find? ["out", "notes.txt.tmp"]

/-- **A file that the folder held at first can be changed**: where the counts are written into the folder, where the
name of the manifest contains a slash, and where the unit extension does. -/
theorem notes_changed :
    ChangesFile countingCall ∧ ChangesFile climbingCall ∧ ChangesFile (callFor "/../notes.txt" ["app.Library"]) := by
  unfold ChangesFile
  decide +kernel

end Routecraft.Build
