import Routecraft.Proofs.Build.Outputs

/-!
# Where a build does something

A build with a valid configuration writes files whose names have no separator, so they are directly in its folder. The
files that it removes are named by the manifest that it finds, and those names are taken as they are: it keeps to its
folder as long as they have no separator either.

* `deedsIn`, `removedIn`: what a build does to a tree, and what it removes there.
* `files_write`: a build does nothing else.
-/

namespace Routecraft.Build

open Bytecode Compile Files

/-! ## The deeds of a build in a tree -/

/-- The manifest that a build writes into a tree: none if its folder cannot be made or the name of a unit is refused. -/
def planned? (o : Config.Output) (ccs : List CompiledController) (t : FileTree) : Option Manifest :=
  match (t.makeFolders o.dir).1, Manifest.ofCompiled ccs o.unitExtension with
  | .ok (), .ok m => some m
  | _, _ => none

/-- What a build does to a tree whose folder it has made. -/
def deedsIn (o : Config.Output) (ccs : List CompiledController) (t : FileTree) : List Deed :=
  match planned? o ccs t with
  | some m => deeds o (previousIn o t) m ccs
  | none => []

/-- The entries whose files a build removes from a tree. -/
def removedIn (o : Config.Output) (ccs : List CompiledController) (t : FileTree) : List ManifestEntry :=
  match planned? o ccs t with
  | some m => staleEntries o (previousIn o t) m
  | none => []

section

variable {o : Config.Output} {ccs : List CompiledController}

/-- **A build makes its folder and does its deeds**, and nothing else. -/
theorem files_write (o : Config.Output) (ccs : List CompiledController) (w : Workspace) :
    ((write o ccs).run.run w).2.files =
      (carryOut o.dir o.incremental (deedsIn o ccs w.files) (w.files.makeFolders o.dir).2).2 := by
  have hwrote := write_wrote o ccs w
  generalize ((write o ccs).run.run w).1 = result at hwrote
  generalize ((write o ccs).run.run w).2.files = files at hwrote ⊢
  unfold deedsIn planned? previousIn
  cases hwrote with
  | unprepared hprepare =>
      rw [hprepare]
      rfl
  | refused hprepare hrefused =>
      rw [hprepare, hrefused]
      rfl
  | done hprepare hm hdeeds _ =>
      simp only [hprepare, hm]
      rw [hdeeds]
  | failed hprepare hm hdeeds =>
      simp only [hprepare, hm]
      rw [hdeeds]

/-- The files that a build writes have names without separators. -/
theorem isFileName_of_write {t : FileTree} {file : String} {content : List UInt8}
    (hextension : Config.isFileName o.unitExtension = true) (hmanifest : Config.isFileName o.manifestName = true)
    (h : .write file content ∈ deedsIn o ccs t) : Config.isFileName file = true := by
  unfold deedsIn planned? at h
  split at h
  · next m hplanned =>
    split at hplanned
    · next m' _ hm =>
      cases hplanned
      rcases write_mem_deeds h with ⟨e, he, rfl⟩ | rfl
      · obtain ⟨cu, -, hentry⟩ := exists_left_of_mem (ofCompiled_eq_ok hm).2 he
        exact (entryOf_eq_ok hentry).isFileName hextension
      · exact hmanifest
    · cases hplanned
  · cases h

/-- The files that a build removes are those of the entries. -/
theorem remove_mem_deedsIn {t : FileTree} {file : String} :
    .remove file ∈ deedsIn o ccs t ↔ ∃ e ∈ removedIn o ccs t, e.file = file := by
  unfold deedsIn removedIn
  split
  · rw [mem_deeds]
    simp only [reduceCtorEq, and_false, exists_false, Deed.remove.injEq, false_or, or_false]
    simp only [eq_comm]
  · simp

/-- All names are without separators if those of the files that are removed are. -/
theorem isFileName_deedsIn_iff (ccs : List CompiledController) (t : FileTree)
    (hextension : Config.isFileName o.unitExtension = true) (hmanifest : Config.isFileName o.manifestName = true) :
    (∀ d ∈ deedsIn o ccs t, Config.isFileName d.file = true) ↔
      ∀ e ∈ removedIn o ccs t, Config.isFileName e.file = true := by
  constructor
  · intro h e he
    exact h _ (remove_mem_deedsIn.mpr ⟨e, he, rfl⟩)
  · intro h d hd
    cases d with
    | write file content => exact isFileName_of_write hextension hmanifest hd
    | remove file =>
        obtain ⟨e, he, rfl⟩ := remove_mem_deedsIn.mp hd
        exact h e he

end

/-! ## Places that deeds do not touch -/

section

variable {dir : String} {incremental : Bool} {t t' : FileTree} {p : Place} {ds : List Deed} {r : Except FileError Unit}

/-- A deed with a plain name touches a place directly in the folder. -/
theorem placeIn_of_touches {d : Deed} (hplain : Config.isFileName d.file = true) (h : Touches t dir d p) :
    ∃ name, p = placeIn t dir name := by
  cases d with
  | write file content =>
      rcases h with rfl | rfl
      · exact ⟨file, rfl⟩
      · exact ⟨temporaryName file, rfl⟩
  | remove file => exact ⟨file, FileTree.locateNew_join (isFileName_iff.mp hplain).1 h⟩

/-- Deeds with plain names change nothing that is not directly in the folder, also if one of them fails. -/
theorem find?_carryOut_of_outside (hplain : ∀ d ∈ ds, Config.isFileName d.file = true)
    (h : carryOut dir incremental ds t = (r, t')) (hp : ∀ name, p ≠ placeIn t dir name) :
    t'.find? p = t.find? p := by
  have hwrites : PlainWrites ds := fun file content hmem => (isFileName_iff.mp (hplain _ hmem)).1
  refine find?_carryOut_of_untouched hwrites h fun d hd htouches => ?_
  obtain ⟨name, hname⟩ := placeIn_of_touches (hplain d hd) htouches
  exact hp name hname

end

/-- **Where a build does something.** A build with a valid configuration makes its folder and does its deeds. The names
of the files that it writes are without separators. Those of the files that it removes are so exactly if the manifest
that it finds lists no other names for them; and then, whether it succeeds or not, no file is made, replaced or removed
that is not directly in its folder. -/
theorem inside_iff_removed_plain {config : Config} (hvalid : config.validate = .ok ()) (ccs : List CompiledController)
    (w : Workspace) :
    ((write config.output ccs).run.run w).2.files =
        (carryOut config.output.dir config.output.incremental (deedsIn config.output ccs w.files)
          (w.files.makeFolders config.output.dir).2).2 ∧
      (∀ file content, .write file content ∈ deedsIn config.output ccs w.files → Config.isFileName file = true) ∧
      ((∀ d ∈ deedsIn config.output ccs w.files, Config.isFileName d.file = true) ↔
        ∀ e ∈ removedIn config.output ccs w.files, Config.isFileName e.file = true) ∧
      ((∀ e ∈ removedIn config.output ccs w.files, Config.isFileName e.file = true) →
        ∀ p content, (∀ name, p ≠ placeIn w.files config.output.dir name) →
          (((write config.output ccs).run.run w).2.files.find? p = some (.file content) ↔
            w.files.find? p = some (.file content))) := by
  obtain ⟨hmanifest, hextension⟩ := isFileName_of_validate hvalid
  have hnames := isFileName_deedsIn_iff ccs w.files hextension hmanifest
  refine ⟨files_write config.output ccs w, fun file content => isFileName_of_write hextension hmanifest, hnames,
    fun hremoved p content hp => ?_⟩
  have hgrows := FileTree.grows_makeFolders w.files config.output.dir
  have hplace (name : String) : p ≠ placeIn (w.files.makeFolders config.output.dir).2 config.output.dir name := by
    rw [placeIn_of_home hgrows.home]
    exact hp name
  rw [files_write, find?_carryOut_of_outside (hnames.mpr hremoved) rfl hplace]
  exact hgrows.file content

/-- A manifest with one entry, whose file may have any name. -/
def listing (file : String) : Manifest := ⟨manifestVersion, [⟨"app.Notes", .handler, "app.Notes", file, 4, []⟩]⟩

/-- A folder with such a manifest, and a file beside the folder. -/
def besideNotes (file : String) : Workspace :=
  ⟨⟨[(["target"], .folder), (["target", "daedalus"], .folder),
      (["target", "daedalus", "daedalus-manifest.json"], .file (Text.utf8 (listing file).toText)),
      (["target", "notes.txt"], .file [0x6b, 0x65, 0x65, 0x70])], []⟩, default⟩

/-- The folder of the build can be made where it is already. -/
theorem makeFolders_besideNotes (file : String)
    (h : (besideNotes file).files.locate Config.default.output.dir = .ok ["target", "daedalus"]) :
    (besideNotes file).files.makeFolders Config.default.output.dir = (.ok (), (besideNotes file).files) :=
  FileTree.makeFolders_of_locate h rfl

theorem foundIn_besideNotes (file : String)
    (h : (besideNotes file).files.locateNew (join Config.default.output.dir Config.default.output.manifestName) =
      .ok ["target", "daedalus", "daedalus-manifest.json"]) :
    foundIn Config.default.output (besideNotes file).files = some (listing file) := by
  refine Manifest.ofFile?_of_file h rfl (Manifest.ofText?_toText ?_ fun e he => ?_) rfl
  · exact show 1 < UInt32.size by decide
  · rw [List.mem_singleton.mp he]
    exact show 4 < UInt64.size by decide

/-- A build that finds a manifest with a plain name leaves the file beside its folder alone. -/
theorem inside_iff_removed_plain_old :
    Config.default.validate = .ok () ∧
    (∀ d ∈ deedsIn Config.default.output [] (besideNotes "old.dunit").files, Config.isFileName d.file = true) ∧
    ((write Config.default.output []).run.run (besideNotes "old.dunit")).2.files.find? ["target", "notes.txt"] =
      some (.file [0x6b, 0x65, 0x65, 0x70]) := by
  have hvalid : Config.default.validate = .ok () := by decide
  have hprepare := makeFolders_besideNotes "old.dunit" (by decide +kernel)
  have hprevious := foundIn_besideNotes "old.dunit" (by decide +kernel)
  have hremoved : ∀ e ∈ removedIn Config.default.output [] (besideNotes "old.dunit").files,
      Config.isFileName e.file = true := by
    simp only [removedIn, planned?, previousIn, hprepare, hprevious]
    decide
  have hplace : (besideNotes "old.dunit").files.placeOf Config.default.output.dir = ["target", "daedalus"] := by
    decide +kernel
  obtain ⟨-, -, hnames, houtside⟩ := inside_iff_removed_plain hvalid [] (besideNotes "old.dunit")
  refine ⟨hvalid, hnames.mpr hremoved, (houtside hremoved _ _ fun name heq => ?_).mpr rfl⟩
  rw [placeIn, hplace] at heq
  simp at heq

/-- What a build without controllers does where it finds a manifest that names the file beside its folder. -/
def removal : List Deed :=
  [.remove "../notes.txt", .write Config.default.output.manifestName (Text.utf8 Manifest.empty.toText)]

theorem write_mem_removal {file : String} {content : List UInt8} (h : .write file content ∈ removal) :
    file = Config.default.output.manifestName := by
  simp only [removal, List.mem_cons, reduceCtorEq, Deed.write.injEq, List.not_mem_nil, or_false, false_or] at h
  exact h.1

/-- Nothing but the manifest is written, and its name is plain. -/
theorem plainWrites_removal : PlainWrites removal := by
  intro file content hmem
  rw [write_mem_removal hmem]
  decide

/-- The file beside the folder is found, and the manifest can be put into the folder. -/
theorem places_removal :
    (besideNotes "../notes.txt").files.locateNew (join Config.default.output.dir "../notes.txt") =
        .ok ["target", "notes.txt"] ∧
      '/' ∉ Config.default.output.manifestName.toList ∧
      Takes (besideNotes "../notes.txt").files Config.default.output.dir Config.default.output.manifestName := by
  decide +kernel

/-- The way out of the folder leads to a file beside it. -/
theorem locateNew_notes :
    (besideNotes "../notes.txt").files.locateNew (join Config.default.output.dir "../notes.txt") =
      .ok ["target", "notes.txt"] :=
  places_removal.1

theorem carryOut_removal :
    ∃ t, carryOut Config.default.output.dir Config.default.output.incremental removal
      (besideNotes "../notes.txt").files = (.ok (), t) := by
  refine carryOut_of_feasible _ fun d hd => ?_
  simp only [removal, List.mem_cons, List.not_mem_nil, or_false] at hd
  rcases hd with rfl | rfl
  · exact ⟨_, locateNew_notes⟩
  · exact places_removal.2

/-- **A build can remove a file that is not in its folder**: the manifest that it finds is one that it reads, and names
the file beside the folder. -/
theorem notes_removed :
    Config.default.validate = .ok () ∧
    foundIn Config.default.output (besideNotes "../notes.txt").files = some (listing "../notes.txt") ∧
    (besideNotes "../notes.txt").files.find? ["target", "notes.txt"] = some (.file [0x6b, 0x65, 0x65, 0x70]) ∧
    ∃ report w', (run .default .off []).run.run (besideNotes "../notes.txt") = (.ok report, w') ∧
      w'.files.find? ["target", "notes.txt"] = none := by
  have hprepare := makeFolders_besideNotes "../notes.txt" (by decide +kernel)
  have hprevious := foundIn_besideNotes "../notes.txt" (by decide +kernel)
  have hcompile : Compiles .default [] (.ok []) := fun _ => rfl
  have hunmeasured : metricsPath? .default .off = none := rfl
  obtain ⟨t, hdone⟩ := carryOut_removal
  obtain ⟨report, w', hrun, -, hbuilt⟩ := run_of_carryOut hcompile hprepare (m := .empty) rfl
    (by rw [hprevious]; exact hdone) (by rw [hunmeasured]; simp)
  refine ⟨by decide, hprevious, rfl, report, w', hrun, ?_⟩
  rw [hbuilt.measured.find?_of_ne (by rw [hunmeasured]; simp)]
  have hplace : placeIn (besideNotes "../notes.txt").files Config.default.output.dir
      Config.default.output.manifestName = ["target", "daedalus", "daedalus-manifest.json"] := by decide +kernel
  refine find?_carryOut_remove plainWrites_removal hdone List.mem_cons_self locateNew_notes fun file content hmem => ?_
  rw [write_mem_removal hmem, hplace]
  simp

end Routecraft.Build
