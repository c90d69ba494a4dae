import Routecraft.Proofs.Build.Linking
import Routecraft.Proofs.Files.Changes
import Routecraft.Proofs.Format.Sizes
import Routecraft.Proofs.Json.Reading

/-!
# What a manifest says

The manifest of a build has one entry for each unit, in the order of the units, and is read back from the file that it
is written to. The files it names are different, have no slash, and are no temporary files.

* `ofCompiled_eq_ok`, `entryOf_eq_ok`: the entries of a manifest and the units they are for.
* `Lists`: a manifest and the units of a build; `Lists.files_nodup`, `Lists.size_lt`.
* `Manifest.ofText?_toText`: the manifest in its text.
* `Manifest.ofFile?_of_file`, `Manifest.ofFile?_of_no_file`: the manifest in a file.
-/

namespace Routecraft.Build

open Bytecode Compile Json Files

/-! ## Entries -/

/-- The units of controllers, each with its controller. -/
def unitsOf (ccs : List CompiledController) : List (CompiledController × EncodedUnit) :=
  ccs.flatMap fun cc => cc.units.map (cc, ·)

theorem map_snd_unitsOf (ccs : List CompiledController) :
    (unitsOf ccs).map Prod.snd = ccs.flatMap CompiledController.units := by
  unfold unitsOf
  rw [List.map_flatMap]
  simp [Function.comp_def]

/-- A manifest has an entry for each unit. -/
theorem ofCompiled_eq_ok {ccs : List CompiledController} {extension : String} {m : Manifest}
    (h : Manifest.ofCompiled ccs extension = .ok m) :
    m.version = manifestVersion ∧
      List.Forall₂ (fun cu e => Manifest.entryOf cu.1 extension cu.2 = .ok e) (unitsOf ccs) m.units := by
  obtain ⟨entries, hentries, hm⟩ := bind_eq_ok.mp h
  cases hm
  clear h
  refine ⟨rfl, ?_⟩
  rw [mapM_eq_ok] at hentries
  induction hentries with
  | nil => exact .nil
  | @cons cc es ccs ess hcc _ ih =>
      unfold unitsOf
      rw [List.flatMap_cons, List.flatten_cons]
      refine List.rel_append ?_ ih
      exact List.forall₂_map_left_iff.mpr (mapM_eq_ok.mp hcc)

/-- A manifest is refused for a unit whose name cannot start the name of a file. -/
theorem ofCompiled_eq_error {ccs : List CompiledController} {extension : String} {e : BuildError}
    (h : Manifest.ofCompiled ccs extension = .error e) :
    ∃ cu ∈ unitsOf ccs, isUnitFileName cu.2.name = false ∧ e = .invalidUnitName cu.2.name := by
  obtain ⟨cc, hcc, hunits⟩ := exists_of_mapM_eq_error (error_of_bind_pure h)
  obtain ⟨u, hu, hentry⟩ := exists_of_mapM_eq_error hunits
  refine ⟨(cc, u), List.mem_flatMap.mpr ⟨cc, hcc, List.mem_map_of_mem hu⟩, ?_⟩
  have hname := error_of_bind_pure hentry
  unfold unitFileName at hname
  split at hname
  · cases hname
  · next hinvalid =>
    cases hname
    exact ⟨by simpa using hinvalid, rfl⟩

structure Describes (extension : String) (cc : CompiledController) (u : EncodedUnit) (e : ManifestEntry) : Prop where
  name : e.name = u.name
  role : e.role = u.role
  controller : e.controller = cc.controller
  size : e.size = u.bytes.length
  file : e.file = u.name ++ "." ++ extension
  usable : isUnitFileName u.name = true

/-- The entry of a unit describes it. -/
theorem entryOf_eq_ok {cc : CompiledController} {extension : String} {u : EncodedUnit} {e : ManifestEntry}
    (h : Manifest.entryOf cc extension u = .ok e) : Describes extension cc u e := by
  obtain ⟨file, hfile, h⟩ := bind_eq_ok.mp h
  cases h
  unfold unitFileName at hfile
  split at hfile
  · next husable =>
    cases hfile
    exact ⟨rfl, rfl, rfl, rfl, rfl, husable⟩
  · cases hfile

/-! ## Names of files -/

section Names

variable {extension : String} {cc : CompiledController} {u : EncodedUnit} {e : ManifestEntry}

/-- A file name has no slash of either kind. -/
theorem isFileName_iff {s : String} : Config.isFileName s = true ↔ '/' ∉ s.toList ∧ '\\' ∉ s.toList := by
  simp [Config.isFileName]

theorem isUnitFileName_iff {name : String} :
    isUnitFileName name = true ↔
      name ≠ "" ∧ ¬ ['.'] <+: name.toList ∧ Config.isFileName name = true ∧ '\x00' ∉ name.toList := by
  have hdot : name.startsWith "." = true ↔ ['.'] <+: name.toList := String.startsWith_string_iff
  simp only [isUnitFileName, Bool.and_eq_true, Bool.not_eq_true', ← Bool.not_eq_true, hdot, List.contains_iff_mem,
    String.isEmpty_iff]
  tauto

/-- The name of a unit's file has no separator in it unless the extension has. -/
theorem Describes.isFileName (h : Describes extension cc u e) (hextension : Config.isFileName extension = true) :
    Config.isFileName e.file = true := by
  obtain ⟨-, -, hname, -⟩ := isUnitFileName_iff.mp h.usable
  rw [isFileName_iff] at hname hextension ⊢
  simp [h.file, hname, hextension]

/-- The file of a unit has no slash in its name, if the extension has none. -/
theorem Describes.slash_notMem (h : Describes extension cc u e) (hextension : '/' ∉ extension.toList) :
    '/' ∉ e.file.toList := by
  obtain ⟨-, -, hname, -⟩ := isUnitFileName_iff.mp h.usable
  rw [isFileName_iff] at hname
  simp [h.file, hname.1, hextension]

/-- The file of a unit is none of the temporary files, which begin with a dot. -/
theorem Describes.ne_temporaryName (h : Describes extension cc u e) (file : String) : e.file ≠ temporaryName file := by
  obtain ⟨hempty, hdot, -⟩ := isUnitFileName_iff.mp h.usable
  obtain ⟨c, cs, hcs⟩ := List.exists_cons_of_ne_nil (mt String.toList_eq_nil_iff.mp hempty)
  intro heq
  have hhead := congrArg (fun s => s.toList.head?) (h.file.symm.trans heq)
  have hc : c = '.' := by simpa [temporaryName, hcs] using hhead
  exact hdot (by simp [hcs, hc])

theorem slash_notMem_temporaryName {file : String} (h : '/' ∉ file.toList) : '/' ∉ (temporaryName file).toList := by
  simp [temporaryName, h]

end Names

/-! ## The manifest of a build -/

/-- A manifest lists the units of a build: it has an entry for each of them, they have different names, and their bytes
are those of units. -/
structure Lists (extension : String) (ccs : List CompiledController) (m : Manifest) : Prop where
  version : m.version = manifestVersion
  entries : List.Forall₂ (fun cu e => Describes extension cu.1 cu.2 e) (unitsOf ccs) m.units
  names : ((unitsOf ccs).map (·.2.name)).Nodup
  encoded : ∀ cu ∈ unitsOf ccs, ∃ u : CodeUnit, u.encode = .ok cu.2.bytes

/-- The names of the units of a build are those that its controllers make for them. -/
theorem names_of_compile {config : Config} {cs : List Controller} {ccs : List CompiledController} {w w' : Workspace}
    (hcompile : (compile config cs).run.run w = (.ok ccs, w')) :
    (unitsOf ccs).map (·.2.name) = cs.flatMap unitNames ∧ (∀ c ∈ cs, checkController c = .ok ()) ∧
      (cs.map (·.name)).Nodup ∧ ∀ cu ∈ unitsOf ccs, ∃ u : CodeUnit, u.encode = .ok cu.2.bytes := by
  obtain ⟨f, hcs, hnodup⟩ := compile_eq_ok hcompile
  obtain ⟨us, hus, -, hnames⟩ := units_of_controllers hcs
  rw [← map_snd_unitsOf, List.forall₂_map_left_iff] at hus
  refine ⟨?_, ?_, hnodup, ?_⟩
  · rw [← hnames, ← List.forall₂_eq_eq_eq, List.forall₂_map_left_iff, List.forall₂_map_right_iff]
    exact hus.imp fun cu u hu => hu.name
  · intro c hc
    obtain ⟨cc, -, hcc⟩ := exists_right_of_mem hcs hc
    exact (compileController_parts hcc).1
  · intro cu hcu
    obtain ⟨u, -, hu⟩ := exists_right_of_mem hus hcu
    exact ⟨u, (CodeUnit.decode_eq_ok.mp hu.decode).2⟩

/-- **The manifest of a build** lists its units. -/
theorem lists_of_compile {config : Config} {cs : List Controller} {ccs : List CompiledController} {w w' : Workspace}
    {extension : String} {m : Manifest} (hcompile : (compile config cs).run.run w = (.ok ccs, w'))
    (hm : Manifest.ofCompiled ccs extension = .ok m) : Lists extension ccs m := by
  obtain ⟨hversion, hentries⟩ := ofCompiled_eq_ok hm
  obtain ⟨hnames, hchecked, hnodup, hencoded⟩ := names_of_compile hcompile
  refine ⟨hversion, hentries.imp fun cu e => entryOf_eq_ok, ?_, hencoded⟩
  rw [hnames]
  exact unitNames_nodup hchecked hnodup

namespace Lists

variable {extension : String} {ccs : List CompiledController} {m : Manifest}

/-- Every entry of a manifest describes a unit of the controllers. -/
theorem describes (h : Lists extension ccs m) {e : ManifestEntry} (he : e ∈ m.units) :
    ∃ cu ∈ unitsOf ccs, Describes extension cu.1 cu.2 e :=
  exists_left_of_mem h.entries he

/-- There are as many entries as units. -/
theorem length_units (h : Lists extension ccs m) : m.units.length = (ccs.flatMap CompiledController.units).length := by
  rw [← map_snd_unitsOf, List.length_map, h.entries.length_eq]

/-- The files of a manifest are different. -/
theorem files_nodup (h : Lists extension ccs m) : (m.units.map (·.file)).Nodup := by
  have hfiles : m.units.map (·.file) = ((unitsOf ccs).map (·.2.name)).map (· ++ "." ++ extension) := by
    rw [List.map_map, eq_comm, ← List.forall₂_eq_eq_eq, List.forall₂_map_left_iff, List.forall₂_map_right_iff]
    exact h.entries.imp fun cu e he => he.file.symm
  rw [hfiles]
  refine h.names.map fun name name' heq => ?_
  have hchars := congrArg String.toList heq
  simp only [String.toList_append] at hchars
  exact String.toList_inj.mp (List.append_cancel_right (List.append_cancel_right hchars))

/-- The size of a unit is a number of 64 bits. -/
theorem size_lt (h : Lists extension ccs m) {e : ManifestEntry} (he : e ∈ m.units) : e.size < UInt64.size := by
  obtain ⟨cu, hcu, hdescribes⟩ := h.describes he
  obtain ⟨u, hu⟩ := h.encoded cu hcu
  rw [hdescribes.size]
  exact CodeUnit.length_encode_lt hu

/-- The bytes of a unit begin with the mark of units. -/
theorem head?_bytes (h : Lists extension ccs m) {u : EncodedUnit} (hu : u ∈ ccs.flatMap CompiledController.units) :
    u.bytes.head? = some 0x44 := by
  rw [← map_snd_unitsOf] at hu
  obtain ⟨cu, hcu, rfl⟩ := List.mem_map.mp hu
  obtain ⟨unit, hunit⟩ := h.encoded cu hcu
  exact CodeUnit.head?_encode hunit

end Lists

/-! ## The document of a manifest -/

/-- The form of a text is that of its first character, and then that of the rest. -/
theorem utf8_of_toList {s : String} {c : Char} {cs : List Char} (h : s.toList = c :: cs) :
    Text.utf8 s = Text.utf8 (String.ofList [c]) ++ Text.utf8 (String.ofList cs) := by
  have hs : s = String.ofList [c] ++ String.ofList cs := by
    rw [← String.toList_inj, h]
    simp
  rw [hs]
  simp [Text.utf8]

theorem role?_name (role : Role) : role? role.name = some role := by cases role <;> rfl

theorem asIntIn?_nat {n : Nat} {high : Int} (h : (n : Int) ≤ high) : asIntIn? 0 high (.nat n) = some (n : Int) := by
  have hint : (Number.ofInt n).toInt? = some (n : Int) := by
    simp [Number.toInt?, Number.ofInt, digitsToNat_toDigits]
  unfold Json.nat Json.int asIntIn?
  simp only
  rw [hint, Option.filter_some, decide_eq_true (Int.natCast_nonneg n), decide_eq_true h]
  rfl

/-- A list can be read again if its items can. -/
theorem asList?_array {α : Type} {item? : Json → Option α} {toJson : α → Json} {xs : List α}
    (h : ∀ x ∈ xs, item? (toJson x) = some x) : asList? item? (.array (xs.map toJson)) = some xs := by
  unfold asList?
  induction xs with
  | nil => rfl
  | cons x xs ih =>
      obtain ⟨hx, hxs⟩ := List.forall_mem_cons.mp h
      simp only at ih ⊢
      simp [hx, ih hxs]

/-- An entry is read back from its document. -/
theorem ManifestEntry.ofJson?_toJson {e : ManifestEntry} (h : e.size < UInt64.size) : ofJson? e.toJson = some e := by
  obtain ⟨name, role, controller, file, size, handlers⟩ := e
  have hsize : asIntIn? 0 (UInt64.size - 1) (.nat size) = some (size : Int) :=
    asIntIn?_nat (Int.le_sub_one_of_lt (Int.ofNat_lt.mpr h))
  have hrole : named? role? (.text role.name) = some role := by
    simp [named?, choice?, isEmptyContent, role?_name]
  have hfields : (toJson ⟨name, role, controller, file, size, handlers⟩).fields?
      ["name", "kind", "controller", "file", "size", "handlers"] =
        some [some (.text name), some (.text role.name), some (.text controller), some (.text file),
          some (.nat size), if handlers.isEmpty then none else some (.array (handlers.map .text))] := by
    cases handlers <;> simp [toJson, fields?, member?]
  have hhandlers : orElse? [] (asList? asText?)
      (if handlers.isEmpty then none else some (.array (handlers.map .text))) = some handlers := by
    cases handlers with
    | nil => rfl
    | cons handler handlers => exact asList?_array fun _ _ => rfl
  unfold ofJson?
  rw [hfields]
  simp only [Option.bind_eq_bind, Option.bind_some, required?, asText?, hsize, hrole, hhandlers]
  rfl

/-- A manifest is read back from its document. -/
theorem Manifest.ofJson?_toJson {m : Manifest} (hversion : m.version < UInt32.size)
    (hsize : ∀ e ∈ m.units, e.size < UInt64.size) : ofJson? m.toJson = some m := by
  obtain ⟨version, units⟩ := m
  have hnumber : asIntIn? 0 (UInt32.size - 1) (.nat version) = some (version : Int) :=
    asIntIn?_nat (Int.le_sub_one_of_lt (Int.ofNat_lt.mpr hversion))
  have hunits : asList? ManifestEntry.ofJson? (.array (units.map ManifestEntry.toJson)) = some units :=
    asList?_array fun e he => ManifestEntry.ofJson?_toJson (hsize e he)
  have hfields : (toJson ⟨version, units⟩).fields? ["version", "units"] =
      some [some (.nat version), some (.array (units.map ManifestEntry.toJson))] := by
    simp [toJson, fields?, member?]
  unfold ofJson?
  rw [hfields]
  simp only [Option.bind_eq_bind, Option.bind_some, required?, hnumber, hunits]
  rfl

/-- The document of a manifest is one that is read back. -/
theorem Manifest.writable_toJson {m : Manifest} (hversion : m.version < UInt32.size)
    (hsize : ∀ e ∈ m.units, e.size < UInt64.size) : Writable maxDepth m.toJson := by
  have hentry : ∀ e ∈ m.units, Writable 125 e.toJson := by
    intro e he
    refine .object fun member hmember => ?_
    rcases List.mem_append.mp hmember with hmember | hmember
    · simp only [List.mem_cons, List.not_mem_nil, or_false] at hmember
      rcases hmember with rfl | rfl | rfl | rfl | rfl
      · exact .text _ _
      · exact .text _ _
      · exact .text _ _
      · exact .text _ _
      · exact .nat _ (hsize e he)
    · split at hmember
      · simp at hmember
      · rw [List.mem_singleton.mp hmember]
        refine .array fun j hj => ?_
        obtain ⟨handler, -, rfl⟩ := List.mem_map.mp hj
        exact .text _ _
  refine .object fun member hmember => ?_
  simp only [List.mem_cons, List.not_mem_nil, or_false] at hmember
  rcases hmember with rfl | rfl
  · exact .nat _ (hversion.trans (by decide))
  · refine .array fun j hj => ?_
    obtain ⟨e, he, rfl⟩ := List.mem_map.mp hj
    exact hentry e he

/-- **A manifest is read back** from its text. -/
theorem Manifest.ofText?_toText {m : Manifest} (hversion : m.version < UInt32.size)
    (hsize : ∀ e ∈ m.units, e.size < UInt64.size) : ofText? m.toText = some m := by
  unfold ofText? toText
  rw [read?_pretty (writable_toJson hversion hsize)]
  exact ofJson?_toJson hversion hsize

/-- A manifest can be read again from its text. -/
theorem Lists.ofText?_toText {extension : String} {ccs : List CompiledController} {m : Manifest}
    (h : Lists extension ccs m) : Manifest.ofText? m.toText = some m := by
  refine Manifest.ofText?_toText ?_ fun e he => h.size_lt he
  rw [h.version]
  decide

/-! ## The file of a manifest -/

namespace Manifest

variable {t : FileTree} {path : String} {p : Place} {m : Manifest}

/-- The manifest in a file that has been written. -/
theorem ofFile?_of_file (hp : t.locateNew path = .ok p) (hfile : t.find? p = some (.file (Text.utf8 m.toText)))
    (htext : ofText? m.toText = some m) (hversion : m.version = manifestVersion) : ofFile? t path = some m := by
  have hread : t.readText path = .ok m.toText := by
    unfold FileTree.readText
    rw [FileTree.read_eq_ok.mpr ⟨p, hp, hfile⟩, ok_bind, Text.ofUtf8?_utf8]
  unfold ofFile?
  rw [hread]
  simp [Except.toOption, htext, hversion]

/-- There is no manifest without a file. -/
theorem ofFile?_of_no_file (h : ∀ p content, t.locateNew path = .ok p → t.find? p ≠ some (.file content)) :
    ofFile? t path = none := by
  have hread : (t.readText path).toOption = none := by
    cases hresult : t.readText path with
    | error e => rfl
    | ok text =>
        obtain ⟨content, hcontent, -⟩ := bind_eq_ok.mp hresult
        obtain ⟨p, hp, hfile⟩ := FileTree.read_eq_ok.mp hcontent
        exact absurd hfile (h p content hp)
  unfold ofFile?
  rw [hread]
  rfl

/-- The text of a manifest begins with a bracket. -/
theorem head?_utf8_toText (m : Manifest) : (Text.utf8 m.toText).head? = some 0x7b := by
  have htext : m.toText.toList = m.toJson.pretty.toList ++ ['\n'] := String.toList_append
  rw [toJson, pretty, prettyAt, prettyMembers_eq, toList_indented] at htext
  rw [utf8_of_toList htext]
  rfl

end Manifest

end Routecraft.Build
