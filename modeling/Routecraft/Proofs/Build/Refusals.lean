import Routecraft.Proofs.Build.Running
import Routecraft.Proofs.Files.Folders

/-!
# Builds that are refused

A build looks at all controllers, and then at the names of all units, before it writes the first file. So a build that
is refused leaves all files as they are. The names of units are escaped so that nothing is left in them that a file
could not be named for, but the dots of class names stay: a name that begins with one is refused.

* `isNameChar`: the characters of the names of units.
* `isUnitFileName_of_mem_unitNames`: only a dot in front keeps a unit's name from being that of a file.
* `refused_for_dots_only`: when a build is refused, and what its files are named if it is not.
-/

namespace Routecraft

/-! ## The characters of names -/

namespace Compile

open RouteName

/-- The characters of the names of units: ASCII letters and digits, dots, underscores and dollar signs. -/
def isNameChar (c : Char) : Bool := c.isAlphanum || c == '.' || c == '_' || c == '$'

variable {keepDots : Bool} {c d : Char} {cs : List Char}

theorem isNameChar_of_isPlain (h : isPlain keepDots c = true) : isNameChar c = true := by
  simp only [isPlain, Bool.or_eq_true, Bool.and_eq_true] at h
  rcases h with h | ⟨-, h⟩ <;> simp [isNameChar, h]

/-- The letters that stand for other characters may be in a name. -/
theorem isNameChar_of_letter : ∀ p ∈ letters, isNameChar p.2 = true := by decide

theorem isNameChar_digitChar : ∀ n < 16, isNameChar (Nat.digitChar n) = true := by decide

/-- All that a character is written as may be in a name. -/
theorem isNameChar_of_mem_escapeChar (h : d ∈ escapeChar keepDots c) : isNameChar d = true := by
  unfold escapeChar at h
  split at h
  · next hplain =>
    rw [List.mem_singleton.mp h]
    exact isNameChar_of_isPlain hplain
  · split at h
    · next l hl =>
      rcases List.mem_cons.mp h with rfl | h
      · rfl
      · rw [List.mem_singleton.mp h]
        exact isNameChar_of_letter _ (mem_letters_of_letter? hl)
    · simp only [List.mem_append, List.mem_cons, List.not_mem_nil, or_false] at h
      rcases h with ((rfl | rfl) | h) | rfl
      · rfl
      · rfl
      · obtain ⟨n, hn, rfl⟩ := Text.mem_hexNat h
        exact isNameChar_digitChar n hn
      · rfl

/-- An escaped text is made of characters that a name may have. -/
theorem isNameChar_of_mem_escape (h : d ∈ escape keepDots cs) : isNameChar d = true := by
  obtain ⟨c, -, hd⟩ := List.mem_flatMap.mp h
  exact isNameChar_of_mem_escapeChar hd

theorem isNameChar_of_mem_verb (v : Verb) : ∀ d ∈ v.name.toList, isNameChar d = true := by
  refine List.all_eq_true.mp ?_
  cases v <;> rfl

/-- The name of a route is made of characters that a name may have. -/
theorem isNameChar_of_mem_render {r : RouteName} (h : d ∈ r.render.toList) : isNameChar d = true := by
  rw [render, String.toList_ofList, renderChars] at h
  simp only [List.mem_append, List.mem_cons, List.mem_flatMap] at h
  rcases h with ((h | rfl | h) | h) | ⟨p, -, rfl | h⟩
  · exact isNameChar_of_mem_escape h
  · rfl
  · exact isNameChar_of_mem_verb r.verb d h
  · exact isNameChar_of_mem_escape h
  · rfl
  · exact isNameChar_of_mem_escape h

theorem isNameChar_of_mem_registrationName {controller : String} (h : d ∈ (registrationName controller).toList) :
    isNameChar d = true := by
  rw [registrationName, String.toList_append, String.toList_ofList, List.mem_append] at h
  rcases h with h | h
  · exact isNameChar_of_mem_escape h
  · have hroutes : "$Routes".toList.all isNameChar = true := rfl
    exact List.all_eq_true.mp hroutes d h

/-! ## Dots in front -/

/-- A character is written with a dot in front only if it is a dot itself. -/
theorem dot_prefix_escapeChar {rest rest' : List Char} :
    ['.'] <+: escapeChar true c ++ rest ↔ ['.'] <+: c :: rest' := by
  unfold escapeChar
  split
  · simp
  · next hplain =>
    have hdot : c ≠ '.' := by
      rintro rfl
      exact hplain rfl
    split <;> simp [Ne.symm hdot]

/-- The name of a unit begins with a dot only if that of its controller does. -/
theorem dot_prefix_escape {rest : List Char} (hcs : cs ≠ []) :
    ['.'] <+: escape true cs ++ rest ↔ ['.'] <+: cs := by
  obtain ⟨c, cs, rfl⟩ := List.exists_cons_of_ne_nil hcs
  rw [escape, List.flatMap_cons, List.append_assoc]
  exact dot_prefix_escapeChar

end Compile

namespace Build

open Compile Files

/-! ## The names of units -/

variable {c : Controller} {name : String}

/-- The names of all units of a controller are made of characters that a name may have. -/
theorem isNameChar_of_mem_unitNames (hname : name ∈ unitNames c) : ∀ d ∈ name.toList, isNameChar d = true := by
  intro d hd
  rcases List.mem_append.mp hname with hname | hname
  · obtain ⟨e, -, rfl⟩ := List.mem_map.mp hname
    exact isNameChar_of_mem_render hd
  · rw [List.mem_singleton.mp hname] at hd
    exact isNameChar_of_mem_registrationName hd

/-- The name of a unit begins as that of its controller does. -/
theorem exists_escape_of_mem_unitNames (hchecked : checkController c = .ok ()) (hname : name ∈ unitNames c) :
    ∃ rest, name.toList = RouteName.escape true c.name.toList ++ rest := by
  rcases List.mem_append.mp hname with hname | hname
  · obtain ⟨e, he, rfl⟩ := List.mem_map.mp hname
    have howner : (RouteName.of e).owner = c.name := (checkController_eq_ok hchecked).1 e he
    rw [handlerName, RouteName.render, String.toList_ofList, RouteName.renderChars, howner, List.append_assoc,
      List.append_assoc]
    exact ⟨_, rfl⟩
  · rw [List.mem_singleton.mp hname, registrationName, String.toList_append, String.toList_ofList]
    exact ⟨_, rfl⟩

/-- A controller that was checked has a name. -/
theorem name_ne_empty (hchecked : checkController c = .ok ()) : c.name ≠ "" := by
  rintro hempty
  simp [checkController, hempty] at hchecked

/-- **Only a dot in front** keeps the name of a unit from being that of a file. -/
theorem isUnitFileName_of_mem_unitNames (hchecked : checkController c = .ok ()) (hname : name ∈ unitNames c) :
    isUnitFileName name = !c.name.startsWith "." := by
  obtain ⟨rest, hrest⟩ := exists_escape_of_mem_unitNames hchecked hname
  have hchars := isNameChar_of_mem_unitNames hname
  have hne : c.name.toList ≠ [] := mt String.toList_eq_nil_iff.mp (name_ne_empty hchecked)
  have hnot {d : Char} (hd : isNameChar d = false) : d ∉ name.toList := by
    intro hmem
    rw [hchars d hmem] at hd
    cases hd
  have hempty : name ≠ "" := by
    rintro rfl
    have hnil := (List.append_eq_nil_iff.mp hrest.symm).1
    exact hne (RouteName.escape_inj.mp (hnil.trans (List.flatMap_nil (f := RouteName.escapeChar true)).symm))
  have hstarts : c.name.startsWith "." = true ↔ ['.'] <+: c.name.toList := String.startsWith_string_iff
  have hdot : ['.'] <+: name.toList ↔ c.name.startsWith "." = true := by
    rw [hrest, dot_prefix_escape hne, hstarts]
  rw [Bool.eq_iff_iff, isUnitFileName_iff, isFileName_iff, hdot]
  simp [hempty, hnot (d := '/') rfl, hnot (d := '\\') rfl, hnot (d := '\x00') rfl]

/-! ## Manifests -/

section

variable {config : Config} {cs : List Controller} {ccs : List CompiledController} {w w' : Workspace}
  {extension : String}

/-- The units that a build compiles are those of its controllers. -/
theorem controller_of_unit (hcompile : (compile config cs).run.run w = (.ok ccs, w'))
    {cu : CompiledController × EncodedUnit} (hcu : cu ∈ unitsOf ccs) :
    ∃ c ∈ cs, checkController c = .ok () ∧ cu.2.name ∈ unitNames c := by
  obtain ⟨hnames, hchecked, -⟩ := names_of_compile hcompile
  have hmem : cu.2.name ∈ (unitsOf ccs).map (·.2.name) := List.mem_map_of_mem hcu
  rw [hnames] at hmem
  obtain ⟨c, hc, hname⟩ := List.mem_flatMap.mp hmem
  exact ⟨c, hc, hchecked c hc, hname⟩

/-- There is a manifest unless the name of a controller begins with a dot. -/
theorem ofCompiled_of_no_dots (hcompile : (compile config cs).run.run w = (.ok ccs, w'))
    (hdots : ∀ c ∈ cs, c.name.startsWith "." = false) : ∃ m, Manifest.ofCompiled ccs extension = .ok m := by
  cases hm : Manifest.ofCompiled ccs extension with
  | ok m => exact ⟨m, rfl⟩
  | error e =>
      obtain ⟨cu, hcu, hinvalid, -⟩ := ofCompiled_eq_error hm
      obtain ⟨c, hc, hchecked, hname⟩ := controller_of_unit hcompile hcu
      rw [isUnitFileName_of_mem_unitNames hchecked hname, hdots c hc] at hinvalid
      cases hinvalid

/-- If it does, the manifest is refused, since every controller has a unit. -/
theorem ofCompiled_of_dot (hcompile : (compile config cs).run.run w = (.ok ccs, w')) {c : Controller} (hc : c ∈ cs)
    (hdot : c.name.startsWith "." = true) :
    ∃ name, Manifest.ofCompiled ccs extension = .error (.invalidUnitName name) := by
  cases hm : Manifest.ofCompiled ccs extension with
  | error e =>
      obtain ⟨cu, -, -, rfl⟩ := ofCompiled_eq_error hm
      exact ⟨_, rfl⟩
  | ok m =>
      -- A controller may have no endpoints, but it has a registration, whose name begins as its own.
      obtain ⟨hnames, hchecked, -⟩ := names_of_compile hcompile
      have hname : registrationName c.name ∈ unitNames c := List.mem_append_right _ List.mem_cons_self
      have hmem : registrationName c.name ∈ (unitsOf ccs).map (·.2.name) := by
        rw [hnames]
        exact List.mem_flatMap.mpr ⟨c, hc, hname⟩
      obtain ⟨cu, hcu, heq⟩ := List.mem_map.mp hmem
      obtain ⟨e, -, hdescribes⟩ := exists_right_of_mem (lists_of_compile hcompile hm).entries hcu
      have husable := hdescribes.usable
      rw [heq, isUnitFileName_of_mem_unitNames (hchecked c hc) hname, hdot] at husable
      cases husable

/-- The files of a manifest are named for units, with the extension behind a dot. -/
theorem files_of_manifest (hcompile : (compile config cs).run.run w = (.ok ccs, w')) {m : Manifest}
    (hm : Manifest.ofCompiled ccs extension = .ok m) :
    List.Forall₂ (fun u e => e.file = u.name ++ "." ++ extension ∧ ∀ d ∈ u.name.toList, isNameChar d = true)
      (ccs.flatMap CompiledController.units) m.units := by
  rw [← map_snd_unitsOf, List.forall₂_map_left_iff, List.forall₂_iff_zip]
  obtain ⟨hlength, hentries⟩ := List.forall₂_iff_zip.mp (lists_of_compile hcompile hm).entries
  refine ⟨hlength, fun {cu e} hmem => ⟨(hentries hmem).file, ?_⟩⟩
  obtain ⟨c, -, -, hname⟩ := controller_of_unit hcompile (List.of_mem_zip hmem).1
  exact isNameChar_of_mem_unitNames hname

end

/-! ## Refused builds -/

section

variable {config : Config} {measuring : Measuring} {cs : List Controller} {ccs : List CompiledController}
  {t t' t₀ : FileTree} {r : Except BuildError Report} {e : BuildError} {m : Manifest}

/-- A build that fails for its controllers has done nothing yet. -/
theorem Ran.uncompiled_of_error (h : Ran config measuring cs t (.error e) t')
    (he : (∃ name cause, e = .compile name cause) ∨ ∃ failures, e = .failed failures) : t' = t := by
  cases h with
  | uncompiled _ => rfl
  | unwritten _ hwrite =>
      cases hwrite with
      | unprepared _ => simp at he
      | refused _ hrefused =>
          obtain ⟨cu, -, -, rfl⟩ := ofCompiled_eq_error hrefused
          simp at he
      | failed _ _ _ => simp at he
  | unmeasured _ _ hmetrics =>
      cases hmetrics
      simp at he

/-- A build without a manifest has made its folder and done nothing else. -/
theorem Ran.of_refused (h : Ran config measuring cs t r t') (hcompile : Compiles config cs (.ok ccs))
    (hprepare : t.makeFolders config.output.dir = (.ok (), t₀))
    (hrefused : Manifest.ofCompiled ccs config.output.unitExtension = .error e) : r = .error e ∧ t' = t₀ := by
  have hwrote {r : Except BuildError Report} {t' : FileTree} (hwrite : Wrote config.output ccs t r t') :
      r = .error e ∧ t' = t₀ := by
    cases hwrite <;> simp_all
  cases h with
  | uncompiled hcompile' => cases hcompile.inj hcompile'
  | unwritten hcompile' hwrite =>
      cases hcompile.inj hcompile'
      exact hwrote hwrite
  | unmeasured hcompile' hwrite _ | built hcompile' hwrite _ =>
      cases hcompile.inj hcompile'
      cases (hwrote hwrite).1

/-- A build with a manifest reports it, or has failed on a file. -/
theorem Ran.of_manifest (h : Ran config measuring cs t r t') (hcompile : Compiles config cs (.ok ccs))
    (hm : Manifest.ofCompiled ccs config.output.unitExtension = .ok m) :
    (∀ report, r = .ok report → report.manifest = m) ∧
      ∀ e, r = .error e → ∃ path cause, e = .io path cause ∨ e = .metrics path cause := by
  have hwrote {report : Report} {t' : FileTree} (hwrite : Wrote config.output ccs t (.ok report) t') :
      report.manifest = m := by
    cases hwrite with
    | done _ hm' _ hreport =>
        rw [hm] at hm'
        cases hm'
        exact hreport
  cases h with
  | uncompiled hcompile' => cases hcompile.inj hcompile'
  | unwritten hcompile' hwrite =>
      cases hcompile.inj hcompile'
      cases hwrite with
      | refused _ hrefused =>
          rw [hm] at hrefused
          cases hrefused
      | unprepared _ | failed _ _ _ => simp
  | unmeasured _ _ hmetrics =>
      cases hmetrics
      simp
  | built hcompile' hwrite _ =>
      cases hcompile.inj hcompile'
      simpa using hwrote hwrite

end

/-- **A build is refused before it writes anything.** If controllers do not compile, nothing changes at all. If they
do, and the folder for the units can be made, then the build is refused for the name of a unit exactly if the name of a
controller begins with a dot, and then no file is made, changed or removed. Otherwise the files of the units have
different names, made of ASCII letters and digits, dots, underscores and dollar signs with a dot and the extension
behind them, and a build that does not report them has failed on a file. -/
theorem refused_for_dots_only (config : Config) (measuring : Measuring) (cs : List Controller) (w : Workspace) :
    let ran := (run config measuring cs).run.run w
    (∀ e, ran.1 = .error e → ((∃ name cause, e = .compile name cause) ∨ ∃ failures, e = .failed failures) →
        ran.2.files = w.files) ∧
      ∀ ccs w₁ t₀, (compile config cs).run.run w = (.ok ccs, w₁) →
        w.files.makeFolders config.output.dir = (.ok (), t₀) →
        ((∃ name, ran.1 = .error (.invalidUnitName name)) ↔ ∃ c ∈ cs, c.name.startsWith "." = true) ∧
          ((∃ c ∈ cs, c.name.startsWith "." = true) →
            ∀ p content, ran.2.files.find? p = some (.file content) ↔ w.files.find? p = some (.file content)) ∧
          ((∀ c ∈ cs, c.name.startsWith "." = false) → ∃ m,
            Manifest.ofCompiled ccs config.output.unitExtension = .ok m ∧ (m.units.map (·.file)).Nodup ∧
            List.Forall₂ (fun u e => e.file = u.name ++ "." ++ config.output.unitExtension ∧
              ∀ d ∈ u.name.toList, isNameChar d = true) (ccs.flatMap CompiledController.units) m.units ∧
            (∀ report, ran.1 = .ok report → report.manifest = m) ∧
            ∀ e, ran.1 = .error e → ∃ path cause, e = .io path cause ∨ e = .metrics path cause) := by
  intro ran
  have hran : Ran config measuring cs w.files ran.1 ran.2.files := run_ran config measuring cs w
  refine ⟨fun e he => ?_, fun ccs w₁ t₀ hcompile hprepare => ?_⟩
  · rw [he] at hran
    exact hran.uncompiled_of_error
  have hcompiles : Compiles config cs (.ok ccs) := by
    -- What controllers compile to does not depend on the workspace.
    obtain ⟨result, hcounts⟩ := counts_compile config cs
    obtain ⟨hresult, -⟩ := hcounts w
    rw [hcompile] at hresult
    cases hresult
    exact fun w => (hcounts w).1
  by_cases hdots : ∃ c ∈ cs, c.name.startsWith "." = true
  · obtain ⟨c, hc, hdot⟩ := hdots
    obtain ⟨name, hrefused⟩ : ∃ name, Manifest.ofCompiled ccs config.output.unitExtension =
        .error (.invalidUnitName name) := ofCompiled_of_dot hcompile hc hdot
    obtain ⟨hresult, hfiles⟩ := hran.of_refused hcompiles hprepare hrefused
    -- The folder may be new, but no file is.
    have hgrows := FileTree.grows_makeFolders w.files config.output.dir
    rw [hprepare] at hgrows
    refine ⟨iff_of_true ⟨name, hresult⟩ ⟨c, hc, hdot⟩, fun _ p content => ?_, fun hdots => ?_⟩
    · rw [hfiles]
      exact hgrows.file content
    · rw [hdots c hc] at hdot
      cases hdot
  · have hnone : ∀ c ∈ cs, c.name.startsWith "." = false := by simpa using hdots
    obtain ⟨m, hm⟩ : ∃ m, Manifest.ofCompiled ccs config.output.unitExtension = .ok m :=
      ofCompiled_of_no_dots hcompile hnone
    obtain ⟨hreported, hfailed⟩ := hran.of_manifest hcompiles hm
    refine ⟨iff_of_false ?_ hdots, fun h => absurd h hdots, fun _ =>
      ⟨m, hm, (lists_of_compile hcompile hm).files_nodup, files_of_manifest hcompile hm, hreported, hfailed⟩⟩
    rintro ⟨name, hname⟩
    obtain ⟨path, cause, heq | heq⟩ := hfailed _ hname <;> cases heq

/-- Controllers without endpoints, of which the second has a name that begins with a dot. -/
def shownAndHidden : List Controller := [⟨"app.Shelf", "/", []⟩, ⟨".app.Shelf", "/", []⟩]

/-- Such controllers are refused. -/
theorem hidden_refused :
    ∃ ccs w₁ t₀, (compile .default shownAndHidden).run.run default = (.ok ccs, w₁) ∧
      (default : Workspace).files.makeFolders Config.default.output.dir = (.ok (), t₀) ∧
      (∃ name, ((run .default .off shownAndHidden).run.run default).1 = .error (.invalidUnitName name)) ∧
      ∀ p content, ((run .default .off shownAndHidden).run.run default).2.files.find? p = some (.file content) ↔
        (default : Workspace).files.find? p = some (.file content) := by
  have hcompiles : ((compile .default shownAndHidden).run.run default).1.toOption.isSome = true := by decide +kernel
  have hprepares : ((default : Workspace).files.makeFolders Config.default.output.dir).1.toOption.isSome = true := by
    decide +kernel
  have hdots : ∃ c ∈ shownAndHidden, c.name.startsWith "." = true := by decide +kernel
  rcases hcompile : (compile .default shownAndHidden).run.run default with ⟨e | ccs, w₁⟩
  · rw [hcompile] at hcompiles
    cases hcompiles
  rcases hprepare : (default : Workspace).files.makeFolders Config.default.output.dir with ⟨e | ⟨⟩, t₀⟩
  · rw [hprepare] at hprepares
    cases hprepares
  obtain ⟨hrefused, hkept, -⟩ :=
    (refused_for_dots_only .default .off shownAndHidden default).2 ccs w₁ t₀ hcompile hprepare
  exact ⟨ccs, w₁, t₀, rfl, rfl, hrefused.mpr hdots, hkept hdots⟩

end Build

end Routecraft
