import Routecraft.Proofs.Build.Running

/-!
# What deeds leave behind

What is at a place after several deeds is what the last deed that touches the place has left there. A deed touches the
place of its file, and a file that is written the place of its temporary file. No deed changes a folder, so it can be
told beforehand which places it touches.

* `on_write_cases`, `on_remove_cases`: all that a deed can come to.
* `carryOut_sameFolders`: folders stay.
* `Touches`, `find?_carryOut_of_untouched`: places that stay as they are.
* `find?_carryOut_write`, `find?_carryOut_remove`, `find?_carryOut_or_none`: what is left at a place.
* `Takes`, `takes_or_file_of_carryOut`: files that can be written.
* `Feasible`, `carryOut_of_feasible`: deeds that can be done.
-/

namespace Routecraft.Build

open Files

variable {dir file : String} {incremental : Bool} {t t' : FileTree} {p x : Place} {content : List UInt8} {d : Deed}
  {ds : List Deed} {r : Except FileError Unit}

/-! ## Places -/

def placeIn (t : FileTree) (dir file : String) : Place := t.placeOf dir ++ [file]

theorem placeIn_of_home (h : t'.home = t.home) (dir file : String) : placeIn t' dir file = placeIn t dir file := by
  unfold placeIn
  rw [FileTree.placeOf_of_home h]

theorem placeIn_of_sameFolders (h : FileTree.SameFolders t t') (dir file : String) :
    placeIn t' dir file = placeIn t dir file :=
  placeIn_of_home h.home dir file

/-- Two names in a folder are at one place only if they are the same. -/
theorem placeIn_inj {file' : String} : placeIn t dir file = placeIn t dir file' ↔ file = file' := by
  simp [placeIn]

/-- A file and its temporary file can be put into a folder. -/
structure Takes (t : FileTree) (dir file : String) : Prop where
  target : t.locateNew (join dir file) = .ok (placeIn t dir file)
  temporary : t.locateNew (join dir (temporaryName file)) = .ok (placeIn t dir (temporaryName file))

instance (t : FileTree) (dir file : String) : Decidable (Takes t dir file) :=
  decidable_of_iff (t.locateNew (join dir file) = .ok (placeIn t dir file) ∧
      t.locateNew (join dir (temporaryName file)) = .ok (placeIn t dir (temporaryName file)))
    ⟨fun h => ⟨h.1, h.2⟩, fun h => ⟨h.target, h.temporary⟩⟩

/-- Whether a folder can take a file depends on the folders alone. -/
theorem Takes.of_sameFolders (h : Takes t dir file) (hsame : FileTree.SameFolders t t') : Takes t' dir file := by
  refine ⟨?_, ?_⟩
  · rw [placeIn_of_sameFolders hsame]
    exact hsame.locateNew h.target
  · rw [placeIn_of_sameFolders hsame]
    exact hsame.locateNew h.temporary

/-! ## One deed -/

/-- The tree with a file in place of another one, by way of its temporary file. -/
def replaced (t : FileTree) (dir file : String) (content : List UInt8) : FileTree :=
  ((t.put (placeIn t dir (temporaryName file)) (.file content)).erase (placeIn t dir (temporaryName file))).put
    (placeIn t dir file) (.file content)

/-- A file that is replaced stands at its place, its temporary file is gone, and all else is as before. -/
theorem find?_replaced (h : Takes t dir file) (content : List UInt8) (x : Place) :
    (replaced t dir file content).find? x =
      if x = placeIn t dir file then some (.file content)
      else if x = placeIn t dir (temporaryName file) then none
      else t.find? x :=
  FileTree.find?_replaced (FileTree.find?_of_locateNew h.temporary) (FileTree.find?_of_locateNew h.target) x

/-- **All that writing a file can come to**: the file stays as it is, or takes the place of another one, or cannot be
written, and then its temporary file may remain. -/
theorem on_write_cases (hfile : '/' ∉ file.toList) (h : (Deed.write file content).on dir incremental t = (r, t')) :
    r = .ok () ∧ t' = t ∧ t.locateNew (join dir file) = .ok (placeIn t dir file) ∧
        t.find? (placeIn t dir file) = some (.file content) ∨
      r = .ok () ∧ Takes t dir file ∧ t' = replaced t dir file content ∨
      ∃ cause, r = .error cause ∧ (t' = t ∨
        t.locateNew (join dir (temporaryName file)) = .ok (placeIn t dir (temporaryName file)) ∧
          t' = t.put (placeIn t dir (temporaryName file)) (.file content)) := by
  simp only [Deed.on] at h
  split at h
  · next hunchanged =>
    cases h
    obtain ⟨p, hp, hfind⟩ := FileTree.read_eq_ok.mp hunchanged.2
    have hplace : p = placeIn t dir file := FileTree.locateNew_join hfile hp
    subst hplace
    exact .inl ⟨rfl, rfl, hp, hfind⟩
  · split at h
    · next cause hwrite =>
      cases h
      exact .inr (.inr ⟨cause, rfl, .inl rfl⟩)
    · next t₁ hwrite =>
      obtain ⟨q, hq, rfl⟩ := FileTree.write_eq_ok.mp hwrite
      have hplace : q = placeIn t dir (temporaryName file) :=
        FileTree.locateNew_join (slash_notMem_temporaryName hfile) hq
      subst hplace
      split at h
      · next cause hrename =>
        cases h
        exact .inr (.inr ⟨cause, rfl, .inr ⟨hq, rfl⟩⟩)
      · next t₂ hrename =>
        cases h
        obtain ⟨p, hp, rfl⟩ := (FileTree.rename_put hq).mp hrename
        have hplace : p = placeIn t dir file := FileTree.locateNew_join hfile hp
        subst hplace
        exact .inr (.inl ⟨rfl, ⟨hp, hq⟩, rfl⟩)

/-- **All that removing a file can come to**: the file is gone, or nothing changes and it was not there. -/
theorem on_remove_cases (h : (Deed.remove file).on dir incremental t = (r, t')) :
    (∃ p content, t.locateNew (join dir file) = .ok p ∧ t.find? p = some (.file content) ∧ t' = t.erase p) ∨
      t' = t ∧ ∀ p, t.locateNew (join dir file) = .ok p → t.find? p = none := by
  simp only [Deed.on] at h
  split at h
  · next hremove =>
    cases h
    obtain ⟨p, content, hp, hfind, rfl⟩ := FileTree.remove_eq_ok.mp hremove
    exact .inl ⟨p, content, hp, hfind, rfl⟩
  · next hremove =>
    cases h
    exact .inr ⟨rfl, fun p hp => FileTree.find?_of_remove_eq_error hremove hp⟩
  · next hremove =>
    cases h
    exact .inr ⟨rfl, fun p hp => FileTree.find?_of_remove_eq_error hremove hp⟩

/-- The files that are written have no slash in their names. -/
def PlainWrites (ds : List Deed) : Prop := ∀ file content, Deed.write file content ∈ ds → '/' ∉ file.toList

theorem PlainWrites.of_subset {es : List Deed} (h : PlainWrites ds) (hsubset : es ⊆ ds) : PlainWrites es :=
  fun file content hmem => h file content (hsubset hmem)

/-- Deeds write plain names if each of them does. -/
theorem plainWrites_cons : PlainWrites (d :: ds) ↔ PlainWrites [d] ∧ PlainWrites ds := by
  simp only [PlainWrites, List.mem_cons, List.not_mem_nil, or_false]
  grind

/-- No deed changes a folder. -/
theorem on_sameFolders (hplain : PlainWrites [d]) (h : d.on dir incremental t = (r, t')) :
    FileTree.SameFolders t t' := by
  cases d with
  | write file content =>
      rcases on_write_cases (hplain file content List.mem_cons_self) h with
        ⟨-, rfl, -⟩ | ⟨-, htakes, rfl⟩ | ⟨cause, -, rfl | ⟨htemporary, rfl⟩⟩
      · exact FileTree.SameFolders.refl _
      · exact FileTree.sameFolders_replaced (FileTree.find?_of_locateNew htakes.temporary)
          (FileTree.find?_of_locateNew htakes.target)
      · exact FileTree.SameFolders.refl _
      · exact FileTree.sameFolders_put (FileTree.find?_of_locateNew htemporary) content
  | remove file =>
      rcases on_remove_cases h with ⟨p, content, hp, -, rfl⟩ | ⟨rfl, -⟩
      · exact FileTree.sameFolders_erase (FileTree.find?_of_locateNew hp)
      · exact FileTree.SameFolders.refl _

/-- A deed touches the place of its file, and a file that is written the place of its temporary file. -/
def Touches (t : FileTree) (dir : String) : Deed → Place → Prop
  | .write file _, x => x = placeIn t dir file ∨ x = placeIn t dir (temporaryName file)
  | .remove file, x => t.locateNew (join dir file) = .ok x

theorem touches_of_sameFolders (h : FileTree.SameFolders t t') : Touches t' dir d x ↔ Touches t dir d x := by
  cases d with
  | write file content =>
      simp only [Touches]
      rw [placeIn_of_sameFolders h, placeIn_of_sameFolders h]
  | remove file => exact ⟨h.symm.locateNew, h.locateNew⟩

/-- What no deed touches stays as it is. -/
theorem find?_on_of_untouched (hplain : PlainWrites [d]) (h : d.on dir incremental t = (r, t'))
    (hx : ¬ Touches t dir d x) : t'.find? x = t.find? x := by
  cases d with
  | write file content =>
      obtain ⟨hne, hne'⟩ := not_or.mp hx
      rcases on_write_cases (hplain file content List.mem_cons_self) h with
        ⟨-, rfl, -⟩ | ⟨-, htakes, rfl⟩ | ⟨cause, -, rfl | ⟨htemporary, rfl⟩⟩
      · rfl
      · rw [find?_replaced htakes, if_neg hne, if_neg hne']
      · rfl
      · rw [FileTree.find?_put (FileTree.find?_of_locateNew htemporary), if_neg hne']
  | remove file =>
      rcases on_remove_cases h with ⟨p, content, hp, -, rfl⟩ | ⟨rfl, -⟩
      · rw [FileTree.find?_erase (FileTree.find?_of_locateNew hp), if_neg]
        rintro rfl
        exact hx hp
      · rfl

/-- A file that is written is there. -/
theorem find?_on_write (hfile : '/' ∉ file.toList)
    (h : (Deed.write file content).on dir incremental t = (.ok (), t')) :
    t'.find? (placeIn t dir file) = some (.file content) := by
  rcases on_write_cases hfile h with ⟨-, rfl, -, hfind⟩ | ⟨-, htakes, rfl⟩ | ⟨cause, herror, -⟩
  · exact hfind
  · rw [find?_replaced htakes, if_pos rfl]
  · cases herror

/-- A deed that succeeds has written where its name leads. -/
theorem locateNew_of_on (hfile : '/' ∉ file.toList)
    (h : (Deed.write file content).on dir incremental t = (.ok (), t')) :
    t.locateNew (join dir file) = .ok (placeIn t dir file) := by
  rcases on_write_cases hfile h with ⟨-, -, hp, -⟩ | ⟨-, htakes, -⟩ | ⟨cause, herror, -⟩
  · exact hp
  · exact htakes.target
  · cases herror

/-- A file that is removed is not there. -/
theorem find?_on_remove (h : (Deed.remove file).on dir incremental t = (r, t'))
    (hp : t.locateNew (join dir file) = .ok p) : t'.find? p = none := by
  rcases on_remove_cases h with ⟨q, content, hq, -, rfl⟩ | ⟨rfl, hnone⟩
  · rw [hq] at hp
    cases hp
    rw [FileTree.find?_erase (FileTree.find?_of_locateNew hq), if_pos rfl]
  · exact hnone p hp

/-- A deed that does not write a file leaves it as it is or empties its place. -/
theorem find?_on_or_none (hplain : PlainWrites [d]) (h : d.on dir incremental t = (.ok (), t'))
    (hx : ∀ file content, d = .write file content → x ≠ placeIn t dir file) :
    t'.find? x = t.find? x ∨ t'.find? x = none := by
  cases d with
  | write file content =>
      have hne := hx file content rfl
      rcases on_write_cases (hplain file content List.mem_cons_self) h with
        ⟨-, rfl, -⟩ | ⟨-, htakes, rfl⟩ | ⟨cause, herror, -⟩
      · exact .inl rfl
      · rw [find?_replaced htakes, if_neg hne]
        split
        · exact .inr rfl
        · exact .inl rfl
      · cases herror
  | remove file =>
      by_cases hp : t.locateNew (join dir file) = .ok x
      · exact .inr (find?_on_remove h hp)
      · exact .inl (find?_on_of_untouched hplain h hp)

/-- A file that is written can be put into the folder, or has been there. -/
theorem takes_or_file_of_on (hfile : '/' ∉ file.toList)
    (h : (Deed.write file content).on dir incremental t = (.ok (), t')) :
    Takes t dir file ∨ ∃ content', t.find? (placeIn t dir file) = some (.file content') := by
  rcases on_write_cases hfile h with ⟨-, -, -, hfind⟩ | ⟨-, htakes, -⟩ | ⟨cause, herror, -⟩
  · exact .inr ⟨content, hfind⟩
  · exact .inl htakes
  · cases herror

/-- A deed can be done if the file can be put into the folder, or can be where it is removed. -/
def Feasible (t : FileTree) (dir : String) : Deed → Prop
  | .write file _ => '/' ∉ file.toList ∧ Takes t dir file
  | .remove file => ∃ p, t.locateNew (join dir file) = .ok p

/-- Whether a deed can be done depends on the folders alone. -/
theorem Feasible.of_sameFolders (h : Feasible t dir d) (hsame : FileTree.SameFolders t t') : Feasible t' dir d := by
  cases d with
  | write file content => exact ⟨h.1, h.2.of_sameFolders hsame⟩
  | remove file =>
      obtain ⟨p, hp⟩ := h
      exact ⟨p, hsame.locateNew hp⟩

theorem plainWrites_of_feasible (h : ∀ d ∈ ds, Feasible t dir d) : PlainWrites ds := fun file content hmem =>
  (h (.write file content) hmem).1

/-- A deed that can be done is done. -/
theorem on_of_feasible (incremental : Bool) (h : Feasible t dir d) :
    ∃ t', d.on dir incremental t = (.ok (), t') := by
  cases d with
  | write file content =>
      obtain ⟨-, htakes⟩ := h
      have hwrite : t.write (join dir (temporaryName file)) content =
          .ok (t.put (placeIn t dir (temporaryName file)) (.file content)) :=
        FileTree.write_eq_ok.mpr ⟨_, htakes.temporary, rfl⟩
      have hrename : (t.put (placeIn t dir (temporaryName file)) (.file content)).rename
          (join dir (temporaryName file)) (join dir file) = .ok (replaced t dir file content) :=
        (FileTree.rename_put htakes.temporary).mpr ⟨_, htakes.target, rfl⟩
      simp only [Deed.on, hwrite, hrename]
      split
      · exact ⟨t, rfl⟩
      · exact ⟨_, rfl⟩
  | remove file =>
      obtain ⟨p, hp⟩ := h
      rcases hfind : t.find? p with _ | ⟨content | _⟩
      · simp only [Deed.on, FileTree.remove_of_find?_eq_none hp hfind]
        exact ⟨t, rfl⟩
      · simp only [Deed.on, FileTree.remove_eq_ok.mpr ⟨p, content, hp, hfind, rfl⟩]
        exact ⟨_, rfl⟩
      · exact absurd hfind (FileTree.find?_of_locateNew hp)

/-! ## Several deeds -/

/-- Deeds succeed one after the other. -/
theorem carryOut_cons_eq_ok :
    carryOut dir incremental (d :: ds) t = (.ok (), t') ↔
      ∃ t₁, d.on dir incremental t = (.ok (), t₁) ∧ carryOut dir incremental ds t₁ = (.ok (), t') := by
  rw [carryOut]
  rcases d.on dir incremental t with ⟨cause | _, t₁⟩ <;> simp

theorem carryOut_append_eq_ok {es : List Deed} :
    carryOut dir incremental (ds ++ es) t = (.ok (), t') ↔
      ∃ t₁, carryOut dir incremental ds t = (.ok (), t₁) ∧ carryOut dir incremental es t₁ = (.ok (), t') := by
  induction ds generalizing t with
  | nil => simp [carryOut]
  | cons d ds ih =>
      rw [List.cons_append, carryOut_cons_eq_ok]
      simp only [ih, carryOut_cons_eq_ok]
      grind

/-- The first deed, and what may come after it. -/
theorem carryOut_cons_cases (h : carryOut dir incremental (d :: ds) t = (r, t')) :
    d.on dir incremental t = (r, t') ∨
      ∃ t₁, d.on dir incremental t = (.ok (), t₁) ∧ carryOut dir incremental ds t₁ = (r, t') := by
  rw [carryOut] at h
  split at h
  · next t₁ hd => exact .inr ⟨t₁, hd, h⟩
  · next cause t₁ hd =>
    cases h
    exact .inl hd

/-- **Deeds change no folder**, also if one of them fails. -/
theorem carryOut_sameFolders (hplain : PlainWrites ds) (h : carryOut dir incremental ds t = (r, t')) :
    FileTree.SameFolders t t' := by
  induction ds generalizing t with
  | nil =>
      cases h
      exact FileTree.SameFolders.refl _
  | cons d ds ih =>
      obtain ⟨hd, hds⟩ := plainWrites_cons.mp hplain
      rcases carryOut_cons_cases h with hlast | ⟨t₁, hfirst, hrest⟩
      · exact on_sameFolders hd hlast
      · exact (on_sameFolders hd hfirst).trans (ih hds hrest)

/-- **What no deed touches stays as it is**, also if one of them fails. -/
theorem find?_carryOut_of_untouched (hplain : PlainWrites ds) (h : carryOut dir incremental ds t = (r, t'))
    (hx : ∀ d ∈ ds, ¬ Touches t dir d x) : t'.find? x = t.find? x := by
  induction ds generalizing t with
  | nil =>
      cases h
      rfl
  | cons d ds ih =>
      obtain ⟨hd, hds⟩ := plainWrites_cons.mp hplain
      obtain ⟨hxd, hxds⟩ := List.forall_mem_cons.mp hx
      rcases carryOut_cons_cases h with hlast | ⟨t₁, hfirst, hrest⟩
      · exact find?_on_of_untouched hd hlast hxd
      · have hsame := on_sameFolders hd hfirst
        rw [ih hds hrest fun d' hd' => (touches_of_sameFolders hsame).not.mpr (hxds d' hd')]
        exact find?_on_of_untouched hd hfirst hxd

/-- **A file that is written is there** afterwards, if no later deed touches it. -/
theorem find?_carryOut_write {before after : List Deed} (hplain : PlainWrites (before ++ .write file content :: after))
    (h : carryOut dir incremental (before ++ .write file content :: after) t = (.ok (), t'))
    (hafter : ∀ d ∈ after, ¬ Touches t dir d (placeIn t dir file)) :
    t'.find? (placeIn t dir file) = some (.file content) := by
  obtain ⟨t₁, hbefore, h⟩ := carryOut_append_eq_ok.mp h
  obtain ⟨t₂, hwrite, hrest⟩ := carryOut_cons_eq_ok.mp h
  have hdeed : PlainWrites [.write file content] := hplain.of_subset (by simp)
  have hrestPlain : PlainWrites after := hplain.of_subset (by simp)
  have hsame₁ := carryOut_sameFolders (hplain.of_subset (by simp)) hbefore
  have hsame₂ := hsame₁.trans (on_sameFolders hdeed hwrite)
  have hfind := find?_on_write (hdeed file content List.mem_cons_self) hwrite
  rw [placeIn_of_sameFolders hsame₁] at hfind
  rw [find?_carryOut_of_untouched hrestPlain hrest fun d hd =>
    (touches_of_sameFolders hsame₂).not.mpr (hafter d hd)]
  exact hfind

/-- The path of a file that is written leads to its place. -/
theorem locateNew_of_carryOut (hplain : PlainWrites ds) (h : carryOut dir incremental ds t = (.ok (), t'))
    (hwrite : .write file content ∈ ds) : t.locateNew (join dir file) = .ok (placeIn t dir file) := by
  induction ds generalizing t with
  | nil => cases hwrite
  | cons d ds ih =>
      obtain ⟨hd, hds⟩ := plainWrites_cons.mp hplain
      obtain ⟨t₁, hfirst, hrest⟩ := carryOut_cons_eq_ok.mp h
      rcases List.mem_cons.mp hwrite with rfl | hlater
      · exact locateNew_of_on (hd file content List.mem_cons_self) hfirst
      · have hsame := on_sameFolders hd hfirst
        rw [← placeIn_of_sameFolders hsame]
        exact hsame.symm.locateNew (ih hds hrest hlater)

/-- **A place that no file is written to** stays as it is or is emptied. -/
theorem find?_carryOut_or_none (hplain : PlainWrites ds) (h : carryOut dir incremental ds t = (.ok (), t'))
    (hx : ∀ file content, .write file content ∈ ds → x ≠ placeIn t dir file) :
    t'.find? x = t.find? x ∨ t'.find? x = none := by
  induction ds generalizing t with
  | nil =>
      cases h
      exact .inl rfl
  | cons d ds ih =>
      obtain ⟨hd, hds⟩ := plainWrites_cons.mp hplain
      obtain ⟨t₁, hfirst, hrest⟩ := carryOut_cons_eq_ok.mp h
      have hxd : ∀ file content, d = .write file content → x ≠ placeIn t dir file := fun file content heq =>
        hx file content (heq ▸ List.mem_cons_self)
      have hxds : ∀ file content, .write file content ∈ ds → x ≠ placeIn t₁ dir file := by
        intro file content hmem
        rw [placeIn_of_sameFolders (on_sameFolders hd hfirst)]
        exact hx file content (List.mem_cons_of_mem d hmem)
      rcases ih hds hrest hxds with hsame | hnone
      · rw [hsame]
        exact find?_on_or_none hd hfirst hxd
      · exact .inr hnone

/-- **A file that is removed is not there** afterwards, if none is written in its place. -/
theorem find?_carryOut_remove (hplain : PlainWrites ds) (h : carryOut dir incremental ds t = (.ok (), t'))
    (hremove : .remove file ∈ ds) (hp : t.locateNew (join dir file) = .ok x)
    (hx : ∀ file content, .write file content ∈ ds → x ≠ placeIn t dir file) : t'.find? x = none := by
  induction ds generalizing t with
  | nil => cases hremove
  | cons d ds ih =>
      obtain ⟨hd, hds⟩ := plainWrites_cons.mp hplain
      obtain ⟨t₁, hfirst, hrest⟩ := carryOut_cons_eq_ok.mp h
      have hsame := on_sameFolders hd hfirst
      have hxds : ∀ file content, .write file content ∈ ds → x ≠ placeIn t₁ dir file := by
        intro file content hmem
        rw [placeIn_of_sameFolders hsame]
        exact hx file content (List.mem_cons_of_mem d hmem)
      rcases List.mem_cons.mp hremove with rfl | hlater
      · have hnone := find?_on_remove hfirst hp
        rcases find?_carryOut_or_none hds hrest hxds with heq | hempty
        · rw [heq, hnone]
        · exact hempty
      · exact ih hds hrest hlater (hsame.locateNew hp) hxds

/-- A file that is written can be put into the folder, or was there before. -/
theorem takes_or_file_of_carryOut (hplain : PlainWrites ds) (h : carryOut dir incremental ds t = (.ok (), t'))
    (hwrite : .write file content ∈ ds) :
    Takes t dir file ∨ ∃ content', t.find? (placeIn t dir file) = some (.file content') := by
  induction ds generalizing t with
  | nil => cases hwrite
  | cons d ds ih =>
      obtain ⟨hd, hds⟩ := plainWrites_cons.mp hplain
      obtain ⟨t₁, hfirst, hrest⟩ := carryOut_cons_eq_ok.mp h
      have hsame := on_sameFolders hd hfirst
      by_cases hsamefile : ∃ content', d = .write file content'
      · obtain ⟨content', rfl⟩ := hsamefile
        exact takes_or_file_of_on (hd file content' List.mem_cons_self) hfirst
      · have hlater : .write file content ∈ ds :=
          (List.mem_cons.mp hwrite).resolve_left fun heq => hsamefile ⟨content, heq.symm⟩
        have hother : ∀ file' content', d = .write file' content' → placeIn t dir file ≠ placeIn t dir file' := by
          rintro file' content' rfl heq
          exact hsamefile ⟨content', by rw [placeIn_inj.mp heq]⟩
        rcases ih hds hrest hlater with htakes | ⟨content', hfile⟩
        · exact .inl (htakes.of_sameFolders hsame.symm)
        · rw [placeIn_of_sameFolders hsame] at hfile
          rcases find?_on_or_none hd hfirst hother with heq | hnone
          · exact .inr ⟨content', heq ▸ hfile⟩
          · rw [hnone] at hfile
            cases hfile

/-- **Deeds are done** if files can be put where they are written, and can be where they are removed. -/
theorem carryOut_of_feasible (incremental : Bool) (h : ∀ d ∈ ds, Feasible t dir d) :
    ∃ t', carryOut dir incremental ds t = (.ok (), t') := by
  induction ds generalizing t with
  | nil => exact ⟨t, rfl⟩
  | cons d ds ih =>
      obtain ⟨hd, hds⟩ := List.forall_mem_cons.mp h
      obtain ⟨t₁, hfirst⟩ := on_of_feasible incremental hd
      have hsame := on_sameFolders (plainWrites_of_feasible (List.forall_mem_singleton.mpr hd)) hfirst
      obtain ⟨t', hrest⟩ := ih fun d' hd' => (hds d' hd').of_sameFolders hsame
      exact ⟨t', carryOut_cons_eq_ok.mpr ⟨t₁, hfirst, hrest⟩⟩

end Routecraft.Build
