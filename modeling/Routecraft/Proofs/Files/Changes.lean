import Mathlib.Data.List.TakeWhile
import Routecraft.Proofs.Files.Walking

/-!
# Changes of files

What a path leads to can be said without its errors: a file can be at a place if the parts before the name lead
through folders and no folder has the name. From this follow what is read there, and what writing, moving and
removing a file do to each place of the tree.

* `FileTree.locateNew_eq_ok`: where a file can be; `locateTarget_eq_ok`, `locate_of_locateNew`.
* `FileTree.read_eq_ok`, `remove_eq_ok`, `write_eq_ok`: what is done to a file.
* `FileTree.rename_put`: a file that takes the place of another one; `find?_replaced`.
-/

namespace Routecraft.Files.FileTree

variable {t t' : FileTree} {origin p q folder : Place} {steps way front : List String} {path name : String}
  {content : List UInt8}

/-! ## Where a file can be -/

/-- The part of a way before the empty names at its end. -/
theorem exists_trimmed (way : List String) :
    ∃ idle, way = (way.reverse.dropWhile (· == "")).reverse ++ idle ∧ ∀ part ∈ idle, part = "" := by
  refine ⟨(way.reverse.takeWhile (· == "")).reverse, ?_, fun part hpart => ?_⟩
  · rw [← List.reverse_append, List.takeWhile_append_dropWhile, List.reverse_reverse]
  · have := List.mem_takeWhile_imp (List.mem_reverse.mp hpart)
    simpa using this

/-- A way that ends in a name has no empty steps at its end. -/
theorem trimmed_concat (hname : name ≠ "") :
    ((front ++ [name]).reverse.dropWhile (· == "")).reverse = front ++ [name] := by
  simp [hname]

/-- The last step is a name if it neither stays nor goes up. -/
theorem isNamed_iff {s : LastStep} : s.isNamed = true ↔ isIdle s.name = false ∧ s.name ≠ ".." := by
  simp [LastStep.isNamed]

theorem name_ne_empty {s : LastStep} (hnamed : s.isNamed = true) : s.name ≠ "" := by
  intro h
  simp [LastStep.isNamed, isIdle, h] at hnamed

/-- The name at the end of a way, with what is before and behind it. -/
theorem way_of_lastStepFrom {s : LastStep} (h : t.lastStepFrom origin way = .ok s) (hnamed : s.isNamed = true) :
    ∃ front idle, way = front ++ s.name :: idle ∧ (∀ part ∈ idle, part = "") ∧
      t.walkIn origin front = .ok s.folder ∧ (s.slashed = false → idle = []) := by
  have hname := name_ne_empty hnamed
  unfold lastStepFrom at h
  obtain ⟨folder, hwalk, hs⟩ := bind_eq_ok.mp h
  cases hs
  obtain ⟨idle, hway, hidle⟩ := exists_trimmed way
  generalize (way.reverse.dropWhile (· == "")).reverse = named at hway hwalk hname ⊢
  have hne : named ≠ [] := by
    rintro rfl
    exact hname rfl
  refine ⟨named.dropLast, idle, ?_, hidle, hwalk, fun hslashed => ?_⟩
  · rw [List.getLast?_eq_some_getLast hne, hway]
    nth_rewrite 1 [← List.dropLast_append_getLast hne]
    simp
  · -- No slash is behind the name, so nothing has been cut off.
    have hlength : ¬ named.length < way.length := by simpa using hslashed
    rw [hway, List.length_append] at hlength
    exact List.length_eq_zero_iff.mp (by omega)

/-- A way that ends with a name. -/
theorem lastStepFrom_eq_ok {s : LastStep} (hnamed : s.isNamed = true) (hslashed : s.slashed = false) :
    t.lastStepFrom origin way = .ok s ↔
      ∃ front, way = front ++ [s.name] ∧ t.walkIn origin front = .ok s.folder := by
  constructor
  · intro h
    obtain ⟨front, idle, hway, -, hwalk, hidle⟩ := way_of_lastStepFrom h hnamed
    rw [hidle hslashed] at hway
    exact ⟨front, hway, hwalk⟩
  · rintro ⟨front, rfl, hwalk⟩
    unfold lastStepFrom
    rw [trimmed_concat (name_ne_empty hnamed)]
    refine bind_eq_ok.mpr ⟨s.folder, ?_, ?_⟩
    · simpa [walkIn] using hwalk
    · obtain ⟨folder, name, slashed⟩ := s
      cases hslashed
      simp [pure, Except.pure]

/-- **Where a file can be**: in the folder that the parts before its name lead to, unless a folder has the name. -/
theorem locateNew_eq_ok :
    t.locateNew path = .ok p ↔
      checkPath path = .ok () ∧ ∃ front name folder, parts path = front ++ [name] ∧ isIdle name = false ∧
        name ≠ ".." ∧ isTooLong name = false ∧ t.walkIn (t.origin path) front = .ok folder ∧
        t.find? p ≠ some .folder ∧ p = folder ++ [name] := by
  unfold locateNew lastStep
  constructor
  · intro h
    obtain ⟨s, hlast, h⟩ := bind_eq_ok.mp h
    obtain ⟨⟨⟩, hcheck, hlast⟩ := bind_eq_ok.mp hlast
    split at h
    · simp at h
    · next hnamed =>
      split at h
      · simp at h
      · next hlong =>
        split at h
        · simp at h
        · next hfolder =>
          cases h
          simp only [Bool.or_eq_true, Bool.not_eq_true', not_or, Bool.not_eq_false, Bool.not_eq_true] at hnamed hlong
          obtain ⟨front, hway, hwalk⟩ := (lastStepFrom_eq_ok hnamed.1 hnamed.2).mp hlast
          obtain ⟨hidle, hup⟩ := isNamed_iff.mp hnamed.1
          exact ⟨hcheck, front, s.name, s.folder, hway, hidle, hup, hlong, hwalk, hfolder, rfl⟩
  · rintro ⟨hcheck, front, name, folder, hway, hidle, hup, hlong, hwalk, hfolder, rfl⟩
    have hnamed : (⟨folder, name, false⟩ : LastStep).isNamed = true := isNamed_iff.mpr ⟨hidle, hup⟩
    have hlast := (lastStepFrom_eq_ok hnamed rfl).mpr ⟨front, hway, hwalk⟩
    refine bind_eq_ok.mpr ⟨⟨folder, name, false⟩, bind_eq_ok.mpr ⟨(), hcheck, hlast⟩, ?_⟩
    simp [hnamed, hlong, LastStep.place, hfolder]

/-- A file can be moved to where one can be made. -/
theorem locateTarget_eq_ok : t.locateTarget path = .ok p ↔ t.locateNew path = .ok p := by
  unfold locateTarget locateNew
  constructor
  all_goals
    intro h
    obtain ⟨s, hlast, h⟩ := bind_eq_ok.mp h
    refine bind_eq_ok.mpr ⟨s, hlast, ?_⟩
    cases hnamed : s.isNamed <;> cases hslashed : s.slashed <;> cases hlong : isTooLong s.name <;>
      simp_all

/-- A new file can be written only where no folder is. -/
theorem find?_of_locateNew (h : t.locateNew path = .ok p) : t.find? p ≠ some .folder := by
  obtain ⟨-, front, name, folder, -, -, -, -, -, hfolder, -⟩ := locateNew_eq_ok.mp h
  exact hfolder

/-- A file can be at the same places in trees with the same folders. -/
theorem SameFolders.locateNew (hsame : SameFolders t t') (h : t.locateNew path = .ok p) :
    t'.locateNew path = .ok p := by
  rw [locateNew_eq_ok] at h ⊢
  obtain ⟨hcheck, front, name, folder, hparts, hidle, hup, hlong, hwalk, hfolder, hp⟩ := h
  refine ⟨hcheck, front, name, folder, hparts, hidle, hup, hlong, ?_, ?_, hp⟩
  · rw [hsame.origin]
    exact hsame.walkIn hwalk
  · rw [ne_eq, hsame.folder]
    exact hfolder

/-- A new file is written at the place that its path leads to. -/
theorem placeOf_of_locateNew (h : t.locateNew path = .ok p) : p = t.placeOf path := by
  obtain ⟨-, front, name, folder, hparts, hidle, hup, -, hwalk, -, rfl⟩ := locateNew_eq_ok.mp h
  have hfolder := walk_eq_resolve (walk_of_walkIn hwalk)
  unfold placeOf
  rw [hparts, resolve_append, ← hfolder]
  simp [resolve, hidle, hup]

/-- A file whose name has no slash is directly in its folder. -/
theorem locateNew_join {dir file : String} (hfile : '/' ∉ file.toList)
    (h : t.locateNew (join dir file) = .ok p) : p = t.placeOf dir ++ [file] := by
  obtain ⟨-, front, name, folder, hparts, hidle, hup, -⟩ := locateNew_eq_ok.mp h
  rw [parts_join hfile] at hparts
  obtain ⟨-, hname⟩ := List.append_inj' hparts rfl
  cases hname
  rw [placeOf_of_locateNew h, placeOf_join t dir hfile hidle hup]

/-- What is where a file can be is found there. -/
theorem locate_of_locateNew (h : t.locateNew path = .ok p) :
    t.locate path = if (t.find? p).isSome then .ok p else .error .notFound := by
  obtain ⟨hcheck, front, name, folder, hparts, hidle, hup, hlong, hwalk, hfolder, rfl⟩ := locateNew_eq_ok.mp h
  have hlocate : t.locate path = t.walk (t.origin path) (front ++ [name]) := by
    unfold locate
    rw [hcheck, hparts]
    rfl
  rw [hlocate, walk_append hwalk (by simp), walk, hidle, hlong, if_neg Bool.false_ne_true, if_neg hup,
    if_neg Bool.false_ne_true]
  rcases hfind : t.find? (folder ++ [name]) with _ | ⟨content | _⟩
  · rfl
  · rfl
  · exact absurd hfind hfolder

/-! ## What a path leads to -/

/-- The place and all around it are folders. -/
def FoldersTo (t : FileTree) (p : Place) : Prop := ∀ q, q <+: p → t.find? q = some .folder

/-- Folders lead to where a path begins. -/
theorem foldersTo_origin (t : FileTree) (path : String) : t.FoldersTo (t.origin path) := by
  intro q hq
  refine if_pos (List.isPrefixOf_iff_prefix.mpr ?_)
  unfold origin at hq
  split at hq
  · rw [List.prefix_nil.mp hq]
    exact List.nil_prefix
  · exact hq

/-- Folders that lead to a place lead to the one above. -/
theorem FoldersTo.dropLast (h : t.FoldersTo p) : t.FoldersTo p.dropLast := fun q hq =>
  h q (hq.trans (List.dropLast_prefix p))

/-- Folders that lead to a folder lead to the folders in it. -/
theorem FoldersTo.concat (h : t.FoldersTo p) (hname : t.find? (p ++ [name]) = some .folder) :
    t.FoldersTo (p ++ [name]) := by
  intro q hq
  rcases List.prefix_concat_iff.mp hq with rfl | hq
  · exact hname
  · exact h q hq

/-- A path leads to a folder, or to a file in the folder that the parts before its name lead to. -/
theorem walk_cases (horigin : t.FoldersTo origin) (hwalk : t.walk origin steps = .ok p) :
    t.FoldersTo p ∨ ∃ front name folder content, steps = front ++ [name] ∧ isIdle name = false ∧ name ≠ ".." ∧
      isTooLong name = false ∧ t.walkIn origin front = .ok folder ∧ t.find? p = some (.file content) ∧
      p = folder ++ [name] := by
  induction steps generalizing origin with
  | nil =>
      cases hwalk
      exact .inl horigin
  | cons part steps ih =>
      rw [walk] at hwalk
      split at hwalk
      · next hidle =>
        -- A part that stays where it is.
        refine (ih horigin hwalk).imp id ?_
        rintro ⟨front, name, folder, content, rfl, hname, hup, hlong, hfront, hfind⟩
        exact ⟨part :: front, name, folder, content, rfl, hname, hup, hlong,
          walkIn_cons_eq_ok.mpr (.inl ⟨hidle, hfront⟩), hfind⟩
      · next hidle =>
        rw [Bool.not_eq_true] at hidle
        split at hwalk
        · next hpart =>
          -- A part that goes up.
          refine (ih horigin.dropLast hwalk).imp id ?_
          rintro ⟨front, name, folder, content, rfl, hname, hup, hlong, hfront, hfind⟩
          exact ⟨part :: front, name, folder, content, rfl, hname, hup, hlong,
            walkIn_cons_eq_ok.mpr (.inr (.inl ⟨hidle, hpart, hfront⟩)), hfind⟩
        · next hpart =>
          split at hwalk
          · simp at hwalk
          · next hlongPart =>
            rw [Bool.not_eq_true] at hlongPart
            split at hwalk
            · simp at hwalk
            · next hfolder =>
              -- A part that goes into a folder.
              refine (ih (horigin.concat hfolder) hwalk).imp id ?_
              rintro ⟨front, name, folder, content, rfl, hname, hup, hlong, hfront, hfind⟩
              exact ⟨part :: front, name, folder, content, rfl, hname, hup, hlong,
                walkIn_cons_eq_ok.mpr (.inr (.inr ⟨hidle, hpart, hlongPart, hfolder, hfront⟩)), hfind⟩
            · next content hfile =>
              split at hwalk
              · next hempty =>
                -- A part that is a file has to be the last one.
                cases hwalk
                rw [List.isEmpty_iff.mp hempty]
                exact .inr ⟨[], part, origin, content, rfl, hidle, hpart, hlongPart, rfl, hfile, rfl⟩
              · simp at hwalk

/-- A path that leads to no folder leads to a file, where one can be. -/
theorem locate_cases (h : t.locate path = .ok p) :
    t.find? p = some .folder ∨ ∃ content, t.find? p = some (.file content) ∧ t.locateNew path = .ok p := by
  obtain ⟨⟨⟩, hcheck, hwalk⟩ := bind_eq_ok.mp h
  rcases walk_cases (foldersTo_origin t path) hwalk with hfolders | hfile
  · exact .inl (hfolders p List.prefix_rfl)
  · obtain ⟨front, name, folder, content, hparts, hidle, hup, hlong, hfront, hfind, hp⟩ := hfile
    refine .inr ⟨content, hfind, locateNew_eq_ok.mpr ?_⟩
    exact ⟨hcheck, front, name, folder, hparts, hidle, hup, hlong, hfront, by simp [hfind], hp⟩

/-! ## Reading, writing and removing -/

/-- Reading gives the file that is at the place of its path. -/
theorem read_eq_ok :
    t.read path = .ok content ↔ ∃ p, t.locateNew path = .ok p ∧ t.find? p = some (.file content) := by
  unfold read
  constructor
  · intro h
    obtain ⟨p, hlocate, h⟩ := bind_eq_ok.mp h
    rcases locate_cases hlocate with hfolder | ⟨content', hfile, hnew⟩
    · rw [hfolder] at h
      simp at h
    · rw [hfile] at h
      cases h
      exact ⟨p, hnew, hfile⟩
  · rintro ⟨p, hnew, hfile⟩
    refine bind_eq_ok.mpr ⟨p, ?_, ?_⟩
    · rw [locate_of_locateNew hnew, hfile]
      rfl
    · rw [hfile]

/-- Writing puts the file at the place of its path. -/
theorem write_eq_ok :
    t.write path content = .ok t' ↔ ∃ p, t.locateNew path = .ok p ∧ t' = t.put p (.file content) := by
  unfold write
  constructor
  · intro h
    obtain ⟨p, hnew, h⟩ := bind_eq_ok.mp h
    cases h
    exact ⟨p, hnew, rfl⟩
  · rintro ⟨p, hnew, rfl⟩
    exact bind_eq_ok.mpr ⟨p, hnew, rfl⟩

/-- A file is removed from where it is. -/
theorem remove_eq_ok :
    t.remove path = .ok t' ↔
      ∃ p content, t.locateNew path = .ok p ∧ t.find? p = some (.file content) ∧ t' = t.erase p := by
  unfold remove
  constructor
  · intro h
    obtain ⟨p, hlocate, h⟩ := bind_eq_ok.mp h
    rcases locate_cases hlocate with hfolder | ⟨content, hfile, hnew⟩
    · rw [if_pos hfolder] at h
      simp at h
    · rw [if_neg (by simp [hfile])] at h
      cases h
      exact ⟨p, content, hnew, hfile, rfl⟩
  · rintro ⟨p, content, hnew, hfile, rfl⟩
    refine bind_eq_ok.mpr ⟨p, ?_, ?_⟩
    · rw [locate_of_locateNew hnew, hfile]
      rfl
    · rw [if_neg (by simp [hfile])]

/-- There is nothing to remove where a file can be but is not. -/
theorem remove_of_find?_eq_none (hnew : t.locateNew path = .ok p) (hnone : t.find? p = none) :
    t.remove path = .error .notFound := by
  unfold remove
  rw [locate_of_locateNew hnew, hnone]
  rfl

/-- Where a file is missing although one can be there, none is removed. -/
theorem find?_of_remove_eq_error {e : FileError} (h : t.remove path = .error e) (hnew : t.locateNew path = .ok p) :
    t.find? p = none := by
  rcases hfind : t.find? p with _ | ⟨content | _⟩
  · rfl
  · rw [remove_eq_ok.mpr ⟨p, content, hnew, hfind, rfl⟩] at h
    simp at h
  · exact absurd hfind (find?_of_locateNew hnew)

/-! ## Replacing -/

/-- A file that is moved takes the place of another one, and leaves its own. -/
theorem rename_put {temporary : String} (hq : t.locateNew temporary = .ok q) :
    (t.put q (.file content)).rename temporary path = .ok t' ↔
      ∃ p, t.locateNew path = .ok p ∧ t' = ((t.put q (.file content)).erase q).put p (.file content) := by
  have hsame := sameFolders_put (find?_of_locateNew hq) content
  -- The temporary file is where it was put.
  have hfind : (t.put q (.file content)).find? q = some (.file content) := by
    rw [find?_put (find?_of_locateNew hq), if_pos rfl]
  have hread := read_eq_ok.mpr ⟨q, hsame.locateNew hq, hfind⟩
  have hlocate : (t.put q (.file content)).locate temporary = .ok q := by
    rw [locate_of_locateNew (hsame.locateNew hq), hfind]
    rfl
  unfold rename
  constructor
  · intro h
    obtain ⟨q', hq', h⟩ := bind_eq_ok.mp h
    rw [hlocate] at hq'
    cases hq'
    obtain ⟨content', hcontent, h⟩ := bind_eq_ok.mp h
    rw [hread] at hcontent
    cases hcontent
    obtain ⟨p, htarget, h⟩ := bind_eq_ok.mp h
    cases h
    exact ⟨p, hsame.symm.locateNew (locateTarget_eq_ok.mp htarget), rfl⟩
  · rintro ⟨p, hp, rfl⟩
    have htarget := locateTarget_eq_ok.mpr (hsame.locateNew hp)
    exact bind_eq_ok.mpr ⟨q, hlocate, bind_eq_ok.mpr ⟨content, hread, bind_eq_ok.mpr ⟨p, htarget, rfl⟩⟩⟩

/-- What is where, after a file has taken the place of another one by way of a third place. -/
theorem find?_replaced (hq : t.find? q ≠ some .folder) (hp : t.find? p ≠ some .folder) (x : Place) :
    (((t.put q (.file content)).erase q).put p (.file content)).find? x =
      if x = p then some (.file content) else if x = q then none else t.find? x := by
  have hput : (t.put q (.file content)).find? q ≠ some .folder := by
    rw [find?_put hq, if_pos rfl]
    simp
  have herase : ((t.put q (.file content)).erase q).find? p ≠ some .folder := by
    rw [find?_erase hput, find?_put hq]
    split <;> simp [hp]
  rw [find?_put herase, find?_erase hput, find?_put hq]
  grind

/-- Replacing a file by way of a temporary one leaves the folders as they are. -/
theorem sameFolders_replaced (hq : t.find? q ≠ some .folder) (hp : t.find? p ≠ some .folder) :
    SameFolders t (((t.put q (.file content)).erase q).put p (.file content)) := by
  refine ⟨rfl, fun x => ?_⟩
  rw [find?_replaced hq hp]
  grind

end Routecraft.Files.FileTree
