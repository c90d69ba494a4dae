import Mathlib.Data.List.Infix
import Routecraft.Files.Tree
import Routecraft.Proofs.Outcome

/-!
# Walking through folders

Where a path leads depends on the folders of a tree only, but for its last step. Trees with the same folders are
walked through alike, whatever files they hold, so a build finds its way from one change of a file to the next.

* `FileTree.find?_put`, `FileTree.find?_erase`: the places of a changed tree.
* `FileTree.SameFolders`: trees with the same folders.
* `FileTree.walkIn`: walking through folders only; `walk_append`, `SameFolders.walkIn`.
* `parts_join`: the parts of a name in a folder.
* `FileTree.placeOf`: the place that the words of a path stand for; `walk_eq_resolve`.
-/

namespace Routecraft.Files

/-! ## Texts -/

theorem startsWith_slash {s : String} : s.startsWith "/" = true ↔ ['/'] <+: s.toList := String.startsWith_string_iff

theorem startsWith_slash_of_notMem {s : String} (h : '/' ∉ s.toList) : s.startsWith "/" = false := by
  rw [Bool.eq_false_iff, ne_eq, startsWith_slash]
  exact fun hstart => h (hstart.subset List.mem_cons_self)

theorem endsWith_slash {s : String} : s.endsWith "/" = true ↔ ['/'] <:+ s.toList := by
  rw [← String.endsWith_toSlice, String.Slice.endsWith_string_iff, String.copy_toSlice]
  rfl

/-! ## Parts -/

/-- A text has at least one part between slashes. -/
theorem splitSlashes_ne_nil (cs : List Char) : splitSlashes cs ≠ [] := by
  cases cs with
  | nil => simp [splitSlashes]
  | cons c cs =>
      rw [splitSlashes]
      split
      · simp
      · split <;> simp

/-- The parts on both sides of a slash. -/
theorem splitSlashes_append (as bs : List Char) :
    splitSlashes (as ++ '/' :: bs) = splitSlashes as ++ splitSlashes bs := by
  induction as with
  | nil => simp [splitSlashes]
  | cons a as ih =>
      rw [List.cons_append, splitSlashes, splitSlashes, ih]
      split
      · rfl
      · rcases hsplit : splitSlashes as with _ | ⟨part, rest⟩
        · exact absurd hsplit (splitSlashes_ne_nil as)
        · rfl

/-- A text without a slash is one part. -/
theorem splitSlashes_of_notMem {cs : List Char} (h : '/' ∉ cs) : splitSlashes cs = [cs] := by
  induction cs with
  | nil => rfl
  | cons c cs ih =>
      rw [List.mem_cons, not_or] at h
      obtain ⟨hc, hcs⟩ := h
      rw [splitSlashes, if_neg (Ne.symm hc), ih hcs]

/-- The parts of a folder's path, before the name of what is in it. -/
def folderParts (dir : String) : List String :=
  if dir.isEmpty then []
  else if dir.endsWith "/" then (parts dir).dropLast
  else parts dir

/-- The parts of a name in a folder. -/
theorem parts_join {dir file : String} (hfile : '/' ∉ file.toList) :
    parts (join dir file) = folderParts dir ++ [file] := by
  have hsplit : (splitSlashes file.toList).map String.ofList = [file] := by
    simp [splitSlashes_of_notMem hfile]
  unfold join folderParts
  rw [startsWith_slash_of_notMem hfile, Bool.false_or]
  by_cases hempty : dir.isEmpty = true
  · rw [if_pos hempty, if_pos hempty]
    exact hsplit
  · rw [if_neg hempty, if_neg hempty]
    by_cases hend : dir.endsWith "/" = true
    · obtain ⟨front, hfront⟩ := endsWith_slash.mp hend
      rw [if_pos hend, if_pos hend]
      unfold parts
      rw [String.toList_append, ← hfront, List.append_assoc, List.singleton_append, splitSlashes_append,
        splitSlashes_append, List.map_append, List.map_append, hsplit]
      simp [splitSlashes]
    · rw [if_neg hend, if_neg hend]
      unfold parts
      rw [String.toList_append, String.toList_append, List.append_assoc]
      show List.map String.ofList (splitSlashes (dir.toList ++ '/' :: file.toList)) = _
      rw [splitSlashes_append, List.map_append, hsplit]

namespace FileTree

variable {t t' t'' : FileTree} {p q : Place} {e : Entry}

/-! ## Places of a changed tree -/

/-- An entry that is removed is not found, and all others are. -/
theorem lookup_filter_ne (p q : Place) (entries : List (Place × Entry)) :
    (entries.filter (·.1 != p)).lookup q = if q = p then none else entries.lookup q := by
  induction entries with
  | nil => simp
  | cons entry entries ih =>
      obtain ⟨r, e⟩ := entry
      by_cases hr : r = p
      · subst hr
        rw [List.filter_cons_of_neg (by simp), ih, List.lookup_cons]
        by_cases hq : q = r
        · simp [hq]
        · simp [hq, beq_false_of_ne hq]
      · rw [List.filter_cons_of_pos (by simpa using hr), List.lookup_cons, List.lookup_cons, ih]
        by_cases hq : q = r
        · subst hq
          simp [hr]
        · simp [beq_false_of_ne hq]

/-- A place without a folder is not on the way to the folder that the program works in. -/
theorem not_isPrefixOf_home (h : t.find? p ≠ some .folder) : p.isPrefixOf t.home = false := by
  rw [Bool.eq_false_iff]
  intro hprefix
  exact h (if_pos hprefix)

/-- What is at a place that the home folder is not in is what the entries say. -/
theorem find?_of_not_isPrefixOf (h : p.isPrefixOf t.home = false) : t.find? p = t.entries.lookup p := by
  unfold find?
  rw [h]
  rfl

/-- Only the place itself is emptied. -/
theorem find?_erase (h : t.find? p ≠ some .folder) (q : Place) :
    (t.erase p).find? q = if q = p then none else t.find? q := by
  have hp := not_isPrefixOf_home h
  have hhome : (t.erase p).home = t.home := rfl
  by_cases hq : q.isPrefixOf t.home = true
  · have hne : q ≠ p := by
      rintro rfl
      rw [hp] at hq
      cases hq
    rw [if_neg hne]
    unfold find?
    rw [hhome, if_pos hq, if_pos hq]
  · rw [Bool.not_eq_true] at hq
    rw [find?_of_not_isPrefixOf (t := t.erase p) hq, find?_of_not_isPrefixOf hq]
    exact lookup_filter_ne p q t.entries

/-- Only the place itself is filled. -/
theorem find?_put (h : t.find? p ≠ some .folder) (e : Entry) (q : Place) :
    (t.put p e).find? q = if q = p then some e else t.find? q := by
  have hp := not_isPrefixOf_home h
  have hhome : (t.put p e).home = t.home := rfl
  by_cases hq : q = p
  · subst hq
    rw [if_pos rfl, find?_of_not_isPrefixOf (t := t.put q e) hp]
    simp [put]
  · rw [if_neg hq]
    have herase := find?_erase h q
    rw [if_neg hq] at herase
    rw [← herase]
    unfold find?
    rw [hhome]
    simp [put, erase, List.lookup_cons, beq_false_of_ne hq]

/-! ## Trees with the same folders -/

/-- Two trees with the same folders. -/
structure SameFolders (t t' : FileTree) : Prop where
  home : t'.home = t.home
  folder : ∀ p, t'.find? p = some .folder ↔ t.find? p = some .folder

namespace SameFolders

theorem refl (t : FileTree) : SameFolders t t := ⟨rfl, fun _ => Iff.rfl⟩

theorem symm (h : SameFolders t t') : SameFolders t' t := ⟨h.home.symm, fun p => (h.folder p).symm⟩

theorem trans (h : SameFolders t t') (h' : SameFolders t' t'') : SameFolders t t'' :=
  ⟨h'.home.trans h.home, fun p => (h'.folder p).trans (h.folder p)⟩

/-- Paths begin at the same place in trees with the same folders. -/
theorem origin (h : SameFolders t t') (path : String) : t'.origin path = t.origin path := by
  unfold FileTree.origin
  rw [h.home]

end SameFolders

/-- Putting a file where no folder is leaves the folders as they are. -/
theorem sameFolders_put (h : t.find? p ≠ some .folder) (content : List UInt8) :
    SameFolders t (t.put p (.file content)) := by
  refine ⟨rfl, fun q => ?_⟩
  rw [find?_put h]
  split
  · next hq => simp [hq, h]
  · rfl

/-- Erasing what is no folder leaves the folders as they are. -/
theorem sameFolders_erase (h : t.find? p ≠ some .folder) : SameFolders t (t.erase p) := by
  refine ⟨rfl, fun q => ?_⟩
  rw [find?_erase h]
  split
  · next hq => simp [hq, h]
  · rfl

/-! ## Walking -/

/-- The folder that the parts of a path lead to. -/
def walkIn (t : FileTree) (origin : Place) (steps : List String) : Except FileError Place :=
  t.walk origin (steps ++ [""])

variable {origin folder : Place} {steps rest : List String} {part : String}

/-- One step into a folder, and on from there. -/
theorem walkIn_cons_eq_ok :
    t.walkIn origin (part :: steps) = .ok folder ↔
      isIdle part = true ∧ t.walkIn origin steps = .ok folder ∨
      isIdle part = false ∧ part = ".." ∧ t.walkIn origin.dropLast steps = .ok folder ∨
      isIdle part = false ∧ part ≠ ".." ∧ isTooLong part = false ∧ t.find? (origin ++ [part]) = some .folder ∧
        t.walkIn (origin ++ [part]) steps = .ok folder := by
  unfold walkIn
  rw [List.cons_append, walk]
  rcases hidle : isIdle part with _ | _
  · by_cases hup : part = ".."
    · simp [hup]
    · rcases hlong : isTooLong part with _ | _
      · rcases hfind : t.find? (origin ++ [part]) with _ | ⟨content | _⟩ <;> simp [hup]
      · simp [hup]
  · simp

/-- Trees with the same folders are walked through alike. -/
theorem SameFolders.walkIn (h : SameFolders t t') (hwalk : t.walkIn origin steps = .ok folder) :
    t'.walkIn origin steps = .ok folder := by
  induction steps generalizing origin with
  | nil => exact hwalk
  | cons part steps ih =>
      rw [walkIn_cons_eq_ok] at hwalk ⊢
      rcases hwalk with ⟨hidle, hwalk⟩ | ⟨hidle, hup, hwalk⟩ | ⟨hidle, hup, hlong, hfolder, hwalk⟩
      · exact .inl ⟨hidle, ih hwalk⟩
      · exact .inr (.inl ⟨hidle, hup, ih hwalk⟩)
      · exact .inr (.inr ⟨hidle, hup, hlong, (h.folder _).mpr hfolder, ih hwalk⟩)

/-- Behind the folder that the first parts lead to, a path goes on as if it started there. -/
theorem walk_append (hwalk : t.walkIn origin steps = .ok folder) (hrest : rest ≠ []) :
    t.walk origin (steps ++ rest) = t.walk folder rest := by
  induction steps generalizing origin with
  | nil =>
      cases hwalk
      rfl
  | cons part steps ih =>
      have hne : steps ++ rest ≠ [] := by simp [hrest]
      rw [List.cons_append, walk]
      rcases walkIn_cons_eq_ok.mp hwalk with ⟨hidle, hwalk⟩ | ⟨hidle, hup, hwalk⟩ | ⟨hidle, hup, hlong, hfolder, hwalk⟩
      · rw [if_pos hidle]
        exact ih hwalk
      · rw [hidle, if_neg Bool.false_ne_true, if_pos hup]
        exact ih hwalk
      · rw [hidle, hlong, if_neg Bool.false_ne_true, if_neg hup, if_neg Bool.false_ne_true, hfolder]
        exact ih hwalk

/-- Walking to a folder goes through folders only. -/
theorem walkIn_of_walk (hwalk : t.walk origin steps = .ok folder) (hfolder : t.find? folder = some .folder) :
    t.walkIn origin steps = .ok folder := by
  induction steps generalizing origin with
  | nil => exact hwalk
  | cons part steps ih =>
      rw [walk] at hwalk
      rw [walkIn_cons_eq_ok]
      split at hwalk
      · next hidle => exact .inl ⟨hidle, ih hwalk⟩
      · next hidle =>
        rw [Bool.not_eq_true] at hidle
        split at hwalk
        · next hup => exact .inr (.inl ⟨hidle, hup, ih hwalk⟩)
        · next hup =>
          split at hwalk
          · simp at hwalk
          · next hlong =>
            rw [Bool.not_eq_true] at hlong
            split at hwalk
            · simp at hwalk
            · next hfind => exact .inr (.inr ⟨hidle, hup, hlong, hfind, ih hwalk⟩)
            · next content hfind =>
              split at hwalk
              · -- The last part is a file, and not the folder.
                cases hwalk
                rw [hfind] at hfolder
                simp at hfolder
              · simp at hwalk

/-- A way that can be walked within folders can be walked. -/
theorem walk_of_walkIn (hwalk : t.walkIn origin steps = .ok folder) : t.walk origin steps = .ok folder := by
  induction steps generalizing origin with
  | nil => exact hwalk
  | cons part steps ih =>
      rw [walk]
      rcases walkIn_cons_eq_ok.mp hwalk with ⟨hidle, hwalk⟩ | ⟨hidle, hup, hwalk⟩ | ⟨hidle, hup, hlong, hfolder, hwalk⟩
      · rw [if_pos hidle]
        exact ih hwalk
      · rw [hidle, if_neg Bool.false_ne_true, if_pos hup]
        exact ih hwalk
      · rw [hidle, hlong, if_neg Bool.false_ne_true, if_neg hup, if_neg Bool.false_ne_true, hfolder]
        exact ih hwalk

/-! ## The words of a path -/

/-- Where steps lead by their words, whatever is there. -/
def resolve (origin : Place) : List String → Place
  | [] => origin
  | part :: rest =>
    if isIdle part then resolve origin rest
    else if part = ".." then resolve origin.dropLast rest
    else resolve (origin ++ [part]) rest

/-- A way in two parts is resolved part by part. -/
theorem resolve_append (origin : Place) (steps rest : List String) :
    resolve origin (steps ++ rest) = resolve (resolve origin steps) rest := by
  induction steps generalizing origin with
  | nil => rfl
  | cons part steps ih =>
      rw [List.cons_append, resolve, resolve]
      split
      · exact ih _
      · split <;> exact ih _

/-- A walk that comes to an end comes to where the words of the path lead. -/
theorem walk_eq_resolve {p : Place} (hwalk : t.walk origin steps = .ok p) : p = resolve origin steps := by
  induction steps generalizing origin with
  | nil =>
      cases hwalk
      rfl
  | cons part steps ih =>
      rw [walk] at hwalk
      rw [resolve]
      split at hwalk
      · next hidle =>
        rw [if_pos hidle]
        exact ih hwalk
      · next hidle =>
        rw [if_neg hidle]
        split at hwalk
        · next hup =>
          rw [if_pos hup]
          exact ih hwalk
        · next hup =>
          rw [if_neg hup]
          split at hwalk
          · simp at hwalk
          · split at hwalk
            · simp at hwalk
            · exact ih hwalk
            · split at hwalk
              · next hempty =>
                cases hwalk
                rw [List.isEmpty_iff.mp hempty]
                rfl
              · simp at hwalk

/-- The place that the words of a path stand for. -/
def placeOf (t : FileTree) (path : String) : Place := resolve (t.origin path) (parts path)

/-- The place of a path depends on the home folder alone. -/
theorem placeOf_of_home (h : t'.home = t.home) (path : String) : t'.placeOf path = t.placeOf path := by
  unfold placeOf FileTree.origin
  rw [h]

/-- The steps to a folder lead to the place of its path. -/
theorem resolve_folderParts (origin : Place) (dir : String) :
    resolve origin (folderParts dir) = resolve origin (parts dir) := by
  unfold folderParts
  split
  · next hempty =>
    rw [String.isEmpty_iff.mp hempty]
    rfl
  · split
    · next hend =>
      obtain ⟨front, hfront⟩ := endsWith_slash.mp hend
      have hparts : parts dir = (splitSlashes front).map String.ofList ++ [""] := by
        unfold parts
        rw [← hfront, splitSlashes_append, List.map_append]
        rfl
      rw [hparts, List.dropLast_concat, resolve_append]
      rfl
    · rfl

/-- The path of a file in a folder begins where that of the folder does. -/
theorem origin_join (t : FileTree) (dir : String) {file : String} (hfile : '/' ∉ file.toList) :
    t.origin (join dir file) = t.origin dir := by
  have hstart := startsWith_slash_of_notMem hfile
  unfold join
  rw [hstart, Bool.false_or]
  unfold origin
  by_cases hempty : dir.isEmpty = true
  · rw [if_pos hempty, hstart, String.isEmpty_iff.mp hempty]
    rfl
  · have hnil : dir.toList ≠ [] := by simpa using hempty
    have happend (s : String) : (dir ++ s).startsWith "/" = dir.startsWith "/" := by
      rw [Bool.eq_iff_iff, startsWith_slash, startsWith_slash, String.toList_append]
      obtain ⟨c, cs, hcs⟩ := List.exists_cons_of_ne_nil hnil
      simp [hcs]
    rw [if_neg hempty]
    split
    · rw [happend]
    · rw [String.append_assoc, happend]

/-- A name in a folder stands for what has the name in the place that the folder stands for. -/
theorem placeOf_join (t : FileTree) (dir : String) {file : String} (hfile : '/' ∉ file.toList)
    (hnamed : isIdle file = false) (hup : file ≠ "..") :
    t.placeOf (join dir file) = t.placeOf dir ++ [file] := by
  unfold placeOf
  rw [origin_join t dir hfile, parts_join hfile, resolve_append, resolve_folderParts]
  simp [resolve, hnamed, hup]

end FileTree

end Routecraft.Files
