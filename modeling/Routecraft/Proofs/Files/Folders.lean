import Routecraft.Proofs.Files.Changes

/-!
# Making folders

Making folders leaves all files as they are, whether it succeeds or not. Once it has succeeded, making the same
folders again changes nothing, as long as none of them is taken away.

* `FileTree.Grows`: a tree with more folders; `grows_makeFolders`.
* `FileTree.makeFolders_of_locate`, `FileTree.makeFolders_again`: folders that are there are not made.
-/

namespace Routecraft.Files.FileTree

variable {t t' t'' : FileTree} {origin p : Place} {steps way : List String} {path : String}

/-! ## More folders -/

/-- A tree with more folders, and nothing else that is different. -/
structure Grows (t t' : FileTree) : Prop where
  home : t'.home = t.home
  find : ∀ p, t'.find? p = t.find? p ∨ t.find? p = none ∧ t'.find? p = some .folder

namespace Grows

theorem refl (t : FileTree) : Grows t t := ⟨rfl, fun _ => .inl rfl⟩

theorem trans (h : Grows t t') (h' : Grows t' t'') : Grows t t'' := by
  refine ⟨h'.home.trans h.home, fun p => ?_⟩
  rcases h.find p with heq | ⟨hnone, hfolder⟩ <;> rcases h'.find p with heq' | ⟨hnone', hfolder'⟩
  · exact .inl (heq'.trans heq)
  · exact .inr ⟨heq ▸ hnone', hfolder'⟩
  · exact .inr ⟨hnone, heq'.trans hfolder⟩
  · rw [hfolder] at hnone'
    simp at hnone'

/-- All files stay as they are. -/
theorem file (h : Grows t t') (content : List UInt8) :
    t'.find? p = some (.file content) ↔ t.find? p = some (.file content) := by
  rcases h.find p with heq | ⟨hnone, hfolder⟩
  · rw [heq]
  · simp [hnone, hfolder]

/-- Folders stay when a tree grows. -/
theorem folder (h : Grows t t') (hfolder : t.find? p = some .folder) : t'.find? p = some .folder := by
  rcases h.find p with heq | ⟨-, hfolder'⟩
  · rw [heq, hfolder]
  · exact hfolder'

/-- A way that can be walked can be walked also when the tree has grown. -/
theorem walkIn (h : Grows t t') (hwalk : t.walkIn origin steps = .ok p) : t'.walkIn origin steps = .ok p := by
  induction steps generalizing origin with
  | nil => exact hwalk
  | cons part steps ih =>
      rw [walkIn_cons_eq_ok] at hwalk ⊢
      rcases hwalk with ⟨hidle, hwalk⟩ | ⟨hidle, hup, hwalk⟩ | ⟨hidle, hup, hlong, hfolder, hwalk⟩
      · exact .inl ⟨hidle, ih hwalk⟩
      · exact .inr (.inl ⟨hidle, hup, ih hwalk⟩)
      · exact .inr (.inr ⟨hidle, hup, hlong, h.folder hfolder, ih hwalk⟩)

end Grows

theorem grows_put (hnone : t.find? p = none) : Grows t (t.put p .folder) := by
  refine ⟨rfl, fun q => ?_⟩
  rw [find?_put (by simp [hnone])]
  split
  · next hq => exact .inr ⟨hq ▸ hnone, rfl⟩
  · exact .inl rfl

/-! ## Making a folder -/

/-- A folder is made where nothing is, in a folder that is there. -/
theorem makeFolder_eq_ok (h : t.makeFolder origin way = .ok t') :
    ∃ front name idle folder, way = front ++ name :: idle ∧ (∀ part ∈ idle, part = "") ∧ isIdle name = false ∧
      name ≠ ".." ∧ isTooLong name = false ∧ t.walkIn origin front = .ok folder ∧
      t.find? (folder ++ [name]) = none ∧ t' = t.put (folder ++ [name]) .folder := by
  unfold makeFolder at h
  obtain ⟨s, hlast, h⟩ := bind_eq_ok.mp h
  split at h
  · simp at h
  · next hnamed =>
    simp only [Bool.not_eq_true', Bool.not_eq_false] at hnamed
    split at h
    · simp at h
    · next hlong =>
      split at h
      · simp at h
      · next hnone =>
        cases h
        obtain ⟨front, idle, hway, hidle, hwalk, -⟩ := way_of_lastStepFrom hlast hnamed
        obtain ⟨hname, hup⟩ := isNamed_iff.mp hnamed
        exact ⟨front, s.name, idle, s.folder, hway, hidle, hname, hup, by simpa using hlong, hwalk,
          by simpa [LastStep.place] using hnone, rfl⟩

/-- Making a folder lets the tree grow. -/
theorem grows_makeFolder (h : t.makeFolder origin way = .ok t') : Grows t t' := by
  obtain ⟨front, name, idle, folder, -, -, -, -, -, -, hnone, rfl⟩ := makeFolder_eq_ok h
  exact grows_put hnone

/-- Names without letters lead nowhere. -/
theorem walk_of_idle (h : ∀ part ∈ steps, part = "") : t.walk origin steps = .ok origin := by
  induction steps with
  | nil => rfl
  | cons part steps ih =>
      obtain ⟨rfl, hsteps⟩ := List.forall_mem_cons.mp h
      exact ih hsteps

/-- The folder that has been made is where the way leads. -/
theorem walk_of_makeFolder (h : t.makeFolder origin way = .ok t') :
    ∃ p, t'.walk origin way = .ok p ∧ t'.find? p = some .folder := by
  have hgrows := grows_makeFolder h
  obtain ⟨front, name, idle, folder, rfl, hidle, hname, hup, hlong, hwalk, hnone, rfl⟩ := makeFolder_eq_ok h
  have hmade : (t.put (folder ++ [name]) .folder).find? (folder ++ [name]) = some .folder := by
    rw [find?_put (by simp [hnone]), if_pos rfl]
  refine ⟨folder ++ [name], ?_, hmade⟩
  rw [walk_append (hgrows.walkIn hwalk) (by simp), walk, hname, hlong, if_neg Bool.false_ne_true, if_neg hup,
    if_neg Bool.false_ne_true, hmade]
  exact walk_of_idle hidle

/-- No folder is made where one is. -/
theorem not_makeFolder (hwalk : t.walk origin way = .ok p) : t.makeFolder origin way ≠ .ok t' := by
  intro h
  obtain ⟨front, name, idle, folder, rfl, -, hname, hup, hlong, hfront, hnone, -⟩ := makeFolder_eq_ok h
  rw [walk_append hfront (by simp), walk, hname, hlong, if_neg Bool.false_ne_true, if_neg hup,
    if_neg Bool.false_ne_true, hnone] at hwalk
  simp at hwalk

theorem grows_ensureFolder (t : FileTree) (origin : Place) (way : List String) :
    Grows t (t.ensureFolder origin way).2 := by
  unfold ensureFolder
  split
  · next hmade => exact grows_makeFolder hmade
  · split <;> exact Grows.refl t

theorem walk_of_ensureFolder (h : t.ensureFolder origin way = (.ok (), t')) :
    ∃ p, t'.walk origin way = .ok p ∧ t'.find? p = some .folder := by
  unfold ensureFolder at h
  split at h
  · next hmade =>
    cases h
    exact walk_of_makeFolder hmade
  · split at h
    · next hthere =>
      cases h
      obtain ⟨p, hwalk, hfolder⟩ := Option.bind_eq_some_iff.mp hthere
      refine ⟨p, ?_, hfolder⟩
      cases hresult : t.walk origin way with
      | error e => simp [hresult, Except.toOption] at hwalk
      | ok q =>
          rw [hresult] at hwalk
          cases hwalk
          rfl
    · cases h

/-- A folder that is there is ensured as it is. -/
theorem ensureFolder_of_walk (hwalk : t.walk origin way = .ok p) (hfolder : t.find? p = some .folder) :
    t.ensureFolder origin way = (.ok (), t) := by
  unfold ensureFolder
  split
  · next hmade => exact absurd hmade (not_makeFolder hwalk)
  · rw [if_pos]
    rw [hwalk]
    exact hfolder

/-! ## Making several folders -/

/-- Making folders lets the tree grow, also if it fails. -/
theorem grows_makeFoldersOn (t : FileTree) (origin : Place) (ways : List (List String)) :
    Grows t (t.makeFoldersOn origin ways).2 := by
  induction ways generalizing t with
  | nil => exact Grows.refl t
  | cons way shorter ih =>
      have hfirst := grows_ensureFolder t origin way
      unfold makeFoldersOn
      split
      · next t₁ hensure =>
        rw [hensure] at hfirst
        have hshorter := hfirst.trans (ih t₁)
        split
        · next t₂ hmade =>
          rw [hmade] at hshorter
          exact hshorter.trans (grows_ensureFolder t₂ origin way)
        · next e t₂ hmade =>
          rw [hmade] at hshorter
          exact hshorter
      · exact hfirst

/-- The way to the folder that was asked for can be walked. -/
theorem walk_of_makeFoldersOn {shorter : List (List String)}
    (h : t.makeFoldersOn origin (way :: shorter) = (.ok (), t')) :
    ∃ p, t'.walk origin way = .ok p ∧ t'.find? p = some .folder := by
  unfold makeFoldersOn at h
  split at h
  · split at h
    · exact walk_of_ensureFolder h
    · cases h
  · exact walk_of_ensureFolder h

/-- **Making folders leaves all files as they are.** -/
theorem grows_makeFolders (t : FileTree) (path : String) : Grows t (t.makeFolders path).2 := by
  unfold makeFolders
  split
  · exact Grows.refl t
  · split
    · exact grows_makeFoldersOn t _ _
    · exact Grows.refl t

/-- **Folders that are there are not made.** -/
theorem makeFolders_of_locate (h : t.locate path = .ok p) (hfolder : t.find? p = some .folder) :
    t.makeFolders path = (.ok (), t) := by
  obtain ⟨⟨⟩, hcheck, hwalk⟩ := bind_eq_ok.mp h
  unfold makeFolders
  split
  · rfl
  · rw [hcheck]
    simp only [makeFoldersOn, ensureFolder_of_walk hwalk hfolder]

/-- Nor are they made again. -/
theorem makeFolders_again (h : t.makeFolders path = (.ok (), t')) (hsame : SameFolders t' t'') :
    t''.makeFolders path = (.ok (), t'') := by
  have hhome : t'.home = t.home := by
    have hgrows := grows_makeFolders t path
    rw [h] at hgrows
    exact hgrows.home
  unfold makeFolders at h
  split at h
  · next hempty =>
    unfold makeFolders
    rw [if_pos hempty]
  · split at h
    · next hcheck =>
      have horigin : t''.origin path = t.origin path := by
        unfold origin
        rw [hsame.home, hhome]
      obtain ⟨p, hwalk, hfolder⟩ := walk_of_makeFoldersOn h
      refine makeFolders_of_locate (p := p) (bind_eq_ok.mpr ⟨(), hcheck, ?_⟩) ((hsame.folder p).mpr hfolder)
      rw [horigin]
      exact walk_of_walkIn (hsame.walkIn (walkIn_of_walk hwalk hfolder))
    · cases h

end Routecraft.Files.FileTree
