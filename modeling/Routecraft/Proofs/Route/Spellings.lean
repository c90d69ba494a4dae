import Mathlib.Data.List.Induction
import Routecraft.Proofs.Compile.RouteNames

/-!
# Spellings of patterns

A pattern that is brought to its normal form and then mounted should come out like one that is mounted as it was
written. Runs of slashes are kept inside the braces of a variable, so it matters where the braces are: if each of
them is closed, the spelling makes no difference, and if one is left open, it may.

* `Pattern.squeezed`: what is written of a pattern, in order.
* `Pattern.FitsBelow`, `Pattern.EndsOpen`: the patterns whose spelling makes no difference, or does.
* `Pattern.normalizeChars_below_iff`, `Pattern.normalizeChars_normalizeChars_iff`: the exact conditions.
* `Controller.spellings_agree_iff`: what they mean for controllers.
-/

namespace Routecraft

namespace Pattern

/-! ## Open braces and slashes -/

/-- The count of open braces behind a character. -/
def openStep (depth : Nat) (c : Char) : Nat :=
  if c = '\x7b' then depth + 1 else if c = '\x7d' then depth - 1 else depth

def openAfter (depth : Nat) (cs : List Char) : Nat := cs.foldl openStep depth

/-- Whether a slash stands directly in front of what follows some characters. -/
def slashAfter (slash : Bool) (cs : List Char) : Bool := cs.foldl (fun _ c => c == '/') slash

/-- What is written of characters behind `depth` open braces and, if `slash` holds, directly behind a slash. -/
def squeezed (depth : Nat) (slash : Bool) : List Char → List Char
  | [] => []
  | c :: rest =>
    if c = '/' ∧ depth = 0 ∧ slash = true then squeezed (openStep depth c) (c == '/') rest
    else c :: squeezed (openStep depth c) (c == '/') rest

variable {d e depth : Nat} {s slash : Bool} {c : Char} {cs u v w : List Char}

@[simp] theorem openStep_slash (depth : Nat) : openStep depth '/' = depth := rfl

/-- A character opens no fewer braces where more are open. -/
theorem openStep_mono (h : d ≤ e) (c : Char) : openStep d c ≤ openStep e c := by
  unfold openStep
  grind

@[simp] theorem openAfter_nil (depth : Nat) : openAfter depth [] = depth := rfl

@[simp] theorem openAfter_cons (depth : Nat) (c : Char) (cs : List Char) :
    openAfter depth (c :: cs) = openAfter (openStep depth c) cs := rfl

@[simp] theorem openAfter_append (depth : Nat) (u v : List Char) :
    openAfter depth (u ++ v) = openAfter (openAfter depth u) v := List.foldl_append

@[simp] theorem slashAfter_nil (slash : Bool) : slashAfter slash [] = slash := rfl

@[simp] theorem slashAfter_cons (slash : Bool) (c : Char) (cs : List Char) :
    slashAfter slash (c :: cs) = slashAfter (c == '/') cs := rfl

@[simp] theorem slashAfter_append (slash : Bool) (u v : List Char) :
    slashAfter slash (u ++ v) = slashAfter (slashAfter slash u) v := List.foldl_append

/-- Characters are none, or end with a slash, or end with something else. -/
theorem ending_cases (cs : List Char) :
    cs = [] ∨ (∃ u, cs = u ++ ['/']) ∨ ∃ u c, cs = u ++ [c] ∧ c ≠ '/' := by
  rcases List.eq_nil_or_concat cs with rfl | ⟨u, c, rfl⟩
  · exact .inl rfl
  · rw [List.concat_eq_append]
    by_cases hc : c = '/'
    · exact .inr (.inl ⟨u, by rw [hc]⟩)
    · exact .inr (.inr ⟨u, c, rfl, hc⟩)

/-- Behind a slash, a slash stands in front of what follows characters that are none or end with one. -/
theorem slashAfter_eq_true_iff : slashAfter true cs = true ↔ cs = [] ∨ ∃ u, cs = u ++ ['/'] := by
  rcases ending_cases cs with rfl | ⟨u, rfl⟩ | ⟨u, c, rfl, hc⟩
  · simp
  · simp
  · simp [hc]

/-! ## What is written -/

/-- Squeezing onto a text puts what is squeezed in front of it. -/
theorem squeeze_eq (depth : Nat) (out cs : List Char) :
    squeeze depth out cs = (squeezed depth (out.head? == some '/') cs).reverse ++ out := by
  induction cs generalizing depth out with
  | nil => rfl
  | cons c cs ih =>
      rw [squeeze, squeezed]
      by_cases hopen : c = '\x7b'
      · subst hopen
        simp [ih, openStep]
      by_cases hclose : c = '\x7d'
      · subst hclose
        simp [ih, openStep]
      by_cases hdrop : c = '/' ∧ depth = 0 ∧ out.head? = some '/'
      · obtain ⟨rfl, rfl, hslash⟩ := hdrop
        simp [ih, hslash]
      · have hstep : openStep depth c = depth := by simp [openStep, hopen, hclose]
        have hkept : ¬(c = '/' ∧ depth = 0 ∧ (out.head? == some '/') = true) := by simpa using hdrop
        rw [if_neg hopen, if_neg hclose, if_neg hdrop, if_neg hkept, ih, hstep]
        simp

/-- A text in two parts is squeezed part by part. -/
theorem squeezed_append (depth : Nat) (slash : Bool) (u v : List Char) :
    squeezed depth slash (u ++ v) = squeezed depth slash u ++ squeezed (openAfter depth u) (slashAfter slash u) v := by
  induction u generalizing depth slash with
  | nil => rfl
  | cons c u ih =>
      rw [List.cons_append, squeezed, squeezed, ih, openAfter_cons, slashAfter_cons]
      split <;> simp

/-- Squeezing keeps the braces. -/
@[simp] theorem openAfter_squeezed (depth : Nat) (slash : Bool) (cs : List Char) :
    openAfter depth (squeezed depth slash cs) = openAfter depth cs := by
  induction cs generalizing depth slash with
  | nil => rfl
  | cons c cs ih =>
      rw [squeezed]
      split
      · next hdrop =>
        obtain ⟨rfl, rfl, -⟩ := hdrop
        exact ih 0 true
      · exact ih _ _

/-- Squeezing keeps a slash at the end. -/
@[simp] theorem slashAfter_squeezed (depth : Nat) (slash : Bool) (cs : List Char) :
    slashAfter slash (squeezed depth slash cs) = slashAfter slash cs := by
  induction cs generalizing depth slash with
  | nil => rfl
  | cons c cs ih =>
      rw [squeezed]
      split
      · next hdrop =>
        obtain ⟨rfl, rfl, rfl⟩ := hdrop
        exact ih 0 true
      · exact ih _ _

/-- What is written behind a slash outside all braces does not begin with one. -/
theorem squeezed_ne_slash (cs v : List Char) : squeezed 0 true cs ≠ '/' :: v := by
  induction cs with
  | nil => simp [squeezed]
  | cons c cs ih =>
      rw [squeezed]
      split
      · next hdrop =>
        obtain ⟨rfl, -, -⟩ := hdrop
        exact ih
      · next hkept =>
        intro h
        exact hkept ⟨(List.cons.inj h).1, rfl, rfl⟩

/-- What is written behind fewer open braces is written again behind more of them. -/
theorem squeezed_squeezed (h : d ≤ e) (slash : Bool) (cs : List Char) :
    squeezed e slash (squeezed d slash cs) = squeezed d slash cs := by
  induction cs generalizing d e slash with
  | nil => rfl
  | cons c cs ih =>
      rw [squeezed]
      split
      · next hdrop =>
        obtain ⟨rfl, rfl, rfl⟩ := hdrop
        exact ih h true
      · next hkept =>
        rw [squeezed, if_neg, ih (openStep_mono h c)]
        grind

/-- Squeezing makes no text longer. -/
theorem length_squeezed_le (depth : Nat) (slash : Bool) (cs : List Char) :
    (squeezed depth slash cs).length ≤ cs.length := by
  induction cs generalizing depth slash with
  | nil => exact Nat.le_refl _
  | cons c cs ih =>
      rw [squeezed]
      split
      · exact Nat.le_succ_of_le (ih _ _)
      · exact Nat.succ_le_succ (ih _ _)

/-- If all of some characters is written, so is all of the first ones. -/
theorem squeezed_eq_self_of_append (h : squeezed d slash (u ++ v) = u ++ v) : squeezed d slash u = u := by
  rw [squeezed_append] at h
  have hlength := congrArg List.length h
  rw [List.length_append, List.length_append] at hlength
  have hu := length_squeezed_le d slash u
  have hv := length_squeezed_le (openAfter d u) (slashAfter slash u) v
  exact (List.append_inj h (by omega)).1

/-- Behind more open braces no less is written. -/
theorem squeezed_sublist (h : d ≤ e) (slash : Bool) (cs : List Char) :
    (squeezed d slash cs).Sublist (squeezed e slash cs) := by
  induction cs generalizing d e slash with
  | nil => exact .slnil
  | cons c cs ih =>
      have hrest := ih (openStep_mono h c) (c == '/')
      rw [squeezed, squeezed]
      split <;> split
      · exact hrest
      · exact hrest.cons c
      · grind
      · exact hrest.cons_cons c

/-- Behind more open braces the same is written if no run of slashes is outside of the braces in one case only. -/
theorem squeezed_eq_iff (h : d ≤ e) (slash : Bool) (cs : List Char) :
    squeezed e slash cs = squeezed d slash cs ↔
      ∀ u v, cs = u ++ '/' :: v → slashAfter slash u = true → openAfter d u = 0 → openAfter e u = 0 := by
  induction cs generalizing d e slash with
  | nil => simp [squeezed]
  | cons c cs ih =>
      have hrest := ih (openStep_mono h c) (c == '/')
      -- The condition on the whole text is one on its first character, and the condition on the rest.
      have hsplit : (∀ u v, c :: cs = u ++ '/' :: v → slashAfter slash u = true → openAfter d u = 0 →
          openAfter e u = 0) ↔ (c = '/' → slash = true → d = 0 → e = 0) ∧
            squeezed (openStep e c) (c == '/') cs = squeezed (openStep d c) (c == '/') cs := by
        rw [hrest]
        constructor
        · intro hall
          refine ⟨fun hc => hall [] cs (by rw [hc]; rfl), fun u v hcs => hall (c :: u) v (by rw [hcs]; rfl)⟩
        · rintro ⟨hfirst, hlater⟩ u v hcs
          cases u with
          | nil => exact hfirst (List.cons.inj hcs).1
          | cons c' u =>
              obtain ⟨rfl, hrest⟩ := List.cons.inj hcs
              exact hlater u v hrest
      have hlength := (squeezed_sublist (openStep_mono h c) (c == '/') cs).length_le
      rw [hsplit, squeezed, squeezed]
      by_cases hd : c = '/' ∧ d = 0 ∧ slash = true
      · rw [if_pos hd]
        obtain ⟨rfl, rfl, rfl⟩ := hd
        by_cases he : e = 0
        · simp [he]
        · -- The slash is written in one case only, so the other text is longer.
          rw [if_neg (by simp [he])]
          constructor
          · intro heq
            have := congrArg List.length heq
            rw [List.length_cons] at this
            omega
          · rintro ⟨hfirst, -⟩
            exact absurd (hfirst rfl rfl rfl) he
      · rw [if_neg hd, if_neg (by grind), List.cons.injEq]
        grind

/-! ## The last slash -/

/-- Characters without the slash at their end. -/
def cut (cs : List Char) : List Char := if cs.getLast? = some '/' then cs.dropLast else cs

@[simp] theorem cut_nil : cut [] = [] := rfl

@[simp] theorem cut_concat_slash (u : List Char) : cut (u ++ ['/']) = u := by simp [cut]

theorem cut_concat (u : List Char) (hc : c ≠ '/') : cut (u ++ [c]) = u ++ [c] := by simp [cut, hc]

/-- Only the end of a text is cut. -/
theorem cut_append (u : List Char) (hv : v ≠ []) : cut (u ++ v) = u ++ cut v := by
  rcases ending_cases v with rfl | ⟨w, rfl⟩ | ⟨w, c, rfl, hc⟩
  · exact absurd rfl hv
  · rw [← List.append_assoc, cut_concat_slash, cut_concat_slash]
  · rw [← List.append_assoc, cut_concat _ hc, cut_concat _ hc, List.append_assoc]

theorem cut_cons (c : Char) (hv : v ≠ []) : cut (c :: v) = c :: cut v := cut_append [c] hv

/-- A text that does not end in a slash is not cut. -/
theorem cut_eq_self (h : slashAfter true cs = false) : cut cs = cs := by
  rcases ending_cases cs with rfl | ⟨u, rfl⟩ | ⟨u, c, rfl, hc⟩
  · rfl
  · simp at h
  · exact cut_concat u hc

/-- A text that does not begin with a slash is not cut away. -/
theorem cut_ne_nil (hcs : ∀ v, cs ≠ '/' :: v) (hne : cs ≠ []) : cut cs ≠ [] := by
  rcases ending_cases cs with rfl | ⟨u, rfl⟩ | ⟨u, c, rfl, hc⟩
  · exact absurd rfl hne
  · rw [cut_concat_slash]
    rintro rfl
    exact hcs [] rfl
  · simp [cut_concat u hc]

/-- Two slashes at the end are the last character and the one before it. -/
theorem concat_slashes : u ++ ['/', '/'] = v ++ [c] ↔ u ++ ['/'] = v ∧ '/' = c := by
  rw [show u ++ ['/', '/'] = (u ++ ['/']) ++ ['/'] by simp, List.append_singleton_inj]

/-- Nothing more is cut off, unless there are two slashes at the end. -/
theorem cut_cut_iff : cut (cut cs) = cut cs ↔ ¬∃ u, cs = u ++ ['/', '/'] := by
  rcases ending_cases cs with rfl | ⟨u, rfl⟩ | ⟨u, c, rfl, hc⟩
  · simp
  · rcases ending_cases u with rfl | ⟨w, rfl⟩ | ⟨w, c, rfl, hc⟩
    · simp [cut, eq_comm (a := ['/']), List.append_eq_singleton_iff]
    · rw [cut_concat_slash, cut_concat_slash]
      refine iff_of_false ?_ (not_not_intro ⟨w, by simp⟩)
      simp
    · rw [cut_concat_slash, cut_concat w hc]
      refine iff_of_true rfl ?_
      rintro ⟨v, hv⟩
      obtain ⟨hv, -⟩ := concat_slashes.mp hv.symm
      exact hc (List.append_singleton_inj.mp hv).2.symm
  · rw [cut_concat u hc, cut_concat u hc]
    refine iff_of_true rfl ?_
    rintro ⟨v, hv⟩
    exact hc (concat_slashes.mp hv.symm).2.symm

/-- On characters that are back to front, dropping a slash at the end is to cut, if there is more in front of it. -/
theorem dropLastSlash_concat (cs : List Char) (c : Char) :
    dropLastSlash (cs ++ [c]) = (cut cs.reverse).reverse ++ [c] := by
  cases cs with
  | nil => unfold dropLastSlash; split <;> simp_all
  | cons a cs =>
      by_cases ha : a = '/'
      · subst ha
        rw [List.reverse_cons, cut_concat_slash, List.reverse_reverse]
        cases cs with
        | nil => rfl
        | cons b cs => rfl
      · rw [List.reverse_cons, cut_concat _ ha]
        unfold dropLastSlash
        split <;> simp_all

/-- **The normal form** of a pattern is what is written of it behind a slash, without a slash at its end. -/
theorem normalizeChars_eq (cs : List Char) : normalizeChars cs = '/' :: cut (squeezed 0 true cs) := by
  rw [normalizeChars, squeeze_eq, dropLastSlash_concat]
  simp

/-- Squeezing once more changes nothing, even where more braces are open, but a slash at the end. -/
theorem squeezed_cut (h : d ≤ e) (slash : Bool) (cs : List Char) :
    squeezed e slash (cut (squeezed d slash cs)) = cut (squeezed d slash cs) := by
  have hall := squeezed_squeezed h slash cs
  rcases ending_cases (squeezed d slash cs) with hw | ⟨u, hw⟩ | ⟨u, c, hw, hc⟩
  · rw [hw]
    rfl
  · rw [hw] at hall ⊢
    rw [cut_concat_slash]
    exact squeezed_eq_self_of_append hall
  · rw [hw] at hall ⊢
    rw [cut_concat u hc]
    exact hall

/-! ## Where the spelling matters -/

/-- Whether characters end with a run of slashes inside a variable that is not closed. -/
def EndsOpen (cs : List Char) : Prop := ∃ u, cs = u ++ ['/', '/'] ∧ 0 < openAfter 0 u

/-- Whether a pattern below a path comes out the same in its normal form. -/
structure FitsBelow (path pattern : List Char) : Prop where
  /-- Inside a variable that the path leaves open, the first slash of the normal form is one more. -/
  begins : 0 < openAfter 0 path → ∃ rest, pattern = '/' :: rest
  /-- Inside such a variable, runs of slashes are kept that the normal form does not have. -/
  runs : ∀ u v, pattern = u ++ '/' :: '/' :: v → openAfter 0 u = 0 → openAfter (openAfter 0 path) u = 0
  /-- A slash at the end is left out twice, if there are two. -/
  ends : ¬EndsOpen pattern

/-- Two slashes are written at the end if they stand inside a variable that is not closed. -/
theorem squeezed_ends_iff (cs : List Char) : (∃ u, squeezed 0 true cs = u ++ ['/', '/']) ↔ EndsOpen cs := by
  induction cs using List.reverseRecOn with
  | nil => simp [squeezed, EndsOpen]
  | append_singleton cs c ih =>
      have hslash := slashAfter_squeezed 0 true cs
      have hopen := openAfter_squeezed 0 true cs
      rw [squeezed_append]
      simp only [squeezed]
      split
      · next hdrop =>
        -- Outside all variables neither text ends with two slashes.
        obtain ⟨rfl, hclosed, -⟩ := hdrop
        rw [List.append_nil, ih]
        apply iff_of_false
        · rintro ⟨u, rfl, hu⟩
          rw [openAfter_append] at hclosed
          exact absurd hclosed (Nat.ne_of_gt hu)
        · rintro ⟨u, hcs, hu⟩
          obtain ⟨rfl, -⟩ := concat_slashes.mp hcs.symm
          rw [openAfter_append] at hclosed
          exact absurd hclosed (Nat.ne_of_gt hu)
      · next hkept =>
        constructor
        · rintro ⟨u, hu⟩
          obtain ⟨hwritten, rfl⟩ := concat_slashes.mp hu.symm
          rw [← hwritten, slashAfter_append] at hslash
          have hpos : openAfter 0 cs ≠ 0 := fun h => hkept ⟨rfl, h, hslash.symm⟩
          rcases slashAfter_eq_true_iff.mp hslash.symm with rfl | ⟨w, rfl⟩
          · exact absurd rfl hpos
          · rw [openAfter_append] at hpos
            exact ⟨w, by simp, Nat.pos_of_ne_zero hpos⟩
        · rintro ⟨u, hcs, hu⟩
          obtain ⟨rfl, rfl⟩ := concat_slashes.mp hcs.symm
          rw [slashAfter_append] at hslash
          rcases slashAfter_eq_true_iff.mp hslash with hw | ⟨w, hw⟩
          · rw [hw, openAfter_append] at hopen
            exact absurd hopen (Nat.ne_of_lt hu)
          · exact ⟨w, by rw [hw]; simp⟩

/-- A second cut changes nothing, unless the text ends with slashes in an open brace. -/
theorem endsOpen_iff (cs : List Char) :
    cut (cut (squeezed 0 true cs)) = cut (squeezed 0 true cs) ↔ ¬EndsOpen cs := by
  rw [cut_cut_iff, squeezed_ends_iff]

/-- What is written of a pattern below a path, behind what is written of the path. -/
theorem squeezed_below (path : List Char) : ∃ front,
    (front = [] ∧ openAfter 0 path = 0 ∨ ∃ f, front = f ++ ['/']) ∧
      ∀ pattern, squeezed 0 true (path ++ '/' :: pattern) = front ++ squeezed (openAfter 0 path) true pattern := by
  have hslash := slashAfter_squeezed 0 true path
  by_cases hdrop : openAfter 0 path = 0 ∧ slashAfter true path = true
  · refine ⟨squeezed 0 true path, ?_, ?_⟩
    · rcases slashAfter_eq_true_iff.mp (hslash.trans hdrop.2) with hw | hw
      · exact .inl ⟨hw, hdrop.1⟩
      · exact .inr hw
    · intro pattern
      rw [squeezed_append, squeezed, if_pos ⟨rfl, hdrop⟩]
      rfl
  · refine ⟨squeezed 0 true path ++ ['/'], .inr ⟨_, rfl⟩, ?_⟩
    intro pattern
    rw [squeezed_append, squeezed, if_neg fun h => hdrop h.2, List.append_assoc]
    rfl

/-- Slashes behind slashes are runs of them, the first of which is the one in front. -/
theorem behind_slash_iff (d : Nat) (cs : List Char) :
    (∀ u v, cs = u ++ '/' :: v → slashAfter true u = true → openAfter 0 u = 0 → openAfter d u = 0) ↔
      ∀ u v, '/' :: cs = u ++ '/' :: '/' :: v → openAfter 0 u = 0 → openAfter d u = 0 := by
  constructor
  · intro hall u v hcs hu
    cases u with
    | nil => exact hall [] v (List.cons.inj hcs).2 rfl rfl
    | cons c u =>
        obtain ⟨rfl, hcs⟩ := List.cons.inj hcs
        have := hall (u ++ ['/']) v (by simpa using hcs) (by simp) (by simpa using hu)
        simpa using this
  · intro hall u v hcs hslash hu
    rcases slashAfter_eq_true_iff.mp hslash with rfl | ⟨w, rfl⟩
    · exact hall [] v (by rw [hcs]; rfl) rfl
    · have := hall ('/' :: w) v (by simp [hcs]) (by simpa using hu)
      simpa using this

/-- Inside a variable of the path, the normal form of a pattern is written out. -/
theorem begins_and_runs_iff (hd : 0 < d) (cs : List Char) :
    squeezed d true cs = '/' :: squeezed 0 true cs ↔
      (∃ rest, cs = '/' :: rest) ∧ ∀ u v, cs = u ++ '/' :: '/' :: v → openAfter 0 u = 0 → openAfter d u = 0 := by
  have hkept (c : Char) : ¬(c = '/' ∧ d = 0 ∧ true = true) := fun h => absurd h.2.1 (Nat.ne_of_gt hd)
  cases cs with
  | nil => simp [squeezed]
  | cons c cs =>
      rw [squeezed, if_neg (hkept c), List.cons.injEq]
      by_cases hc : c = '/'
      · subst hc
        rw [squeezed, if_pos ⟨rfl, rfl, rfl⟩]
        rw [← behind_slash_iff, ← squeezed_eq_iff (Nat.zero_le d)]
        simp
      · simp [hc]

/-- A pattern fits below a path if it is squeezed there as it is alone. -/
theorem fitsBelow_iff (path pattern : List Char) : FitsBelow path pattern ↔
    (0 < openAfter 0 path → squeezed (openAfter 0 path) true pattern = '/' :: squeezed 0 true pattern) ∧
      ¬EndsOpen pattern := by
  constructor
  · rintro ⟨hbegins, hruns, hends⟩
    exact ⟨fun hd => (begins_and_runs_iff hd _).mpr ⟨hbegins hd, hruns⟩, hends⟩
  · rintro ⟨hopen, hends⟩
    refine ⟨fun hd => ((begins_and_runs_iff hd _).mp (hopen hd)).1, ?_, hends⟩
    intro u v hpattern hu
    rcases Nat.eq_zero_or_pos (openAfter 0 path) with hd | hd
    · rw [hd, hu]
    · exact ((begins_and_runs_iff hd _).mp (hopen hd)).2 u v hpattern hu

/-- When the normal form and the pattern itself lose the same slash, inside a variable of the path. -/
theorem cut_below_iff (f : List Char) (hslash : slashAfter true v = slashAfter true w) (hsublist : w.Sublist v)
    (hfirst : ∀ x, w ≠ '/' :: x) :
    cut (f ++ ['/'] ++ '/' :: cut w) = cut (f ++ ['/'] ++ v) ↔ v = '/' :: w ∧ cut (cut w) = cut w := by
  constructor
  · intro h
    have hv : v ≠ [] := by
      rintro rfl
      obtain rfl := List.sublist_nil.mp hsublist
      rw [List.append_nil, cut_nil, cut_concat_slash, cut_concat_slash] at h
      simp at h
    rw [cut_append _ (List.cons_ne_nil _ _), cut_append _ hv, List.append_cancel_left_eq] at h
    cases hs : slashAfter true v with
    | false =>
        have hw : cut w = w := cut_eq_self (hslash.symm.trans hs)
        have hne : w ≠ [] := by
          rintro rfl
          rw [hs] at hslash
          cases hslash
        rw [cut_eq_self hs, hw, cut_cons _ hne, hw] at h
        exact ⟨h.symm, by rw [hw, hw]⟩
    | true =>
        -- Both end with a slash, and without it the pattern is the normal form.
        obtain rfl | ⟨y, rfl⟩ := slashAfter_eq_true_iff.mp hs
        · exact absurd rfl hv
        · rcases slashAfter_eq_true_iff.mp (hslash.symm.trans hs) with rfl | ⟨x, rfl⟩
          · rw [cut_concat_slash] at h
            rw [← h]
            exact ⟨rfl, rfl⟩
          · have hx : x ≠ [] := fun hx => hfirst [] (by rw [hx]; rfl)
            rw [cut_concat_slash, cut_concat_slash, cut_cons _ hx] at h
            rcases ending_cases x with rfl | ⟨z, rfl⟩ | ⟨z, c, rfl, hc⟩
            · exact absurd rfl hx
            · rw [cut_concat_slash] at h
              refine absurd (hsublist.eq_of_length ?_) ?_
              · simp [← h]
              · rw [← h]
                exact hfirst _
            · rw [cut_concat z hc] at h
              rw [← h, cut_concat_slash, cut_concat z hc]
              exact ⟨rfl, rfl⟩
  · rintro ⟨rfl, hw⟩
    rw [cut_append _ (List.cons_ne_nil _ _), cut_append _ (List.cons_ne_nil _ _)]
    by_cases hne : w = []
    · rw [hne]
      rfl
    · rw [cut_cons _ (cut_ne_nil hfirst hne), cut_cons _ hne, hw]

/-- **Mounting a normal form** is mounting the pattern as it was written, exactly if it fits below the path. -/
theorem normalizeChars_below_iff (path pattern : List Char) :
    normalizeChars (path ++ '/' :: normalizeChars pattern) = normalizeChars (path ++ '/' :: pattern) ↔
      FitsBelow path pattern := by
  obtain ⟨front, hfront, hbelow⟩ := squeezed_below path
  simp only [normalizeChars_eq, List.cons.injEq, true_and, hbelow]
  have hkept := squeezed_cut (Nat.zero_le (openAfter 0 path)) true pattern
  rw [fitsBelow_iff, ← endsOpen_iff]
  rcases Nat.eq_zero_or_pos (openAfter 0 path) with hd | hd
  · -- The path closes its variables, so only the slash at the end can make a difference.
    rw [hd] at hkept ⊢
    rw [squeezed, if_pos ⟨rfl, rfl, rfl⟩, openStep_slash, beq_self_eq_true, hkept]
    by_cases hw : squeezed 0 true pattern = []
    · simp [hw]
    · rw [cut_append _ hw, cut_append _ (cut_ne_nil (squeezed_ne_slash pattern) hw), List.append_cancel_left_eq]
      simp
  · obtain ⟨rfl, hclosed⟩ | ⟨f, rfl⟩ := hfront
    · exact absurd hclosed (Nat.ne_of_gt hd)
    · rw [squeezed, if_neg fun h => absurd h.2.1 (Nat.ne_of_gt hd), openStep_slash, beq_self_eq_true, hkept,
        cut_below_iff]
      · simp [hd]
      · rw [slashAfter_squeezed, slashAfter_squeezed]
      · exact squeezed_sublist (Nat.zero_le _) true pattern
      · exact squeezed_ne_slash pattern

/-- A normal form is its own, exactly if the pattern does not end inside a variable with two slashes. -/
theorem normalizeChars_normalizeChars_iff (cs : List Char) :
    normalizeChars (normalizeChars cs) = normalizeChars cs ↔ ¬EndsOpen cs := by
  rw [normalizeChars_eq cs, normalizeChars_eq ('/' :: _), squeezed, if_pos ⟨rfl, rfl, rfl⟩, openStep_slash,
    beq_self_eq_true, squeezed_cut (Nat.le_refl 0), List.cons.injEq, endsOpen_iff]
  simp

/-! ## Patterns below paths -/

/-- Joining a path and a pattern normalizes them with a slash in between. -/
theorem toList_join (path pattern : String) :
    (join path pattern).toList = normalizeChars (path.toList ++ '/' :: pattern.toList) := by
  simp [join, normalize]

/-- A pattern can be normalized before it is joined just where it fits below the path. -/
theorem join_normalize_iff (path pattern : String) :
    join path (normalize pattern) = join path pattern ↔ FitsBelow path.toList pattern.toList := by
  rw [← String.toList_inj, toList_join, toList_join, normalize, String.toList_ofList, normalizeChars_below_iff]

/-- What was joined is normal just where it does not end in an open brace. -/
theorem join_join_iff (path pattern : String) :
    join "" (join path pattern) = join path pattern ↔ ¬EndsOpen (path.toList ++ '/' :: pattern.toList) := by
  have hempty (cs : List Char) : normalizeChars ('/' :: cs) = normalizeChars cs := by
    rw [normalizeChars_eq, normalizeChars_eq, squeezed, if_pos ⟨rfl, rfl, rfl⟩]
    rfl
  rw [← String.toList_inj, toList_join, toList_join, ← normalizeChars_normalizeChars_iff]
  show normalizeChars ('/' :: _) = _ ↔ _
  rw [hempty]

/-- The spelling makes no difference if the path and the pattern close their variables. -/
theorem join_eq_of_closed {path pattern : String} (hpath : openAfter 0 path.toList = 0)
    (hpattern : openAfter 0 pattern.toList = 0) :
    join path (normalize pattern) = join path pattern ∧ join "" (join path pattern) = join path pattern := by
  have hends {cs : List Char} (h : openAfter 0 cs = 0) : ¬EndsOpen cs := by
    rintro ⟨u, rfl, hu⟩
    rw [openAfter_append] at h
    exact absurd h (Nat.ne_of_gt hu)
  rw [join_normalize_iff, join_join_iff]
  refine ⟨⟨?_, ?_, hends hpattern⟩, hends (by simp [hpath, hpattern])⟩
  · intro hopen
    exact absurd hpath (Nat.ne_of_gt hopen)
  · intro u v _ hu
    rw [hpath, hu]

end Pattern

/-! ## Controllers -/

open Compile

/-- An endpoint with its pattern in normal form. -/
def Endpoint.normalized (e : Endpoint) : Endpoint := { e with pattern := Pattern.normalize e.pattern }

namespace Controller

/-- The controller with its endpoints brought to normal form and added one after the other. -/
def builtUp (c : Controller) : Controller :=
  (c.endpoints.map Endpoint.normalized).foldl withEndpoint { c with endpoints := [] }

/-- The mounted controller as its document describes it, which leaves out the path. -/
def described (c : Controller) : Controller := { c.mounted with path := "" }

theorem foldl_withEndpoint (c : Controller) (es : List Endpoint) :
    es.foldl withEndpoint c =
      { c with endpoints := c.endpoints ++ es.map fun e => { e with pattern := c.mount e.pattern } } := by
  induction es generalizing c with
  | nil => simp
  | cons e es ih =>
      rw [List.foldl_cons, ih]
      simp [withEndpoint, mount]

/-- Building a controller up normalizes the patterns of its endpoints. -/
theorem builtUp_eq (c : Controller) : c.builtUp =
    { c with endpoints := c.endpoints.map fun e =>
      { e with pattern := Pattern.join c.path (Pattern.normalize e.pattern) } } := by
  simp [builtUp, foldl_withEndpoint, mount, Endpoint.normalized, Function.comp_def]

/-- Mounting a controller joins its path and the patterns of its endpoints. -/
theorem mounted_described (c : Controller) : c.described.mounted =
    { c.described with endpoints := c.endpoints.map fun e =>
      { e with pattern := Pattern.join "" (Pattern.join c.path e.pattern) } } := by
  simp [described, mounted, mount, Function.comp_def]

/-- The name of a handler tells the pattern. -/
theorem handlerName_pattern_iff (e : Endpoint) {p q : String} :
    handlerName { e with pattern := p } = handlerName { e with pattern := q } ↔ p = q := by
  simp [handlerName, RouteName.render_inj, RouteName.of, Endpoint.paramNames]

/-- **Mounting is the same however a pattern is spelled**, exactly as far as the braces of its variables let it.
A pattern in normal form comes out below a path as it was written if it fits below the path, and a mounted pattern
stays what it is if it does not end with two slashes in a variable that is not closed. So the same holds of the
endpoints, and the names of the handlers, of a controller that is built up and of one that is mounted, and of a
mounted controller that is described without its path and mounted again. -/
theorem spellings_agree_iff (path pattern : String) :
    (Pattern.join path (Pattern.normalize pattern) = Pattern.join path pattern ↔
      Pattern.FitsBelow path.toList pattern.toList) ∧
    (Pattern.join "" (Pattern.join path pattern) = Pattern.join path pattern ↔
      ¬Pattern.EndsOpen (path.toList ++ '/' :: pattern.toList)) ∧
    ∀ c : Controller,
      (c.builtUp = c.mounted ↔ ∀ e ∈ c.endpoints, Pattern.FitsBelow c.path.toList e.pattern.toList) ∧
      (c.builtUp.endpoints.map handlerName = c.mounted.endpoints.map handlerName ↔
        ∀ e ∈ c.endpoints, Pattern.FitsBelow c.path.toList e.pattern.toList) ∧
      (c.described.mounted = c.described ↔
        ∀ e ∈ c.endpoints, ¬Pattern.EndsOpen (c.path.toList ++ '/' :: e.pattern.toList)) := by
  refine ⟨Pattern.join_normalize_iff path pattern, Pattern.join_join_iff path pattern, ?_⟩
  intro c
  simp only [← Pattern.join_normalize_iff, ← Pattern.join_join_iff]
  refine ⟨?_, ?_, ?_⟩
  · rw [builtUp_eq]
    simp [mounted, mount]
  · rw [builtUp_eq]
    simp [mounted, mount, handlerName_pattern_iff]
  · rw [mounted_described]
    simp [described, mounted, mount]

/-- Two slashes behind a brace that is never closed: each time that the pattern is brought to normal form, one of
them is left out. -/
theorem open_pattern_shrinks :
    Pattern.join "" "\x7b//" = "/\x7b/" ∧ Pattern.join "" "/\x7b/" = "/\x7b" ∧
    Pattern.join "" (Pattern.normalize "\x7b//") ≠ Pattern.join "" "\x7b//" ∧
    Pattern.join "" (Pattern.join "" "\x7b//") ≠ Pattern.join "" "\x7b//" := by
  decide

end Controller

end Routecraft
