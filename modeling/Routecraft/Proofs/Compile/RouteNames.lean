import Mathlib.Data.List.TakeWhile
import Mathlib.Tactic.IntervalCases
import Routecraft.Compile.RouteName

/-!
# Names stand for routes

The name of a handler tells which route it is for, and the name of a registration which controller, however
many of the characters in them are escaped. An escape is read in one way only, and it is the only way to
write its character; dollar signs stand between the parts and nowhere in them; and no verb begins like
another one.

* `Text.hexToNat?_hexNat`: the digits of a number are read back.
* `RouteName.unescape?_eq_some`: a text is read as the one that is written so.
* `RouteName.verbAndPattern?_eq_some`, `RouteName.splitOn_renderChars`: the parts of a name.
* `names_identify`: what a name stands for.
-/

namespace Routecraft

/-! ## Digits -/

namespace Text

/-- The characters of a hexadecimal number are its digits. -/
theorem mem_hexNat {c : Char} {n : Nat} (h : c ∈ hexNat n) : ∃ d < 16, c = Nat.digitChar d := by
  induction n using Nat.strongRecOn with
  | ind n ih =>
      rw [hexNat, Nat.toDigits_eq_if (by decide)] at h
      split at h
      · next hlt => exact ⟨n, hlt, List.mem_singleton.mp h⟩
      · next hle =>
        rcases List.mem_append.mp h with h | h
        · exact ih (n / 16) (by omega) h
        · exact ⟨n % 16, Nat.mod_lt n (by decide), List.mem_singleton.mp h⟩

/-- The character of a digit has its value. -/
theorem hexValue?_digitChar {d : Nat} (h : d < 16) : hexValue? (Nat.digitChar d) = some d := by
  interval_cases d <;> rfl

/-- The digits of a number are read back. -/
theorem hexToNat?_hexNat (n : Nat) : hexToNat? (hexNat n) = some n := by
  induction n using Nat.strongRecOn with
  | ind n ih =>
      rw [hexNat, Nat.toDigits_eq_if (by decide)]
      split
      · next hlt => simp [hexToNat?, hexValue?_digitChar hlt]
      · next hle =>
        -- The digits in front of the last one are those of a smaller number.
        have hinit : (Nat.toDigits 16 (n / 16)).foldlM (fun n c => (hexValue? c).map (n * 16 + ·)) 0 =
            some (n / 16) := ih (n / 16) (by omega)
        have hlast : hexValue? (Nat.digitChar (n % 16)) = some (n % 16) :=
          hexValue?_digitChar (Nat.mod_lt n (by decide))
        have hn : n / 16 * 16 + n % 16 = n := by omega
        simp [hexToNat?, List.foldlM_append, hinit, hlast, hn]

end Text

namespace Compile.RouteName

variable {keepDots : Bool} {c l : Char} {cs digits out rest : List Char}

/-! ## Escapes -/

theorem mem_letters_of_letter? (h : letter? c = some l) : (c, l) ∈ letters := by
  obtain ⟨before, after, heq, -⟩ := List.lookup_eq_some_iff.mp h
  rw [heq]
  exact List.mem_append_right _ List.mem_cons_self

/-- A letter stands for one character, and for nothing else in a name. -/
theorem letter_stands : ∀ p ∈ letters,
    ofLetter? p.2 = some p.1 ∧ letter? p.1 = some p.2 ∧ p.2 ≠ 'x' ∧ p.2 ≠ '$' := by
  decide

/-- A plain character is neither of the two that have a meaning in names. -/
theorem isPlain_ne (h : isPlain keepDots c = true) : c ≠ '_' ∧ c ≠ '$' := by
  constructor <;> (rintro rfl; cases keepDots <;> simp [isPlain] at h)

/-- An escaped character holds no dollar sign. -/
theorem dollar_notMem_escapeChar : '$' ∉ escapeChar keepDots c := by
  rw [escapeChar]
  split
  · next hplain => simpa using (isPlain_ne hplain).2.symm
  · split
    · next l hl =>
      have := (letter_stands _ (mem_letters_of_letter? hl)).2.2.2
      simpa using this.symm
    · intro hmem
      simp only [List.mem_append, List.mem_cons, List.not_mem_nil, or_false] at hmem
      rcases hmem with (h | h) | h
      · simp at h
      · obtain ⟨d, hd, hdigit⟩ := Text.mem_hexNat h
        interval_cases d <;> simp [Nat.digitChar] at hdigit
      · simp at h

/-- No dollar sign stands in an escaped text. -/
theorem dollar_notMem_escape : '$' ∉ escape keepDots cs := by
  intro hmem
  obtain ⟨c, -, hc⟩ := List.mem_flatMap.mp hmem
  exact dollar_notMem_escapeChar hc

/-- A plain character is read as it is. -/
theorem unescape?_plain (h : isPlain keepDots c = true) :
    unescape? keepDots (c :: rest) = (unescape? keepDots rest).map (c :: ·) := by
  rw [unescape?.eq_def]
  split
  · next heq => simp at heq
  · next heq => exact absurd (List.cons.inj heq).1 (isPlain_ne h).1
  · next heq => exact absurd (List.cons.inj heq).1 (isPlain_ne h).1
  · next c' rest' _ _ heq =>
    obtain ⟨rfl, rfl⟩ := List.cons.inj heq
    rw [if_pos h]

/-- An underscore and a letter are read as the character of the letter. -/
theorem unescape?_letter (hl : letter? c = some l) (hplain : isPlain keepDots c = false) :
    unescape? keepDots ('_' :: l :: rest) = (unescape? keepDots rest).map (c :: ·) := by
  obtain ⟨hof, -, hx, -⟩ := letter_stands _ (mem_letters_of_letter? hl)
  rw [unescape?.eq_def]
  split
  · next heq => simp at heq
  · next heq => exact absurd (List.cons.inj (List.cons.inj heq).2).1 hx
  · next l' rest' _ heq =>
    obtain ⟨rfl, rfl⟩ := List.cons.inj (List.cons.inj heq).2
    simp [hof, hplain]
  · next hno heq =>
    obtain ⟨rfl, rfl⟩ := List.cons.inj heq
    exact absurd rfl (hno l rest rfl)

/-- An underscore, an x and digits up to the next underscore are read as the character of the number. -/
theorem unescape?_digits (h : '_' ∉ digits) :
    unescape? keepDots ('_' :: 'x' :: (digits ++ '_' :: rest)) =
      (ofDigits? keepDots digits).bind fun c => (unescape? keepDots rest).map (c :: ·) := by
  have hkept : ∀ c ∈ digits, (c != '_') = true := fun c hc => by
    simpa using fun heq : c = '_' => h (heq ▸ hc)
  have htake : (digits ++ '_' :: rest).takeWhile (· != '_') = digits := by
    simp [List.takeWhile_append_of_pos hkept]
  have hdrop : (digits ++ '_' :: rest).dropWhile (· != '_') = '_' :: rest := by
    simp [List.dropWhile_append_of_pos hkept]
  rw [unescape?]
  split
  · next heq => simp [hdrop] at heq
  · next heq =>
    rw [hdrop] at heq
    obtain ⟨-, rfl⟩ := List.cons.inj heq
    rw [htake]
    rfl

/-- The hexadecimal number of a character is read as this character. -/
theorem ofDigits?_hexNat (hplain : isPlain keepDots c = false) (hletter : letter? c = none) :
    ofDigits? keepDots (Text.hexNat c.toNat) = some c := by
  have hescape : escapeChar keepDots c = ['_', 'x'] ++ Text.hexNat c.toNat ++ ['_'] := by
    simp [escapeChar, hplain, hletter]
  have hvalid : c.toNat.isValidChar := c.valid
  simp [ofDigits?, Text.hexToNat?_hexNat, hvalid, hescape]

/-- Each character is read back. -/
theorem unescape?_escapeChar :
    unescape? keepDots (escapeChar keepDots c ++ rest) = (unescape? keepDots rest).map (c :: ·) := by
  rw [escapeChar]
  split
  · next hplain => exact unescape?_plain hplain
  · next hplain =>
    rw [Bool.not_eq_true] at hplain
    split
    · next l hl => exact unescape?_letter hl hplain
    · next hletter =>
      have hdigits : '_' ∉ Text.hexNat c.toNat := by
        intro hmem
        obtain ⟨d, hd, hdigit⟩ := Text.mem_hexNat hmem
        interval_cases d <;> simp [Nat.digitChar] at hdigit
      have happend : ['_', 'x'] ++ Text.hexNat c.toNat ++ ['_'] ++ rest =
          '_' :: 'x' :: (Text.hexNat c.toNat ++ '_' :: rest) := by simp
      rw [happend, unescape?_digits hdigits, ofDigits?_hexNat hplain hletter]
      rfl

/-- An escaped text is read back. -/
theorem unescape?_escape (cs : List Char) : unescape? keepDots (escape keepDots cs) = some cs := by
  induction cs with
  | nil => simp [escape, unescape?]
  | cons c cs ih =>
      rw [escape, List.flatMap_cons, unescape?_escapeChar, ← escape, ih]
      rfl

/-- A character that was read from digits is written with these digits. -/
theorem escapeChar_of_ofDigits? (h : ofDigits? keepDots digits = some c) :
    escapeChar keepDots c = ['_', 'x'] ++ digits ++ ['_'] := by
  simp only [ofDigits?, Option.bind_eq_bind, Option.bind_eq_some_iff] at h
  obtain ⟨n, -, h⟩ := h
  split at h
  · split at h
    · next hescape => exact Option.some.inj h ▸ hescape
    · simp at h
  · simp at h

/-- A character that was read from a letter is written with this letter. -/
theorem escapeChar_of_ofLetter? (h : ofLetter? l = some c) (hplain : isPlain keepDots c = false) :
    escapeChar keepDots c = ['_', l] := by
  obtain ⟨⟨c', l'⟩, hfind, rfl⟩ := Option.map_eq_some_iff.mp h
  obtain rfl : l' = l := by simpa using List.find?_some hfind
  have hletter := (letter_stands _ (List.mem_of_find?_eq_some hfind)).2.1
  rw [escapeChar, hplain, hletter]
  rfl

/-- A text that is read is the only way to write what it is read as. -/
theorem escape_of_unescape? (h : unescape? keepDots cs = some out) : cs = escape keepDots out := by
  fun_induction unescape? keepDots cs generalizing out with
  | case1 =>
      cases h
      rfl
  | case2 => simp at h
  | case3 rest a rest' hdrop _ ih =>
      simp only [Option.bind_eq_bind, Option.bind_eq_some_iff, Option.map_eq_some_iff] at h
      obtain ⟨c, hc, out, hout, rfl⟩ := h
      -- The digits end at the first underscore behind them.
      have ha : a = '_' := by
        have := List.head?_dropWhile_not (· != '_') rest
        rw [hdrop] at this
        simpa using this
      have hrest : rest = rest.takeWhile (· != '_') ++ a :: rest' := by
        rw [← hdrop]
        exact List.takeWhile_append_dropWhile.symm
      rw [escape, List.flatMap_cons, ← escape, ← ih hout, escapeChar_of_ofDigits? hc]
      conv_lhs => rw [hrest, ha]
      simp
  | case4 l rest _ ih =>
      simp only [Option.bind_eq_bind, Option.bind_eq_some_iff] at h
      obtain ⟨c, hc, h⟩ := h
      split at h
      · simp at h
      · next hplain =>
        obtain ⟨out, hout, rfl⟩ := Option.map_eq_some_iff.mp h
        rw [escape, List.flatMap_cons, ← escape, ← ih hout,
          escapeChar_of_ofLetter? hc (by simpa using hplain)]
        rfl
  | case5 c rest _ _ hplain ih =>
      obtain ⟨out, hout, rfl⟩ := Option.map_eq_some_iff.mp h
      rw [escape, List.flatMap_cons, ← escape, ← ih hout, escapeChar, if_pos hplain]
      rfl
  | case6 => simp at h

/-- **A text is read as the one that is written so**, and no other text is read. -/
theorem unescape?_eq_some : unescape? keepDots cs = some out ↔ cs = escape keepDots out := by
  constructor
  · exact escape_of_unescape?
  · rintro rfl
    exact unescape?_escape out

/-- Texts that are escaped alike are the same. -/
theorem escape_inj {cs ds : List Char} : escape keepDots cs = escape keepDots ds ↔ cs = ds := by
  constructor
  · intro h
    have hread : unescape? keepDots (escape keepDots cs) = some cs := unescape?_escape cs
    rw [h, unescape?_escape] at hread
    exact (Option.some.inj hread).symm
  · rintro rfl
    rfl

/-- Parts are read back just to what they are escaped from. -/
theorem mapM_unescape?_eq_some {parts outs : List (List Char)} :
    parts.mapM (unescape? keepDots) = some outs ↔ parts = outs.map (escape keepDots) := by
  induction parts generalizing outs with
  | nil => cases outs <;> simp
  | cons part parts ih =>
      simp only [List.mapM_cons, Option.bind_eq_bind, Option.bind_eq_some_iff, Option.pure_def,
        Option.some.injEq, unescape?_eq_some, ih]
      constructor
      · rintro ⟨out, rfl, outs, rfl, rfl⟩
        rfl
      · intro h
        obtain ⟨out, outs, rfl, rfl, rfl⟩ := List.map_eq_cons_iff.mp h.symm
        exact ⟨out, rfl, outs, rfl, rfl⟩

/-! ## Verbs -/

/-- What comes after a front is the rest of the text. -/
theorem after?_eq_some {front : List Char} : after? front cs = some rest ↔ cs = front ++ rest := by
  induction front generalizing cs with
  | nil => simp [after?, eq_comm]
  | cons a front ih =>
      cases cs with
      | nil => simp [after?]
      | cons c cs =>
          by_cases h : a = c
          · simp [after?, h, ih]
          · simp [after?, h, Ne.symm h]

/-- The first two letters tell a verb, so none begins like another one. -/
theorem verb_of_take {v w : Verb} (h : v.name.toList.take 2 = w.name.toList.take 2) : v = w := by
  revert h
  cases v <;> cases w <;> decide

/-- The first two characters behind which a verb is known are those of its name. -/
theorem take_name_append (v : Verb) (cs : List Char) :
    (v.name.toList ++ cs).take 2 = v.name.toList.take 2 := by
  cases v <;> rfl

/-- A verb and a pattern behind it are told apart. -/
theorem verbAndPattern?_eq_some {v : Verb} {pattern : String} :
    verbAndPattern? cs = some (v, pattern) ↔ cs = v.name.toList ++ escape false pattern.toList := by
  have hread : ∀ {u w : Verb} {q : String},
      ((after? u.name.toList cs).bind fun rest =>
        (unescape? false rest).map fun out => (u, String.ofList out)) = some (w, q) ↔
      u = w ∧ cs = w.name.toList ++ escape false q.toList := by
    intro u w q
    simp only [Option.bind_eq_some_iff, after?_eq_some, Option.map_eq_some_iff, unescape?_eq_some,
      Prod.mk.injEq]
    constructor
    · rintro ⟨_, hcs, out, rfl, rfl, rfl⟩
      exact ⟨rfl, by simpa using hcs⟩
    · rintro ⟨rfl, hcs⟩
      exact ⟨_, hcs, q.toList, rfl, rfl, String.ofList_toList⟩
  constructor
  · intro h
    obtain ⟨u, -, hu⟩ := List.exists_of_findSome?_eq_some h
    exact (hread.mp hu).2
  · intro hcs
    rcases hfind : verbAndPattern? cs with _ | ⟨w, q⟩
    -- The verb in front is one that is looked for.
    · have hnone := List.findSome?_eq_none_iff.mp hfind v (Verb.mem_all v)
      exact absurd (hnone.symm.trans (hread.mpr ⟨rfl, hcs⟩)) (by simp)
    · obtain ⟨u, -, hu⟩ := List.exists_of_findSome?_eq_some hfind
      obtain ⟨-, hcs'⟩ := hread.mp hu
      -- Another verb may not have been found before it, as none begins like another.
      have hvw : v = w := verb_of_take (by rw [← take_name_append v, ← hcs, hcs', take_name_append])
      subst hvw
      rw [hcs, List.append_cancel_left_eq, escape_inj, String.toList_inj] at hcs'
      rw [hcs']

/-! ## Parts of names -/

/-- The parts of a name, between which the dollar signs stand. -/
def parts (r : RouteName) : List (List Char) :=
  escape true r.owner.toList :: (r.verb.name.toList ++ escape false r.pattern.toList) ::
    r.params.map fun p => escape true p.toList

/-- The part of the verb and the pattern holds no dollar sign. -/
theorem dollar_notMem_verbAndPattern (v : Verb) (pattern : String) :
    '$' ∉ v.name.toList ++ escape false pattern.toList := by
  intro hmem
  rcases List.mem_append.mp hmem with h | h
  · revert h
    cases v <;> decide
  · exact dollar_notMem_escape h

/-- A name is split at the dollar signs into its parts. -/
theorem splitOn_params {part : List Char} (h : '$' ∉ part) (params : List String) :
    (part ++ params.flatMap fun p => '$' :: escape true p.toList).splitOn '$' =
      part :: params.map fun p => escape true p.toList := by
  induction params generalizing part with
  | nil => simpa using List.splitOn_eq_singleton h
  | cons p params ih =>
      rw [List.flatMap_cons, List.cons_append, List.splitOn_append_cons_self_of_not_mem h,
        ih dollar_notMem_escape, List.map_cons]

/-- A name is split into its parts. -/
theorem splitOn_renderChars (r : RouteName) : r.renderChars.splitOn '$' = r.parts := by
  simp only [renderChars, List.append_assoc, List.cons_append]
  rw [List.splitOn_append_cons_self_of_not_mem dollar_notMem_escape, ← List.append_assoc,
    splitOn_params (dollar_notMem_verbAndPattern r.verb r.pattern)]
  rfl

/-- A text is read as the route with these parts. -/
theorem parse?_eq_some_iff_parts {s : String} {r : RouteName} :
    parse? s = some r ↔ s.toList.splitOn '$' = r.parts := by
  rw [parse?]
  split
  · next owner route params heq =>
    simp only [Option.bind_eq_bind, Option.bind_eq_some_iff, unescape?_eq_some, Prod.exists,
      verbAndPattern?_eq_some, mapM_unescape?_eq_some, Option.some.injEq]
    rw [heq]
    constructor
    · rintro ⟨owner, rfl, verb, pattern, rfl, params, rfl, rfl⟩
      simp [parts, Function.comp_def]
    · intro h
      obtain ⟨howner, h⟩ := List.cons.inj h
      obtain ⟨hroute, hparams⟩ := List.cons.inj h
      refine ⟨_, howner, _, _, hroute, r.params.map String.toList, ?_, ?_⟩
      · rw [hparams, List.map_map]
        rfl
      · simp [Function.comp_def]
  · next hno =>
    refine iff_of_false (by simp) fun h => ?_
    exact hno _ _ _ h

/-- A text is read as the route whose name it is. -/
theorem parse?_eq_some {s : String} {r : RouteName} : parse? s = some r ↔ s = r.render := by
  rw [parse?_eq_some_iff_parts, ← splitOn_renderChars]
  constructor
  · intro h
    -- The parts put together again are the text.
    have hjoin := congrArg (['$'].intercalate ·) h
    simp only [List.intercalate_splitOn] at hjoin
    rw [render, ← hjoin, String.ofList_toList]
  · rintro rfl
    rw [render, String.toList_ofList]

/-- Names that are written alike are the same. -/
theorem render_inj {r r' : RouteName} : r.render = r'.render ↔ r = r' := by
  rw [← parse?_eq_some, parse?_eq_some.mpr rfl, Option.some.injEq]

/-! ## Registrations -/

/-- The name of a registration is split into that of the controller and the suffix. -/
theorem splitOn_registrationName (controller : String) :
    (registrationName controller).toList.splitOn '$' =
      [escape true controller.toList, "Routes".toList] := by
  have happend : (registrationName controller).toList =
      escape true controller.toList ++ '$' :: "Routes".toList := by
    simp [registrationName]
  rw [happend, List.splitOn_append_cons_self_of_not_mem dollar_notMem_escape,
    List.splitOn_eq_singleton (by decide)]

/-- No route has the name of a registration: what stands there for a verb is none. -/
theorem registrationName_ne_render (controller : String) (r : RouteName) :
    registrationName controller ≠ r.render := by
  intro heq
  have hparts := splitOn_registrationName controller
  rw [heq, render, String.toList_ofList, splitOn_renderChars] at hparts
  have hverb := (List.cons.inj (List.cons.inj hparts).2).1
  have htake := congrArg (List.take 2) hverb
  rw [take_name_append] at htake
  cases hv : r.verb <;> rw [hv] at htake <;> revert htake <;> decide

/-- Registrations of one name are of one controller. -/
theorem registrationName_inj {controller controller' : String} :
    registrationName controller = registrationName controller' ↔ controller = controller' := by
  constructor
  · intro heq
    have hparts := splitOn_registrationName controller
    rw [heq, splitOn_registrationName] at hparts
    exact (String.toList_inj.mp (escape_inj.mp (List.cons.inj hparts).1)).symm
  · rintro rfl
    rfl

end RouteName

/-- **Names identify routes.** A text is read as a route exactly if it is its name; a registration has the
name of no route, and tells its controller; so handlers share a name only if owner, verb, pattern and
parameters are the same, and never share one with a registration. -/
theorem names_identify :
    (∀ (s : String) (r : RouteName), RouteName.parse? s = some r ↔ s = r.render) ∧
    (∀ (controller : String) (r : RouteName), registrationName controller ≠ r.render) ∧
    (∀ controller controller' : String,
      registrationName controller = registrationName controller' ↔ controller = controller') ∧
    (∀ e e' : Endpoint, handlerName e = handlerName e' ↔
      e.owner = e'.owner ∧ e.verb = e'.verb ∧ e.pattern = e'.pattern ∧ e.paramNames = e'.paramNames) ∧
    ∀ (e : Endpoint) (controller : String), handlerName e ≠ registrationName controller := by
  refine ⟨fun s r => RouteName.parse?_eq_some, RouteName.registrationName_ne_render,
    fun _ _ => RouteName.registrationName_inj, ?_, ?_⟩
  · intro e e'
    rw [handlerName, handlerName, RouteName.render_inj, RouteName.of, RouteName.of, RouteName.mk.injEq]
  · intro e controller
    exact (RouteName.registrationName_ne_render controller _).symm

end Compile

end Routecraft
