import Mathlib.Data.List.TakeWhile
import Mathlib.Tactic.IntervalCases
import Routecraft.Json.Reader
import Routecraft.Json.Writer

/-!
# What is written is read back

The reader of documents undoes the writer: a document of texts, natural numbers, truth values, arrays and objects
comes back from its indented form, whatever its texts are. Its numbers have to be of 64 bits and its brackets not
nested too deeply, for such documents are unusable.

* `scanText_escaped`: a character in a text, escaped or not.
* `unsigned?_toDigits`: a natural number.
* `Writable`: the documents that are read back.
* `read?_pretty`: the document of an indented text.
-/

namespace Routecraft.Json

variable {cs rest : List Char} {room : Nat}

/-! ## Blanks -/

/-- Blanks in front are skipped. -/
theorem skipSpace_append {blank : List Char} (h : ∀ c ∈ blank, isSpace c = true) (cs : List Char) :
    skipSpace (blank ++ cs) = skipSpace cs := by
  unfold skipSpace
  rw [List.dropWhile_append_of_pos h]

/-- Nothing is skipped in front of another character. -/
theorem skipSpace_cons_of_not {c : Char} (h : isSpace c = false) (cs : List Char) : skipSpace (c :: cs) = c :: cs :=
  List.dropWhile_cons_of_neg (by simp [h])

/-- What comes behind a character that was found is shorter. -/
theorem length_lt_of_skipSpace {c : Char} (h : skipSpace cs = c :: rest) : rest.length < cs.length := by
  have hle := length_skipSpace_le cs
  rw [h, List.length_cons] at hle
  exact hle

/-! ## Texts -/

/-- The four digits of a control character are read back. -/
theorem hexToNat?_hexFixed {n : Nat} (h : n < 32) :
    Text.hexToNat? [Text.hexDigit (n / 16 / 16 / 16), Text.hexDigit (n / 16 / 16), Text.hexDigit (n / 16),
      Text.hexDigit n] = some n := by
  interval_cases n <;> rfl

/-- A control character that was escaped is read as itself. -/
theorem pushUnit_of_lt {n : Nat} (h : n < 32) (s : Scan) : s.pushUnit n = s.push (Char.ofNat n) := by
  unfold Scan.pushUnit
  rw [if_neg (by omega), if_neg (by omega)]

/-- A character stands in a text for itself, however it is written. -/
theorem scanText_escaped (s : Scan) (c : Char) (cs : List Char) :
    scanText s (escaped c ++ cs) = scanText (s.push c) cs := by
  unfold escaped
  split
  · next h =>
    subst h
    rfl
  · next hquote =>
    split
    · next h =>
      subst h
      rfl
    · next hslash =>
      -- The letters that stand for control characters, and then the other control characters by their numbers.
      repeat' split
      all_goals try (next h => subst h; rfl)
      · next hlt =>
        show scanText s ('\\' :: 'u' :: _ :: _ :: _ :: _ :: cs) = _
        rw [scanText]
        have hread := hexToNat?_hexFixed hlt
        simp only [hread]
        rw [pushUnit_of_lt hlt, Char.ofNat_toNat]
      · next hge =>
        show scanText s (c :: cs) = _
        rw [scanText]
        · rw [if_neg hge]
        · exact hquote
        · intro a b d e cs' hc
          exact absurd hc hslash
        · intro a cs' hc
          exact absurd hc hslash

/-- A text that is written is the one that has been read. -/
theorem scanText_chars (chars done rest : List Char) :
    scanText ⟨done, none, true⟩ (chars.flatMap escaped ++ '"' :: rest) =
      some (some (String.ofList (done.reverse ++ chars)), rest) := by
  induction chars generalizing done with
  | nil => simp [scanText, Scan.finish]
  | cons c chars ih =>
      rw [List.flatMap_cons, List.append_assoc, scanText_escaped]
      have := ih (c :: done)
      simpa [Scan.push] using this

theorem toList_foldl_push (cs : List Char) (out : String) : (cs.foldl String.push out).toList = out.toList ++ cs := by
  induction cs generalizing out with
  | nil => simp
  | cons c cs ih => simp [ih]

/-- The characters of a text between quotes. -/
theorem toList_textLiteral (s : String) :
    (textLiteral s).toList = '"' :: (s.toList.flatMap escaped ++ ['"']) := by
  have hfold (chars : List Char) (out : String) :
      (chars.foldl (fun out c => (escaped c).foldl String.push out) out).toList =
        out.toList ++ chars.flatMap escaped := by
    induction chars generalizing out with
    | nil => simp
    | cons c chars ih => simp [ih, toList_foldl_push]
  unfold textLiteral
  rw [String.foldl_eq_foldl_toList, String.toList_append, hfold]
  rfl

/-- A text is read back from its literal. -/
theorem scanText_textLiteral (s : String) (rest : List Char) :
    scanText {} (s.toList.flatMap escaped ++ '"' :: rest) = some (some s, rest) := by
  have := scanText_chars s.toList [] rest
  simpa using this

/-! ## Numbers -/

/-- Nothing behind a number goes on with it. -/
def Ended (cs : List Char) : Prop := ∀ c ∈ cs.head?, c = ',' ∨ c = '\n'

/-- A number is read back from its digits. -/
theorem digitsToNat_toDigits (n : Nat) : Decimal.digitsToNat (Nat.toDigits 10 n) = n := by
  have hfold : Decimal.digitsToNat (Nat.toDigits 10 n) = Nat.ofDigitChars 10 (Nat.toDigits 10 n) 0 := by
    simp only [Decimal.digitsToNat, Nat.ofDigitChars, Nat.mul_comm]
  rw [hfold, Nat.ofDigitChars_ten_toDigits]

/-- No number but zero begins with a zero. -/
theorem head?_toDigits {n : Nat} (h : (Nat.toDigits 10 n).head? = some '0') : Nat.toDigits 10 n = ['0'] := by
  induction n using Nat.strongRecOn with
  | ind n ih =>
      rw [Nat.toDigits_eq_if (by decide)] at h ⊢
      split at h
      · next hlt =>
        rw [if_pos hlt]
        exact congrArg (fun c => [c]) (Option.some.inj h)
      · next hle =>
        have hfront : (Nat.toDigits 10 (n / 10)).head? = some '0' := by
          obtain ⟨d, ds, hds⟩ := List.exists_cons_of_ne_nil (l := Nat.toDigits 10 (n / 10)) Nat.toDigits_ne_nil
          rw [hds] at h ⊢
          simpa using h
        have hzero := congrArg Decimal.digitsToNat (ih (n / 10) (by omega) hfront)
        rw [digitsToNat_toDigits] at hzero
        have : n / 10 = 0 := hzero
        omega

/-- A digit is no blank. -/
theorem isSpace_of_isDigit {c : Char} (h : c.isDigit = true) : isSpace c = false := by
  rw [Bool.eq_false_iff]
  intro hspace
  simp only [isSpace, Bool.or_eq_true, beq_iff_eq] at hspace
  rcases hspace with ((rfl | rfl) | rfl) | rfl <;> simp at h

/-- Digits are read up to the first character that is none. -/
theorem digits?_append {ds : List Char} (hne : ds ≠ []) (hds : ∀ c ∈ ds, c.isDigit = true)
    (hrest : ∀ c ∈ rest.head?, c.isDigit = false) :
    ∃ h, digits? (ds ++ rest) = some (ds, ⟨rest, h⟩) := by
  obtain ⟨d, ds, rfl⟩ := List.exists_cons_of_ne_nil hne
  obtain ⟨hd, hds⟩ := List.forall_mem_cons.mp hds
  have htake : (ds ++ rest).takeWhile Char.isDigit = ds := by
    rw [List.takeWhile_append_of_pos hds]
    cases rest with
    | nil => simp
    | cons c rest => simp [hrest c rfl]
  have hdrop : (ds ++ rest).dropWhile Char.isDigit = rest := by
    rw [List.dropWhile_append_of_pos hds]
    cases rest with
    | nil => simp
    | cons c rest => simp [hrest c rfl]
  refine ⟨by simp only [List.cons_append, List.length_cons, List.length_append]; omega, ?_⟩
  simp only [List.cons_append, digits?, hd, if_true, htake, hdrop]

/-- Where a number has ended, no digit comes. -/
theorem Ended.not_isDigit (h : Ended rest) : ∀ c ∈ rest.head?, c.isDigit = false := by
  intro c hc
  rcases h c hc with rfl | rfl <;> rfl

/-- Where a number has ended, it has no fraction. -/
theorem fraction?_of_ended (h : Ended rest) : ∃ hle, fraction? rest = some ([], ⟨rest, hle⟩) := by
  unfold fraction?
  split
  · next tail =>
    have := h '.' rfl
    simp at this
  · exact ⟨Nat.le_refl _, rfl⟩

/-- Where a number has ended, it has no exponent. -/
theorem exponent?_of_ended (h : Ended rest) : ∃ hle, exponent? rest = some (none, ⟨rest, hle⟩) := by
  unfold exponent?
  split
  · next mark tail =>
    have hmark : (mark == 'e' || mark == 'E') = false := by
      rcases h mark rfl with rfl | rfl <;> rfl
    rw [hmark, if_neg Bool.false_ne_true]
    exact ⟨Nat.le_refl _, rfl⟩
  · exact ⟨Nat.le_refl _, rfl⟩

/-- A natural number is read back from its digits. -/
theorem unsigned?_toDigits (n : Nat) (hrest : Ended rest) :
    ∃ h, unsigned? false (Nat.toDigits 10 n ++ rest) = some (Number.ofInt n, ⟨rest, h⟩) := by
  have hdigit : ∀ c ∈ Nat.toDigits 10 n, c.isDigit = true := fun c hc =>
    Nat.isDigit_of_mem_toDigits (by decide) (by decide) hc
  obtain ⟨hlt, hdigits⟩ := digits?_append Nat.toDigits_ne_nil hdigit hrest.not_isDigit
  obtain ⟨hle, hfraction⟩ := fraction?_of_ended hrest
  obtain ⟨hle', hexponent⟩ := exponent?_of_ended hrest
  have hzero : ((Nat.toDigits 10 n).head? == some '0' && (Nat.toDigits 10 n).length != 1) = false := by
    rw [Bool.and_eq_false_iff]
    by_cases hhead : (Nat.toDigits 10 n).head? = some '0'
    · right
      rw [head?_toDigits hhead]
      rfl
    · left
      simpa using hhead
  refine ⟨hlt, ?_⟩
  unfold unsigned?
  rw [hdigits]
  simp only [Option.bind_eq_bind, Option.bind_some, hzero, hfraction, hexponent, Bool.false_eq_true, if_false]
  simp [Number.ofInt]

/-- A number that is a word is kept as it is. -/
theorem ofNumber_of_word? {n : Number} {i : Int} (h : n.word? = some i) : ofNumber n = .number n := by
  have hsome : n.toDouble?.isSome = true := by
    unfold Number.toDouble?
    split
    · rfl
    · next hnone =>
      rw [hnone] at h
      cases h
  unfold ofNumber
  split
  · rfl
  · next hnone =>
    rw [hnone] at hsome
    cases hsome

/-- A natural number of 64 bits can be used. -/
theorem ofNumber_ofInt {n : Nat} (h : n < UInt64.size) : ofNumber (Number.ofInt n) = .nat n := by
  have hint : (Number.ofInt n).toInt? = some (n : Int) := by
    simp [Number.toInt?, Number.ofInt, digitsToNat_toDigits]
  have hmin : Int64.minValue.toInt ≤ (n : Int) :=
    le_trans (show Int64.minValue.toInt ≤ 0 by decide) (Int.natCast_nonneg n)
  have hmax : (n : Int) < UInt64.size := Int.ofNat_lt.mpr h
  have hword : (Number.ofInt n).word? = some (n : Int) := by
    unfold Number.word?
    rw [hint, Option.filter_some, decide_eq_true hmin, decide_eq_true hmax]
    rfl
  exact ofNumber_of_word? hword

/-! ## Documents -/

/-- A document that is read back: its numbers are natural ones of 64 bits, and its brackets at most `room` deep. -/
inductive Writable : Nat → Json → Prop where
  | null (room : Nat) : Writable room .null
  | bool (room : Nat) (b : Bool) : Writable room (.bool b)
  | nat (room : Nat) {n : Nat} (h : n < UInt64.size) : Writable room (.nat n)
  | text (room : Nat) (s : String) : Writable room (.text s)
  | array {room : Nat} {items : List Json} (h : ∀ j ∈ items, Writable room j) : Writable (room + 1) (.array items)
  | object {room : Nat} {members : List (String × Json)} (h : ∀ m ∈ members, Writable room m.2) :
      Writable (room + 1) (.object members)

/-- A document is read from the characters, up to those that are left. -/
def Reads (room : Nat) (cs : List Char) (j : Json) (rest : List Char) : Prop :=
  (value? room cs).map (fun read => (read.1, read.2.val)) = some (j, rest)

/-- The word null is read. -/
theorem reads_null (h : skipSpace cs = 'n' :: 'u' :: 'l' :: 'l' :: rest) : Reads room cs .null rest := by
  unfold Reads
  rw [value?]
  split <;> simp_all

theorem reads_true (h : skipSpace cs = 't' :: 'r' :: 'u' :: 'e' :: rest) : Reads room cs (.bool true) rest := by
  unfold Reads
  rw [value?]
  split <;> simp_all

theorem reads_false (h : skipSpace cs = 'f' :: 'a' :: 'l' :: 's' :: 'e' :: rest) :
    Reads room cs (.bool false) rest := by
  unfold Reads
  rw [value?]
  split <;> simp_all

/-- The literal of a text is read as the text. -/
theorem reads_text {s : String} (h : skipSpace cs = (textLiteral s).toList ++ rest) :
    Reads room cs (.text s) rest := by
  have hscan := scanText_textLiteral s rest
  rw [toList_textLiteral, List.cons_append, List.append_assoc, List.singleton_append] at h
  unfold Reads
  rw [value?]
  split
  case h_4 hc =>
    rw [h] at hc
    cases hc
    split
    · next ht =>
      rw [hscan] at ht
      cases ht
      rfl
    · next ht =>
      rw [hscan] at ht
      cases ht
  case h_8 => simp_all
  all_goals
    next hc =>
    rw [h] at hc
    simp at hc

/-- The digits of a number are read as the number. -/
theorem reads_nat {n : Nat} (hn : n < UInt64.size) (hrest : Ended rest)
    (h : skipSpace cs = Nat.toDigits 10 n ++ rest) : Reads room cs (.nat n) rest := by
  have hread :
      (unsigned? false (skipSpace cs)).map (fun read => (read.1, read.2.val)) = some (Number.ofInt n, rest) := by
    obtain ⟨hlt, hread⟩ := unsigned?_toDigits n hrest
    rw [h, hread]
    rfl
  have hfirst {c : Char} {tail : List Char} (hc : skipSpace cs = c :: tail) : c.isDigit = true := by
    obtain ⟨d, ds, hdigits⟩ := List.exists_cons_of_ne_nil (l := Nat.toDigits 10 n) Nat.toDigits_ne_nil
    rw [hc, hdigits] at h
    cases h
    exact Nat.isDigit_of_mem_toDigits (by decide) (by decide) (hdigits ▸ List.mem_cons_self)
  unfold Reads
  rw [value?]
  split
  case h_8 =>
    split
    · next hr =>
      rw [hr] at hread
      simp only [Option.map_some, Option.some.injEq, Prod.mk.injEq] at hread ⊢
      rw [hread.1, hread.2]
      exact ⟨ofNumber_ofInt hn, rfl⟩
    · next hr =>
      rw [hr] at hread
      cases hread
  -- No digit begins like the other documents.
  all_goals
    next hc =>
    have := hfirst hc
    simp at this

/-- The reader finds what can be read. -/
theorem value?_of_reads {j : Json} (h : Reads room cs j rest) : ∃ hlt, value? room cs = some (j, ⟨rest, hlt⟩) := by
  obtain ⟨⟨j, r, hlt⟩, hvalue, heq⟩ := Option.map_eq_some_iff.mp h
  cases heq
  exact ⟨hlt, hvalue⟩

/-! ## Arrays -/

/-- The items of an array are read from the characters, and what is left behind the closing bracket. -/
inductive Items (room : Nat) : List Char → List Json → List Char → Prop where
  | last {cs j left rest} (hitem : Reads room cs j left) (hclose : skipSpace left = ']' :: rest) :
      Items room cs [j] rest
  | cons {cs j left next js rest} (hitem : Reads room cs j left) (hcomma : skipSpace left = ',' :: next)
      (hnext : Items room next js rest) : Items room cs (j :: js) rest

/-- The items of an array are read behind those that were read before. -/
theorem items?_of_items {js : List Json} (h : Items room cs js rest) (done : List Json) (outer : List Char)
    (hc : cs.length < outer.length) :
    (items? room outer done cs hc).map (fun read => (read.1, read.2.val)) = some (done.reverse ++ js, rest) := by
  induction h generalizing done with
  | last hitem hclose =>
      obtain ⟨hlt, hvalue⟩ := value?_of_reads hitem
      rw [items?, hvalue]
      simp only
      split
      case h_2 hc =>
        rw [hclose] at hc
        cases hc
        simp
      all_goals simp_all
  | cons hitem hcomma _ ih =>
      obtain ⟨hlt, hvalue⟩ := value?_of_reads hitem
      rw [items?, hvalue]
      simp only
      split
      case h_1 hc =>
        rw [hcomma] at hc
        cases hc
        rw [ih]
        simp
      all_goals simp_all

/-- No document begins with a closing bracket. -/
theorem Reads.not_close {j : Json} (h : Reads room cs j rest) (tail : List Char) : skipSpace cs ≠ ']' :: tail := by
  intro hclose
  unfold Reads at h
  rw [value?] at h
  split at h
  case h_8 =>
    have hnone : unsigned? false (skipSpace cs) = none := by
      rw [hclose]
      rfl
    split at h
    · next hr =>
      rw [hnone] at hr
      cases hr
    · cases h
  all_goals simp_all

/-- Where an item begins, the array is not closed. -/
theorem Items.not_close {js : List Json} (h : Items room cs js rest) (tail : List Char) :
    skipSpace cs ≠ ']' :: tail := by
  cases h with
  | last hitem _ => exact hitem.not_close tail
  | cons hitem _ _ => exact hitem.not_close tail

/-- Brackets with nothing in them are read as an empty array. -/
theorem reads_empty_array {inner : List Char} (h : skipSpace cs = '[' :: inner)
    (hinner : skipSpace inner = ']' :: rest) : Reads (room + 1) cs (.array []) rest := by
  unfold Reads
  rw [value?]
  split
  case h_5 hc =>
    rw [h] at hc
    cases hc
    split
    · next hc =>
      rw [hinner] at hc
      cases hc
      rfl
    · next hc => exact absurd hinner (hc _)
  case h_8 => simp_all
  all_goals
    next hc =>
    rw [h] at hc
    simp at hc

/-- Items in brackets are read as an array. -/
theorem reads_array {inner : List Char} {items : List Json} (h : skipSpace cs = '[' :: inner)
    (hitems : Items room inner items rest) : Reads (room + 1) cs (.array items) rest := by
  have hread := items?_of_items hitems [] cs (length_lt_of_skipSpace h)
  unfold Reads
  rw [value?]
  split
  case h_5 hc =>
    rw [h] at hc
    cases hc
    split
    · next hc => exact absurd hc (hitems.not_close _)
    · obtain ⟨⟨js, r⟩, hread', heq⟩ := Option.map_eq_some_iff.mp hread
      cases heq
      simp only [Nat.add_sub_cancel, hread']
      rfl
  case h_8 => simp_all
  all_goals
    next hc =>
    rw [h] at hc
    simp at hc

/-! ## Objects -/

/-- The members of an object are read from the characters, and what is left behind the closing bracket. -/
inductive Members (room : Nat) : List Char → List (String × Json) → List Char → Prop where
  | last {cs key after valued j left rest} (hkey : skipSpace cs = (textLiteral key).toList ++ after)
      (hcolon : skipSpace after = ':' :: valued) (hvalue : Reads room valued j left)
      (hclose : skipSpace left = '\x7d' :: rest) : Members room cs [(key, j)] rest
  | cons {cs key after valued j left next ms rest} (hkey : skipSpace cs = (textLiteral key).toList ++ after)
      (hcolon : skipSpace after = ':' :: valued) (hvalue : Reads room valued j left)
      (hcomma : skipSpace left = ',' :: next) (hnext : Members room next ms rest) :
      Members room cs ((key, j) :: ms) rest

/-- The key of a member is read as it is written. -/
def keyed (m : String × Json) : Option String × Json := (some m.1, m.2)

/-- A member is read, and then the next one or the closing bracket. -/
theorem members?_cons {key : String} {j : Json} {after valued left : List Char}
    {done : List (Option String × Json)} {outer : List Char} (hc : cs.length < outer.length)
    (hkey : skipSpace cs = (textLiteral key).toList ++ after) (hcolon : skipSpace after = ':' :: valued)
    (hvalue : Reads room valued j left) :
    (∀ rest, skipSpace left = '\x7d' :: rest →
      (members? room outer done cs hc).map (fun read => (read.1, read.2.val)) =
        some (((some key, j) :: done).reverse, rest)) ∧
    ∀ next, skipSpace left = ',' :: next →
      ∃ hn, members? room outer done cs hc = members? room outer ((some key, j) :: done) next hn := by
  obtain ⟨hlt, hvalue⟩ := value?_of_reads hvalue
  have hscan := scanText_textLiteral key after
  rw [toList_textLiteral, List.cons_append, List.append_assoc, List.singleton_append] at hkey
  obtain ⟨read, hread⟩ : ∃ read, read = members? room outer done cs hc := ⟨_, rfl⟩
  rw [← hread]
  rw [members?] at hread
  split at hread
  · next keyed hquote =>
    rw [hkey] at hquote
    cases hquote
    split at hread
    · next ht =>
      rw [hscan] at ht
      cases ht
    · next ht =>
      rw [hscan] at ht
      cases ht
      split at hread
      · next hv =>
        rw [hcolon] at hv
        cases hv
        rw [hvalue] at hread
        simp only at hread
        refine ⟨fun rest hclose => ?_, fun next hcomma => ?_⟩
        · split at hread
          · simp_all
          · next hc =>
            rw [hclose] at hc
            cases hc
            rw [hread]
            rfl
          · simp_all
        · split at hread
          · next hc =>
            rw [hcomma] at hc
            cases hc
            exact ⟨_, hread⟩
          · simp_all
          · simp_all
      · simp_all
  · simp_all

/-- The members of an object are read behind those that were read before. -/
theorem members?_of_members {ms : List (String × Json)} (h : Members room cs ms rest)
    (done : List (Option String × Json)) (outer : List Char) (hc : cs.length < outer.length) :
    (members? room outer done cs hc).map (fun read => (read.1, read.2.val)) =
      some (done.reverse ++ ms.map keyed, rest) := by
  induction h generalizing done with
  | last hkey hcolon hvalue hclose =>
      rw [(members?_cons hc hkey hcolon hvalue).1 _ hclose]
      simp [keyed]
  | cons hkey hcolon hvalue hcomma _ ih =>
      obtain ⟨hn, hnext⟩ := (members?_cons hc hkey hcolon hvalue).2 _ hcomma
      rw [hnext, ih]
      simp [keyed]

/-- Members are found again from their names, if each of them is. -/
theorem mapM_map_keyed {f : Option String × Json → Option (String × Json)} (hf : ∀ m, f (keyed m) = some m)
    (ms : List (String × Json)) : (ms.map keyed).mapM f = some ms := by
  induction ms with
  | nil => rfl
  | cons m ms ih => simp [hf, ih]

/-- Members with names are read as an object. -/
theorem ofMembers_map_keyed (ms : List (String × Json)) : ofMembers (ms.map keyed) = .object ms := by
  unfold ofMembers
  rw [mapM_map_keyed]
  exact fun _ => rfl

/-- Braces with nothing in them are read as an empty object. -/
theorem reads_empty_object {inner : List Char} (h : skipSpace cs = '\x7b' :: inner)
    (hinner : skipSpace inner = '\x7d' :: rest) : Reads (room + 1) cs (.object []) rest := by
  unfold Reads
  rw [value?]
  split
  case h_6 hc =>
    rw [h] at hc
    cases hc
    split
    · next hc =>
      rw [hinner] at hc
      cases hc
      rfl
    · next hc => exact absurd hinner (hc _)
  case h_8 => simp_all
  all_goals
    next hc =>
    rw [h] at hc
    simp at hc

/-- Where a member begins, the object is not closed. -/
theorem Members.not_close {ms : List (String × Json)} (h : Members room cs ms rest) (tail : List Char) :
    skipSpace cs ≠ '\x7d' :: tail := by
  cases h with
  | last hkey _ _ _ => simp [hkey, toList_textLiteral]
  | cons hkey _ _ _ _ => simp [hkey, toList_textLiteral]

/-- Members in braces are read as an object. -/
theorem reads_object {inner : List Char} {ms : List (String × Json)} (h : skipSpace cs = '\x7b' :: inner)
    (hmembers : Members room inner ms rest) : Reads (room + 1) cs (.object ms) rest := by
  have hread := members?_of_members hmembers [] cs (length_lt_of_skipSpace h)
  unfold Reads
  rw [value?]
  split
  case h_6 hc =>
    rw [h] at hc
    cases hc
    split
    · next hc => exact absurd hc (hmembers.not_close _)
    · obtain ⟨⟨read, r⟩, hread', heq⟩ := Option.map_eq_some_iff.mp hread
      cases heq
      simp only [Nat.add_sub_cancel, hread']
      rw [ofMembers_map_keyed]
      rfl
  case h_8 => simp_all
  all_goals
    next hc =>
    rw [h] at hc
    simp at hc

/-! ## Indented documents -/

/-- The indented lines of a document are read as the document. -/
def ReadBack (room : Nat) (j : Json) (text : List Char) : Prop :=
  ∀ cs rest, Ended rest → skipSpace cs = skipSpace (text ++ rest) → Reads room cs j rest

/-- Items on lines of their own are read back, if each line is. -/
theorem items_of_lines {inner indent : List Char} (hinner : ∀ c ∈ inner, isSpace c = true)
    (hindent : ∀ c ∈ indent, isSpace c = true) {line : Json → List Char} {j : Json} {js : List Json}
    (hread : ∀ i ∈ j :: js, ReadBack room i (line i)) :
    skipSpace cs = skipSpace ([',', '\n'].intercalate ((j :: js).map fun i => inner ++ line i) ++
      '\n' :: (indent ++ ']' :: rest)) → Items room cs (j :: js) rest := by
  obtain ⟨hj, hjs⟩ := List.forall_mem_cons.mp hread
  induction js generalizing cs j with
  | nil =>
      intro hcs
      rw [List.map_singleton, List.intercalate_singleton, List.append_assoc, skipSpace_append hinner] at hcs
      refine .last (hj _ _ ?_ hcs) ?_
      · simp [Ended]
      · rw [skipSpace, List.dropWhile_cons_of_pos rfl]
        exact (skipSpace_append hindent _).trans (skipSpace_cons_of_not rfl _)
  | cons j' js ih =>
      intro hcs
      rw [List.map_cons, List.map_cons, List.intercalate_cons_cons, List.append_assoc, List.append_assoc,
        List.append_assoc, skipSpace_append hinner] at hcs
      refine .cons (hj _ _ ?_ hcs) (skipSpace_cons_of_not rfl _) ?_
      · simp [Ended]
      · refine ih hjs (List.forall_mem_cons.mp hjs).1 (List.forall_mem_cons.mp hjs).2 ?_
        rfl

def memberLine (line : Json → List Char) (m : String × Json) : List Char :=
  (textLiteral m.1).toList ++ ([':', ' '] ++ line m.2)

/-- Members on lines of their own are read back, if each line is. -/
theorem members_of_lines {inner indent : List Char} (hinner : ∀ c ∈ inner, isSpace c = true)
    (hindent : ∀ c ∈ indent, isSpace c = true) (line : Json → List Char) {m : String × Json}
    {ms : List (String × Json)} (hread : ∀ i ∈ m :: ms, ReadBack room i.2 (line i.2)) :
    skipSpace cs = skipSpace ([',', '\n'].intercalate ((m :: ms).map fun i => inner ++ memberLine line i) ++
      '\n' :: (indent ++ '\x7d' :: rest)) → Members room cs (m :: ms) rest := by
  obtain ⟨hm, hms⟩ := List.forall_mem_cons.mp hread
  -- A key begins with its quote, so nothing is skipped before it.
  have hquote (key : String) (after : List Char) :
      skipSpace ((textLiteral key).toList ++ after) = (textLiteral key).toList ++ after := by
    rw [toList_textLiteral, List.cons_append]
    exact skipSpace_cons_of_not rfl _
  induction ms generalizing cs m with
  | nil =>
      intro hcs
      rw [List.map_singleton, List.intercalate_singleton, List.append_assoc, skipSpace_append hinner, memberLine,
        List.append_assoc, hquote] at hcs
      refine .last hcs (skipSpace_cons_of_not rfl _) (hm _ _ ?_ rfl) ?_
      · simp [Ended]
      · rw [skipSpace, List.dropWhile_cons_of_pos rfl]
        exact (skipSpace_append hindent _).trans (skipSpace_cons_of_not rfl _)
  | cons m' ms ih =>
      intro hcs
      rw [List.map_cons, List.map_cons, List.intercalate_cons_cons, List.append_assoc, List.append_assoc,
        List.append_assoc, skipSpace_append hinner, memberLine, List.append_assoc, hquote] at hcs
      refine .cons hcs (skipSpace_cons_of_not rfl _) (hm _ _ ?_ rfl) (skipSpace_cons_of_not rfl _) ?_
      · simp [Ended]
      · refine ih hms (List.forall_mem_cons.mp hms).1 (List.forall_mem_cons.mp hms).2 ?_
        rfl

theorem prettyItems_eq (indent : String) (items : List Json) :
    prettyItems indent items = items.map (prettyAt indent) := by
  induction items with
  | nil => rfl
  | cons j js ih => rw [prettyItems, ih, List.map_cons]

theorem prettyMembers_eq (indent : String) (members : List (String × Json)) :
    prettyMembers indent members =
      members.map fun m => textLiteral m.1 ++ ": " ++ prettyAt indent m.2 := by
  induction members with
  | nil => rfl
  | cons m ms ih => rw [prettyMembers, ih, List.map_cons]

/-- The characters of indented lines, and those behind them. -/
theorem toList_indented {α : Type} (indent openBracket closeBracket : String) (line : α → String) (x : α)
    (xs : List α) :
    (indented indent openBracket closeBracket ((x :: xs).map line)).toList ++ rest =
      openBracket.toList ++ ('\n' :: ([',', '\n'].intercalate ((x :: xs).map fun i =>
        (indent ++ "  ").toList ++ (line i).toList) ++ '\n' :: (indent.toList ++ (closeBracket.toList ++ rest)))) := by
  have hmap : (((x :: xs).map line).map ((indent ++ "  ") ++ ·)).map String.toList =
      (x :: xs).map fun i => (indent ++ "  ").toList ++ (line i).toList := by
    rw [List.map_map, List.map_map]
    exact List.map_congr_left fun i _ => String.toList_append
  unfold indented
  rw [if_neg (by simp)]
  simp only [String.toList_append, String.toList_intercalate, hmap, List.append_assoc]
  rfl

/-- **What is written is read back**, wherever in a document it stands. -/
theorem Writable.readBack {j : Json} (h : Writable room j) {indent : String}
    (hindent : ∀ c ∈ indent.toList, isSpace c = true) : ReadBack room j (prettyAt indent j).toList := by
  have hblank {indent : String} (hindent : ∀ c ∈ indent.toList, isSpace c = true) :
      ∀ c ∈ (indent ++ "  ").toList, isSpace c = true := by
    intro c hc
    rw [String.toList_append, List.mem_append] at hc
    rcases hc with hc | hc
    · exact hindent c hc
    · have : c = ' ' := by simpa using hc
      rw [this]
      rfl
  -- The indent grows with the depth; all that the reader sees of it is that it is blank.
  induction h generalizing indent with
  | null =>
      intro cs rest _ hcs
      refine reads_null (hcs.trans ?_)
      simp only [prettyAt, compact]
      exact skipSpace_cons_of_not rfl _
  | bool room b =>
      intro cs rest _ hcs
      cases b with
      | true =>
          refine reads_true (hcs.trans ?_)
          simp only [prettyAt, compact]
          exact skipSpace_cons_of_not rfl _
      | false =>
          refine reads_false (hcs.trans ?_)
          simp only [prettyAt, compact]
          exact skipSpace_cons_of_not rfl _
  | @nat room n hn =>
      intro cs rest hrest hcs
      refine reads_nat hn hrest (hcs.trans ?_)
      have htext : (prettyAt indent (.nat n)).toList = Nat.toDigits 10 n := by
        simp [Json.nat, int, prettyAt, compact, numberText, Number.ofInt]
      -- The first digit is what tells a number from other values.
      obtain ⟨d, ds, hdigits⟩ := List.exists_cons_of_ne_nil (l := Nat.toDigits 10 n) Nat.toDigits_ne_nil
      have hd : d.isDigit = true :=
        Nat.isDigit_of_mem_toDigits (by decide) (by decide) (hdigits ▸ List.mem_cons_self)
      rw [htext, hdigits]
      exact skipSpace_cons_of_not (isSpace_of_isDigit hd) _
  | text room s =>
      intro cs rest _ hcs
      refine reads_text (hcs.trans ?_)
      simp only [prettyAt, compact, toList_textLiteral]
      exact skipSpace_cons_of_not rfl _
  | @array room items _ ih =>
      intro cs rest _ hcs
      cases items with
      | nil =>
          have hempty : (prettyAt indent (.array [])).toList = ['[', ']'] := by
            simp [prettyAt, prettyItems, indented]
          rw [hempty] at hcs
          exact reads_empty_array (hcs.trans (skipSpace_cons_of_not rfl _)) (skipSpace_cons_of_not rfl _)
      | cons j js =>
          have hspace := hblank hindent
          rw [prettyAt, prettyItems_eq, toList_indented] at hcs
          exact reads_array (hcs.trans (skipSpace_cons_of_not (c := '[') rfl _))
            (items_of_lines hspace hindent (fun i hi => ih i hi hspace) rfl)
  | @object room members _ ih =>
      intro cs rest _ hcs
      cases members with
      | nil =>
          have hempty : (prettyAt indent (.object [])).toList = ['\x7b', '\x7d'] := by
            simp [prettyAt, prettyMembers, indented]
          rw [hempty] at hcs
          exact reads_empty_object (hcs.trans (skipSpace_cons_of_not rfl _)) (skipSpace_cons_of_not rfl _)
      | cons m ms =>
          have hspace := hblank hindent
          rw [prettyAt, prettyMembers_eq, toList_indented] at hcs
          refine reads_object (hcs.trans (skipSpace_cons_of_not (c := '\x7b') rfl _))
            (members_of_lines hspace hindent (fun i => (prettyAt (indent ++ "  ") i).toList)
              (fun i hi => ih i hi hspace) ?_)
          simp only [memberLine, String.toList_append, List.append_assoc]
          rfl

/-- **The document of an indented text** is the one that has been written. -/
theorem read?_pretty {j : Json} (h : Writable maxDepth j) : read? (j.pretty ++ "\n") = some j := by
  have hread : Reads maxDepth (j.pretty ++ "\n").toList j ['\n'] := by
    have hback : ReadBack maxDepth j j.pretty.toList := h.readBack (by simp)
    refine hback _ _ (by simp [Ended]) ?_
    rw [String.toList_append]
    rfl
  obtain ⟨hlt, hvalue⟩ := value?_of_reads hread
  unfold read? readWithin?
  rw [hvalue]
  rfl

end Routecraft.Json
