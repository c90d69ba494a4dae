import Routecraft.Json.Basic
import Routecraft.Text.Hex

/-!
# Reading JSON

The strict grammar: no comments, no superfluous commas or zeros, no control characters inside a text.
Each reader returns what is left of the input, with a proof that it is shorter; the mutual recursion
ends by the length of the input and, on the same input, by a level.

* `read?`: the document that makes up a whole text. Brackets may be nested `room` deep.
-/

namespace Routecraft.Json

/-- What is left of `cs` after at least one character. -/
abbrev Rest (cs : List Char) := { r : List Char // r.length < cs.length }

def isSpace (c : Char) : Bool := c == ' ' || c == '\n' || c == '\t' || c == '\r'

def skipSpace (cs : List Char) : List Char := cs.dropWhile isSpace

theorem length_skipSpace_le (cs : List Char) : (skipSpace cs).length ≤ cs.length :=
  (List.dropWhile_sublist _).length_le

/-! ## Numbers -/

def digits? : (cs : List Char) → Option (List Char × Rest cs)
  | [] => none
  | c :: rest =>
    if c.isDigit then
      some (c :: rest.takeWhile Char.isDigit,
        ⟨rest.dropWhile Char.isDigit, Nat.lt_succ_of_le (List.dropWhile_sublist _).length_le⟩)
    else none

/-- The digits behind a point, if there is one. -/
def fraction? (cs : List Char) : Option (List Char × { r : List Char // r.length ≤ cs.length }) :=
  match cs with
  | '.' :: rest =>
    (digits? rest).map fun (ds, r) => (ds, ⟨r.val, by
      have := r.property
      simp only [List.length_cons]
      omega⟩)
  | other => some ([], ⟨other, Nat.le_refl _⟩)

/-- The digits of an exponent behind its sign. -/
def exponentDigits? (negative : Bool) (cs : List Char) : Option (Int × Rest cs) :=
  (digits? cs).map fun (ds, r) =>
    (if negative then -(Decimal.digitsToNat ds : Int) else Decimal.digitsToNat ds, r)

/-- An exponent, if there is a mark. -/
def exponent? (cs : List Char) : Option (Option Int × { r : List Char // r.length ≤ cs.length }) :=
  match cs with
  | mark :: rest =>
    if mark == 'e' || mark == 'E' then
      match rest with
      | '+' :: rest' =>
        (exponentDigits? false rest').map fun (e, r) =>
          (some e, ⟨r.val, Nat.le_succ_of_le (Nat.le_succ_of_le (Nat.le_of_lt r.property))⟩)
      | '-' :: rest' =>
        (exponentDigits? true rest').map fun (e, r) =>
          (some e, ⟨r.val, Nat.le_succ_of_le (Nat.le_succ_of_le (Nat.le_of_lt r.property))⟩)
      | rest' =>
        (exponentDigits? false rest').map fun (e, r) =>
          (some e, ⟨r.val, Nat.le_succ_of_le (Nat.le_of_lt r.property)⟩)
    else some (none, ⟨mark :: rest, Nat.le_refl _⟩)
  | [] => some (none, ⟨[], Nat.le_refl _⟩)

/-- A number without its sign. -/
def unsigned? (negative : Bool) (cs : List Char) : Option (Number × Rest cs) := do
  let (whole, r₁) ← digits? cs
  if whole.head? == some '0' && whole.length != 1 then none
  else
    let (fraction, r₂) ← fraction? r₁.val
    let (exponent, r₃) ← exponent? r₂.val
    some (⟨negative, whole, fraction, exponent⟩, ⟨r₃.val, by
      have := r₁.property
      have := r₂.property
      have := r₃.property
      omega⟩)

/-- The value of a number: unusable beyond the range of the 64 bit format. -/
def ofNumber (n : Number) : Json :=
  match n.toDouble? with
  | some _ => .number n
  | none => .unusable

/-! ## Texts -/

/-- What has been read of a text: its characters in reverse, the first half of a surrogate pair that
waits for the second, and whether all surrogates so far are paired. -/
structure Scan where
  chars : List Char := []
  high : Option Nat := none
  paired : Bool := true

namespace Scan

/-- A character that stands for itself or is escaped by a letter. -/
def push (s : Scan) (c : Char) : Scan :=
  { chars := c :: s.chars, high := none, paired := s.paired && s.high.isNone }

/-- A UTF-16 unit, escaped by its number. -/
def pushUnit (s : Scan) (n : Nat) : Scan :=
  if 0xdc00 ≤ n ∧ n ≤ 0xdfff then
    match s.high with
    | some h => { s with
        chars := Char.ofNat ((h - 0xd800) * 0x400 + (n - 0xdc00) + 0x10000) :: s.chars
        high := none }
    | none => { s with paired := false }
  else if 0xd800 ≤ n ∧ n ≤ 0xdbff then
    { s with high := some n, paired := s.paired && s.high.isNone }
  else s.push (Char.ofNat n)

/-- The text, if its surrogates are paired. -/
def finish (s : Scan) : Option String :=
  if s.paired && s.high.isNone then some (String.ofList s.chars.reverse) else none

end Scan

/-- The character that a letter behind a backslash stands for. -/
def escape? (c : Char) : Option Char :=
  match c with
  | '"' => some '"'
  | '\\' => some '\\'
  | '/' => some '/'
  | 'b' => some '\x08'
  | 'f' => some '\x0c'
  | 'n' => some '\n'
  | 'r' => some '\r'
  | 't' => some '\t'
  | _ => none

/-- The text up to the closing quote, and what follows it. -/
def scanText (s : Scan) : List Char → Option (Option String × List Char)
  | [] => none
  | '"' :: rest => some (s.finish, rest)
  | '\\' :: 'u' :: a :: b :: c :: d :: rest =>
    match Text.hexToNat? [a, b, c, d] with
    | some n => scanText (s.pushUnit n) rest
    | none => none
  | '\\' :: c :: rest =>
    match escape? c with
    | some e => scanText (s.push e) rest
    | none => none
  | c :: rest => if c.toNat < 32 then none else scanText (s.push c) rest

/-- A text literal takes at least one character. -/
theorem length_lt_of_scanText {s : Scan} {cs r : List Char} {t : Option String}
    (h : scanText s cs = some (t, r)) : r.length < cs.length := by
  fun_induction scanText s cs with
  | case1 => simp at h
  | case2 s rest =>
    simp only [Option.some.injEq, Prod.mk.injEq] at h
    simp [← h.2]
  | case3 s a b c d rest n hn ih =>
    have := ih h
    simp only [List.length_cons]
    omega
  | case4 => simp at h
  | case5 s c rest hu e he ih =>
    have := ih h
    simp only [List.length_cons]
    omega
  | case6 => simp at h
  | case7 => simp at h
  | case8 s c rest h₁ h₂ h₃ hc ih =>
    have := ih h
    simp only [List.length_cons]
    omega

/-! ## Documents -/

def ofText : Option String → Json
  | some s => .text s
  | none => .unusable

/-- The members of an object, each with its key if that is a text. -/
def ofMembers (members : List (Option String × Json)) : Json :=
  match members.mapM fun (key, j) => key.map (·, j) with
  | some ms => .object ms
  | none => .unusable

/-- A bracketed document when `room` brackets may still be opened. -/
def bracketed (room : Nat) (j : Json) : Json :=
  match room with
  | 0 => .unusable
  | _ + 1 => j

mutual

def value? (room : Nat) (cs : List Char) : Option (Json × Rest cs) :=
  have hs := length_skipSpace_le cs
  match h : skipSpace cs with
  | 'n' :: 'u' :: 'l' :: 'l' :: rest =>
    some (.null, ⟨rest, by simp only [h, List.length_cons] at hs; omega⟩)
  | 't' :: 'r' :: 'u' :: 'e' :: rest =>
    some (.bool true, ⟨rest, by simp only [h, List.length_cons] at hs; omega⟩)
  | 'f' :: 'a' :: 'l' :: 's' :: 'e' :: rest =>
    some (.bool false, ⟨rest, by simp only [h, List.length_cons] at hs; omega⟩)
  | '"' :: rest =>
    match ht : scanText {} rest with
    | some (t, r) => some (ofText t, ⟨r, by
        have := length_lt_of_scanText ht
        simp only [h, List.length_cons] at hs
        omega⟩)
    | none => none
  | '[' :: rest =>
    have hr : rest.length < cs.length := by simp only [h, List.length_cons] at hs; omega
    have hs' := length_skipSpace_le rest
    match h' : skipSpace rest with
    | ']' :: rest' => some (bracketed room (.array []), ⟨rest', by
        simp only [h', List.length_cons] at hs'
        omega⟩)
    | _ =>
      match items? (room - 1) cs [] rest hr with
      | some (js, r) => some (bracketed room (.array js), r)
      | none => none
  | '\x7b' :: rest =>
    have hr : rest.length < cs.length := by simp only [h, List.length_cons] at hs; omega
    have hs' := length_skipSpace_le rest
    match h' : skipSpace rest with
    | '\x7d' :: rest' => some (bracketed room (.object []), ⟨rest', by
        simp only [h', List.length_cons] at hs'
        omega⟩)
    | _ =>
      match members? (room - 1) cs [] rest hr with
      | some (ms, r) => some (bracketed room (ofMembers ms), r)
      | none => none
  | '-' :: rest =>
    match unsigned? true rest with
    | some (n, r) => some (ofNumber n, ⟨r.val, by
        have := r.property
        simp only [h, List.length_cons] at hs
        omega⟩)
    | none => none
  | other =>
    match unsigned? false other with
    | some (n, r) => some (ofNumber n, ⟨r.val, by
        have := r.property
        rw [h] at hs
        omega⟩)
    | none => none
termination_by (cs.length, 0)

/-- The items of an array up to its closing bracket, onto those read before, in reverse. The array
stands in `outer`. -/
def items? (room : Nat) (outer : List Char) (done : List Json) (cs : List Char)
    (hc : cs.length < outer.length) : Option (List Json × Rest outer) :=
  match value? room cs with
  | none => none
  | some (j, r) =>
    have hs := length_skipSpace_le r.val
    have hp := r.property
    match h : skipSpace r.val with
    | ',' :: rest =>
      have hr : rest.length < cs.length := by simp only [h, List.length_cons] at hs; omega
      items? room outer (j :: done) rest (Nat.lt_trans hr hc)
    | ']' :: rest => some ((j :: done).reverse, ⟨rest, by
        simp only [h, List.length_cons] at hs
        omega⟩)
    | _ => none
termination_by (cs.length, 1)

/-- The members of an object up to its closing bracket, onto those read before, in reverse. The object
stands in `outer`. -/
def members? (room : Nat) (outer : List Char) (done : List (Option String × Json))
    (cs : List Char) (hc : cs.length < outer.length) :
    Option (List (Option String × Json) × Rest outer) :=
  have hs := length_skipSpace_le cs
  match h : skipSpace cs with
  | '"' :: keyed =>
    match ht : scanText {} keyed with
    | none => none
    | some (key, r) =>
      have hk := length_lt_of_scanText ht
      have hs' := length_skipSpace_le r
      match h' : skipSpace r with
      | ':' :: valued =>
        have hv : valued.length < cs.length := by
          simp only [h', List.length_cons] at hs'
          simp only [h, List.length_cons] at hs
          omega
        match value? room valued with
        | none => none
        | some (j, r') =>
          have hs'' := length_skipSpace_le r'.val
          have hp := r'.property
          match h'' : skipSpace r'.val with
          | ',' :: rest =>
            have hr : rest.length < cs.length := by
              simp only [h'', List.length_cons] at hs''
              omega
            members? room outer ((key, j) :: done) rest (Nat.lt_trans hr hc)
          | '\x7d' :: rest => some (((key, j) :: done).reverse, ⟨rest, by
              simp only [h'', List.length_cons] at hs''
              omega⟩)
          | _ => none
      | _ => none
  | _ => none
termination_by (cs.length, 1)

end

/-- The document that makes up a whole text, its brackets at most `room` deep. -/
def readWithin? (room : Nat) (s : String) : Option Json :=
  match value? room s.toList with
  | some (j, r) => if (skipSpace r.val).isEmpty then some j else none
  | none => none

/-- The deepest nesting of brackets in a usable document. -/
def maxDepth : Nat := 127

def read? (s : String) : Option Json := readWithin? maxDepth s

end Routecraft.Json
