/-!
# Text as bytes

The UTF-8 form of a text as a list of bytes, and the text of a list of bytes if they are the form of
one.

* `ofUtf8?_utf8`: reading the form of a text gives the text back.
* `utf8_of_ofUtf8?`: what is read as a text is the form of that text.
* `splitBytes?`: a text cut at an offset in its form; `append_of_splitBytes?`, `byteSize_of_splitBytes?` say where.
-/

namespace Routecraft.Text

def utf8 (s : String) : List UInt8 := s.toUTF8.data.toList

def ofUtf8? (bytes : List UInt8) : Option String := String.fromUTF8? ⟨bytes.toArray⟩

/-- Reading the form of a text gives the text back. -/
theorem ofUtf8?_utf8 (s : String) : ofUtf8? (utf8 s) = some s := by
  have h : (⟨(utf8 s).toArray⟩ : ByteArray) = s.toUTF8 := by simp [utf8]
  rw [ofUtf8?, h]
  simp only [String.fromUTF8?, String.toUTF8_eq_toByteArray, dif_pos s.isValidUTF8]
  rfl

/-- What is read as a text is the form of that text. -/
theorem utf8_of_ofUtf8? {bytes : List UInt8} {s : String} (h : ofUtf8? bytes = some s) :
    utf8 s = bytes := by
  unfold ofUtf8? String.fromUTF8? at h
  split at h
  · rw [Option.some.injEq] at h
    subst h
    simp [utf8, String.fromUTF8]
  · contradiction

/-! ## Offsets -/

/-- The size of the form of some characters. -/
def byteSize : List Char → Nat
  | [] => 0
  | c :: cs => c.utf8Size + byteSize cs

/-- The characters in front of and behind an offset in their form, if no character stands across it. -/
def splitBytes? (n : Nat) (cs : List Char) : Option (List Char × List Char) :=
  if n = 0 then some ([], cs)
  else
    match cs with
    | [] => none
    | c :: cs =>
      if c.utf8Size ≤ n then
        (splitBytes? (n - c.utf8Size) cs).map fun (front, back) => (c :: front, back)
      else none

/-- A text that is split at some bytes is its front and its back. -/
theorem append_of_splitBytes? {n : Nat} {cs front back : List Char}
    (h : splitBytes? n cs = some (front, back)) : front ++ back = cs := by
  induction cs generalizing n front back with
  | nil => rw [splitBytes?] at h; split at h <;> simp_all
  | cons c cs ih =>
    rw [splitBytes?] at h
    split at h
    · simp_all
    · split at h
      · obtain ⟨⟨f, b⟩, hsplit, heq⟩ := Option.map_eq_some_iff.1 h
        cases heq
        rw [List.cons_append, ih hsplit]
      · contradiction

/-- The front of a text that is split at some bytes takes as many. -/
theorem byteSize_of_splitBytes? {n : Nat} {cs front back : List Char}
    (h : splitBytes? n cs = some (front, back)) : byteSize front = n := by
  induction cs generalizing n front back with
  | nil => rw [splitBytes?] at h; split at h <;> simp_all [byteSize]
  | cons c cs ih =>
    rw [splitBytes?] at h
    split at h
    · simp_all [byteSize]
    · split at h
      · obtain ⟨⟨f, b⟩, hsplit, heq⟩ := Option.map_eq_some_iff.1 h
        cases heq
        rw [byteSize, ih hsplit]
        omega
      · contradiction

end Routecraft.Text
