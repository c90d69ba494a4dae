import Mathlib.Data.List.TakeWhile
import Routecraft.Bytecode.DataType
import Routecraft.Proofs.Outcome

/-!
# Descriptors as a grammar

Reading a descriptor accepts exactly what writing one produces, for the types whose class names can stand
in a descriptor at all: those that are not empty and hold no semicolon.

* `DataType.parseFront_eq_ok`: the type at the front of a text is the one whose descriptor stands there.
* `DataType.parse_eq_ok`, `Signature.parse_eq_ok`: the same for whole texts.
* `descriptors_exact`: both together.
-/

namespace Routecraft.Bytecode

namespace DataType

/-- Whether all class names in a type can stand in a descriptor. -/
def WellFormed : DataType → Prop
  | object name => name ≠ "" ∧ ';' ∉ name.toList
  | array element => element.WellFormed
  | _ => True

instance decidableWellFormed : (t : DataType) → Decidable t.WellFormed
  | object name => inferInstanceAs (Decidable (name ≠ "" ∧ ';' ∉ name.toList))
  | array element => decidableWellFormed element
  | boolean | byte | char | short | int | long | float | double => isTrue trivial

/-! ## Single types -/

/-- A descriptor in front of anything is read back. -/
theorem parseFront_descriptorChars {t : DataType} (h : t.WellFormed) (rest : List Char) :
    parseFront (t.descriptorChars ++ rest) = .ok (t, rest) := by
  induction t with
  | object name =>
      obtain ⟨hne, hsemi⟩ := h
      have hname : name.toList ≠ [] := by simpa using hne
      have hkept : ∀ c ∈ name.toList, (c != ';') = true := fun c hc => by
        simpa using fun heq : c = ';' => hsemi (heq ▸ hc)
      simp [descriptorChars, parseFront, List.takeWhile_append_of_pos hkept,
        List.dropWhile_append_of_pos hkept, hname]
  | array element ih =>
      simp only [descriptorChars, List.cons_append, parseFront]
      rw [ih h]
  | boolean | byte | char | short | int | long | float | double => rfl

/-- What was read is the descriptor of the type. -/
theorem descriptorChars_of_parseFront {cs rest : List Char} {t : DataType}
    (h : parseFront cs = .ok (t, rest)) : t.WellFormed ∧ cs = t.descriptorChars ++ rest := by
  fun_induction parseFront cs generalizing t rest with
  | case1 => simp at h
  | case2 | case3 | case4 | case5 | case6 | case7 | case8 | case9 =>
      obtain ⟨rfl, rfl⟩ : _ ∧ _ := by simpa using h
      exact ⟨trivial, rfl⟩
  | case10 cs element rest' hcs ih =>
      obtain ⟨rfl, rfl⟩ : _ ∧ _ := by simpa using h
      obtain ⟨hwf, hchars⟩ := ih hcs
      exact ⟨hwf, by rw [hchars]; rfl⟩
  | case11 | case12 | case13 => simp at h
  | case14 cs c rest' hcs name =>
      rename_i hname
      obtain ⟨rfl, rfl⟩ : _ ∧ _ := by simpa using h
      have hc : c = ';' := by
        have := List.head?_dropWhile_not (· != ';') cs
        rw [hcs] at this
        simpa using this
      have hsplit : cs = name ++ c :: rest' := by
        rw [← hcs]
        exact (List.takeWhile_append_dropWhile).symm
      refine ⟨⟨?_, ?_⟩, ?_⟩
      · intro hempty
        have := congrArg String.toList hempty
        exact hname (by simpa [name] using this)
      · rw [String.toList_ofList]
        intro hmem
        have := List.mem_takeWhile_imp hmem
        simp at this
      · subst hc
        rw [hsplit]
        simp [descriptorChars]
  | case15 => simp at h

/-- The type at the front of a text is the one whose descriptor stands there. -/
theorem parseFront_eq_ok {cs rest : List Char} {t : DataType} :
    parseFront cs = .ok (t, rest) ↔ t.WellFormed ∧ cs = t.descriptorChars ++ rest := by
  constructor
  · exact descriptorChars_of_parseFront
  · rintro ⟨hwf, rfl⟩
    exact parseFront_descriptorChars hwf rest

/-- A reading is complete if nothing is left. -/
theorem complete_eq_ok {α : Type} {cs rest : List Char} {x y : α} :
    complete cs (x, rest) = .ok y ↔ x = y ∧ rest = [] := by
  cases rest with
  | nil => simp [complete]
  | cons c rest => simp [complete]

/-- A text is read as the type whose descriptor it is. -/
theorem parse_eq_ok {s : String} {t : DataType} :
    parse s = .ok t ↔ t.WellFormed ∧ t.descriptor = s := by
  simp only [parse, parseChars, bind_eq_ok, Prod.exists, complete_eq_ok, parseFront_eq_ok]
  constructor
  · rintro ⟨t', rest, ⟨hwf, hchars⟩, rfl, rfl⟩
    refine ⟨hwf, ?_⟩
    rw [List.append_nil] at hchars
    rw [descriptor, ← hchars, String.ofList_toList]
  · rintro ⟨hwf, rfl⟩
    exact ⟨t, [], ⟨hwf, by simp [descriptor]⟩, rfl, rfl⟩

theorem descriptorChars_ne_nil (t : DataType) : t.descriptorChars ≠ [] := by
  cases t <;> simp [descriptorChars]

/-- No descriptor begins like the end of a list of parameters, or like the mark for no result. -/
theorem head?_descriptorChars (t : DataType) :
    t.descriptorChars.head? ≠ some ')' ∧ t.descriptorChars.head? ≠ some 'V' := by
  cases t <;> simp [descriptorChars]

end DataType

/-! ## Signatures -/

namespace Signature

/-- Whether all class names in a signature can stand in a descriptor. -/
def WellFormed (s : Signature) : Prop :=
  (∀ t ∈ s.params, t.WellFormed) ∧ ∀ t ∈ s.result, t.WellFormed

instance (s : Signature) : Decidable s.WellFormed :=
  inferInstanceAs (Decidable ((∀ t ∈ s.params, t.WellFormed) ∧ ∀ t ∈ s.result, t.WellFormed))

/-- The parameters read are those whose descriptors stand before the closing parenthesis. -/
theorem paramsFrom_descriptorChars {params : List DataType} (h : ∀ t ∈ params, t.WellFormed)
    (done : List DataType) (rest : List Char) :
    paramsFrom done (params.flatMap DataType.descriptorChars ++ ')' :: rest) =
      .ok (done.reverse ++ params, rest) := by
  induction params generalizing done with
  | nil =>
      rw [paramsFrom.eq_def]
      simp
  | cons t params ih =>
      have ht : t.WellFormed := h t (by simp)
      have hread := DataType.parseFront_descriptorChars ht
        (params.flatMap DataType.descriptorChars ++ ')' :: rest)
      rw [List.flatMap_cons, List.append_assoc, paramsFrom]
      · split
        next t' rest' heq =>
          rw [hread] at heq
          obtain ⟨rfl, rfl⟩ : t = t' ∧ _ = rest' := by simpa using heq
          rw [ih fun u hu => h u (List.mem_cons_of_mem t hu)]
          simp
        next fault heq => simp [hread] at heq
      · intro rest' hrest'
        have hhead := (DataType.head?_descriptorChars t).1
        obtain ⟨c, cs, hcs⟩ := List.exists_cons_of_ne_nil (DataType.descriptorChars_ne_nil t)
        rw [hcs] at hrest' hhead
        simp only [List.cons_append, List.cons.injEq] at hrest'
        exact hhead (by rw [hrest'.1]; rfl)

/-- Parameters that were read are well formed, and the text is made of their descriptors. -/
theorem of_paramsFrom {done params : List DataType} {cs rest : List Char}
    (h : paramsFrom done cs = .ok (params, rest)) :
    ∃ new, params = done.reverse ++ new ∧ (∀ t ∈ new, t.WellFormed) ∧
      cs = new.flatMap DataType.descriptorChars ++ ')' :: rest := by
  fun_induction paramsFrom done cs with
  | case1 done rest' =>
      obtain ⟨rfl, rfl⟩ : done.reverse = params ∧ rest' = rest := by simpa using h
      exact ⟨[], by simp⟩
  | case2 done cs hcs t rest' hread hlt ih =>
      obtain ⟨hwf, rfl⟩ := DataType.descriptorChars_of_parseFront hread
      obtain ⟨new, rfl, hnew, rfl⟩ := ih h
      refine ⟨t :: new, by simp, ?_, by simp⟩
      intro u hu
      rcases List.mem_cons.mp hu with rfl | hu
      · exact hwf
      · exact hnew u hu
  | case3 => simp at h

/-- A result at the front of a text is the one whose descriptor stands there. -/
theorem resultFront_eq_ok {cs rest : List Char} {result : Option DataType} :
    resultFront cs = .ok (result, rest) ↔
      (∀ t ∈ result, t.WellFormed) ∧ cs = resultChars result ++ rest := by
  cases result with
  | none =>
      constructor
      · intro h
        unfold resultFront at h
        split at h
        · simp_all [resultChars]
        · cases hread : DataType.parseFront cs <;> simp [hread, Except.map] at h
      · rintro ⟨-, rfl⟩
        rfl
  | some t =>
      have hnotV : ∀ tail, cs = 'V' :: tail → cs ≠ t.descriptorChars ++ rest := by
        rintro tail rfl hcs
        obtain ⟨c, cs', hc⟩ := List.exists_cons_of_ne_nil (DataType.descriptorChars_ne_nil t)
        have hhead := (DataType.head?_descriptorChars t).2
        rw [hc] at hcs hhead
        simp only [List.cons_append, List.cons.injEq] at hcs
        exact hhead (by rw [← hcs.1]; rfl)
      simp only [Option.mem_def, Option.some.injEq, forall_eq', resultChars]
      rw [← DataType.parseFront_eq_ok]
      unfold resultFront
      split
      · next tail =>
        constructor
        · intro h
          simp at h
        · intro h
          exact absurd (DataType.parseFront_eq_ok.mp h).2 (hnotV tail rfl)
      · cases hread : DataType.parseFront cs with
        | error fault => simp [Except.map]
        | ok p =>
            obtain ⟨t', rest'⟩ := p
            simp [Except.map]

/-- A text is read as the signature whose descriptor it is. -/
theorem parse_eq_ok {text : String} {s : Signature} :
    parse text = .ok s ↔ s.WellFormed ∧ s.descriptor = text := by
  constructor
  · intro h
    unfold parse parseChars at h
    split at h
    next inner htext =>
      simp only [bind_eq_ok, Prod.exists, DataType.complete_eq_ok, resultFront_eq_ok] at h
      obtain ⟨params, afterParams, hparams, result, rest, ⟨hresult, rfl⟩, rfl, rfl⟩ := h
      obtain ⟨new, rfl, hnew, rfl⟩ := of_paramsFrom hparams
      refine ⟨⟨by simpa using hnew, hresult⟩, ?_⟩
      rw [← String.toList_inj, htext]
      simp [descriptor, descriptorChars]
    next => simp at h
    next => simp at h
  · rintro ⟨⟨hparams, hresult⟩, rfl⟩
    have hread := paramsFrom_descriptorChars hparams [] (resultChars s.result)
    have hfront : resultFront (resultChars s.result) = .ok (s.result, []) :=
      resultFront_eq_ok.mpr ⟨hresult, by simp⟩
    simp only [parse, descriptor, String.toList_ofList, descriptorChars, List.cons_append,
      parseChars, hread, bind_eq_ok]
    exact ⟨_, rfl, _, hfront, by simp [DataType.complete]⟩

end Signature

/-! ## Both kinds -/

/-- **Exactly the descriptors are read.** A text is read as a type if and only if the type is well formed and has this
descriptor; the same holds of signatures, with any number of parameters and with a result or without. -/
theorem descriptors_exact :
    (∀ (text : String) (t : DataType), DataType.parse text = .ok t ↔ t.WellFormed ∧ t.descriptor = text) ∧
      ∀ (text : String) (params : List DataType) (result : Option DataType),
        Signature.parse text = .ok ⟨params, result⟩ ↔
          ((∀ t ∈ params, t.WellFormed) ∧ ∀ t ∈ result, t.WellFormed) ∧
            Signature.descriptor ⟨params, result⟩ = text :=
  ⟨fun _ _ => DataType.parse_eq_ok, fun _ _ _ => Signature.parse_eq_ok⟩

-- A class name may look like the rest of a signature.
example : Signature.parse "([L)V(;)V" = .ok ⟨[.array (.object ")V(")], none⟩ := by decide +kernel

end Routecraft.Bytecode
