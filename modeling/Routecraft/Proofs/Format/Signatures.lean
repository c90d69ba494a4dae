import Routecraft.Proofs.Format.Descriptors

/-!
# Signatures with odd class names

A class name with a semicolon is cut in two when it is read in a signature, which then has more parameters
than were written. So a signature that is read with no more parameters than were written is the one that was.

* `Signature.count_params`: the count of the parameters that are read.
* `Signature.eq_of_length_le`, `Signature.eq_of_params`: when a signature is read as it was written.
-/

namespace Routecraft.Bytecode

namespace DataType

variable {t u : DataType} {xs ys : List Char}

/-- Types with the same descriptor are the same. -/
theorem descriptorChars_inj (h : t.descriptorChars = u.descriptorChars) : t = u := by
  induction t generalizing u with
  | object name =>
      cases u <;> simp [descriptorChars] at h
      case object name' =>
        rw [String.toList_inj] at h
        rw [h]
  | array element ih =>
      cases u <;> simp [descriptorChars] at h
      case array element' => rw [ih h]
  | boolean | byte | char | short | int | long | float | double =>
      cases u <;> simp [descriptorChars] at h
      rfl

/-- A semicolon ends the descriptor of a type. -/
theorem eq_nil_of_semicolon (ht : t.WellFormed) (h : t.descriptorChars = xs ++ ';' :: ys) : ys = [] := by
  induction t generalizing xs with
  | object name =>
      have hlast : ('L' :: name.toList) ++ [';'] = xs ++ ';' :: ys := h
      rcases List.append_eq_append_iff.mp hlast with ⟨zs, hxs, hys⟩ | ⟨zs, hname, hys⟩
      · cases zs with
        | nil => simpa using hys.symm
        | cons z zs => simp at hys
      · cases zs with
        | nil => simpa using hys
        | cons z zs =>
            obtain ⟨rfl, -⟩ := List.cons.inj hys
            have hmem : ';' ∈ 'L' :: name.toList := by
              rw [hname]
              simp
            rcases List.mem_cons.mp hmem with h | hmem
            · exact absurd h (by decide)
            · exact absurd hmem ht.2
  | array element ih =>
      cases xs with
      | nil => simp [descriptorChars] at h
      | cons x xs =>
          obtain ⟨-, h⟩ := List.cons.inj h
          exact ih ht h
  | boolean | byte | char | short | int | long | float | double =>
      rcases xs with _ | ⟨x, _ | ⟨x', xs⟩⟩ <;> simp [descriptorChars] at h

/-- What is read at the front of a written type is the type, or it leaves the rest of a name. -/
theorem front_eq (ht : t.WellFormed) (h : t.descriptorChars ++ xs = u.descriptorChars ++ ys) :
    t = u ∧ xs = ys ∨ ∃ zs, xs = zs ++ ';' :: ys := by
  induction t generalizing u with
  | object name =>
      cases u <;> simp [descriptorChars] at h
      case object name' =>
        -- One name may go on where the other one ends; then a semicolon would be in it.
        rcases List.append_eq_append_iff.mp h with ⟨zs, hname, hzs⟩ | ⟨zs, hname, hzs⟩
        · cases zs with
          | nil =>
              rw [List.append_nil, String.toList_inj] at hname
              obtain ⟨-, hxs⟩ := List.cons.inj hzs
              exact .inl ⟨by rw [hname], hxs⟩
          | cons z zs =>
              obtain ⟨rfl, hxs⟩ := List.cons.inj hzs
              exact .inr ⟨zs, hxs⟩
        · cases zs with
          | nil =>
              rw [List.append_nil, String.toList_inj] at hname
              obtain ⟨-, hxs⟩ := List.cons.inj hzs
              exact .inl ⟨by rw [hname], hxs.symm⟩
          | cons z zs =>
              obtain ⟨rfl, -⟩ := List.cons.inj hzs
              have hmem : ';' ∈ name.toList := by
                rw [hname]
                simp
              exact absurd hmem ht.2
  | array element ih =>
      cases u <;> simp [descriptorChars] at h
      case array element' =>
        rcases ih ht h with ⟨rfl, hxs⟩ | hzs
        · exact .inl ⟨rfl, hxs⟩
        · exact .inr hzs
  | boolean | byte | char | short | int | long | float | double =>
      cases u <;> simp [descriptorChars] at h
      exact .inl ⟨rfl, h⟩

end DataType

namespace Signature

variable {r : Option DataType} {rest : List Char}

/-- Results with the same descriptor are the same. -/
theorem resultChars_inj {r' : Option DataType} (h : resultChars r = resultChars r') : r = r' := by
  cases r <;> cases r' <;> simp only [resultChars] at h
  case none.none => rfl
  case none.some t =>
    have := (DataType.head?_descriptorChars t).2
    rw [← h] at this
    exact absurd rfl this
  case some.none t =>
    have := (DataType.head?_descriptorChars t).2
    rw [h] at this
    exact absurd rfl this
  case some.some t u => rw [DataType.descriptorChars_inj h]

/-- The descriptors of parameters, up to the parenthesis. -/
def paramChars (ts : List DataType) (rest : List Char) : List Char :=
  ts.flatMap DataType.descriptorChars ++ ')' :: rest

/-- The parameters of a signature are written one after the other. -/
theorem paramChars_cons (t : DataType) (ts : List DataType) (rest : List Char) :
    paramChars (t :: ts) rest = t.descriptorChars ++ paramChars ts rest := by
  simp [paramChars]

theorem paramChars_ne_nil (ts : List DataType) (rest : List Char) : paramChars ts rest ≠ [] := by
  simp [paramChars]

/-- No parameters are read only where none were written. -/
theorem paramChars_nil {ts : List DataType} {rest' : List Char} (h : paramChars [] rest = paramChars ts rest') :
    ts = [] ∧ rest = rest' := by
  cases ts with
  | nil => exact ⟨rfl, (List.cons.inj h).2⟩
  | cons t ts =>
      have hhead := (DataType.head?_descriptorChars t).1
      obtain ⟨c, cs, hcs⟩ := List.exists_cons_of_ne_nil (DataType.descriptorChars_ne_nil t)
      rw [paramChars_cons, hcs] at h
      rw [hcs] at hhead
      obtain ⟨rfl, -⟩ := List.cons.inj h
      exact absurd rfl hhead

/-- **The count of the parameters that are read** is at least that of those that were written, and greater where
a name was cut. -/
theorem count_params {ts : List DataType} (hts : ∀ t ∈ ts, t.WellFormed) (hr : ∀ t ∈ r, t.WellFormed)
    (us : List DataType) :
    (paramChars ts (resultChars r) = paramChars us rest →
      us.length ≤ ts.length ∧ (ts.length ≤ us.length → ts = us ∧ resultChars r = rest)) ∧
    ∀ xs, paramChars ts (resultChars r) = xs ++ ';' :: paramChars us rest → us.length < ts.length := by
  induction ts generalizing us with
  | nil =>
      constructor
      · intro h
        obtain ⟨rfl, hrest⟩ := paramChars_nil h
        exact ⟨Nat.le_refl 0, fun _ => ⟨rfl, hrest⟩⟩
      · intro xs h
        -- The semicolon would be within the result.
        cases xs with
        | nil => simp [paramChars] at h
        | cons x xs =>
            obtain ⟨-, h⟩ := List.cons.inj h
            cases r with
            | none => rcases xs with _ | ⟨x', _ | ⟨x'', xs⟩⟩ <;> simp [resultChars] at h
            | some t => exact absurd (DataType.eq_nil_of_semicolon (hr t rfl) h) (paramChars_ne_nil us rest)
  | cons t ts ih =>
      obtain ⟨ht, hts⟩ := List.forall_mem_cons.mp hts
      rw [paramChars_cons]
      constructor
      · intro h
        cases us with
        | nil =>
            rw [← paramChars_cons] at h
            exact absurd (paramChars_nil h.symm).1 (List.cons_ne_nil t ts)
        | cons u us =>
            rw [paramChars_cons] at h
            rw [List.length_cons, List.length_cons]
            rcases DataType.front_eq ht h with ⟨rfl, htail⟩ | ⟨xs, htail⟩
            · obtain ⟨hle, heq⟩ := (ih hts us).1 htail
              refine ⟨Nat.succ_le_succ hle, ?_⟩
              intro hge
              obtain ⟨rfl, hrest⟩ := heq (Nat.le_of_succ_le_succ hge)
              exact ⟨rfl, hrest⟩
            · have hlt := (ih hts us).2 xs htail
              exact ⟨by omega, fun hge => by omega⟩
      · intro xs h
        rw [List.length_cons]
        rcases List.append_eq_append_iff.mp h with ⟨zs, hxs, hzs⟩ | ⟨zs, hxs, hzs⟩
        · exact Nat.lt_succ_of_lt ((ih hts us).2 zs hzs)
        · cases zs with
          | nil => exact Nat.lt_succ_of_lt ((ih hts us).2 [] hzs.symm)
          | cons z zs =>
              obtain ⟨rfl, htail⟩ := List.cons.inj hzs
              obtain rfl := DataType.eq_nil_of_semicolon ht hxs
              exact Nat.lt_succ_of_le ((ih hts us).1 htail.symm).1

variable {s w : Signature}

/-- Signatures have the same descriptor if their parameters and results are written alike. -/
theorem descriptor_eq_iff : s.descriptor = w.descriptor ↔
    paramChars s.params (resultChars s.result) = paramChars w.params (resultChars w.result) := by
  unfold descriptor
  rw [String.ofList_inj]
  exact List.cons_inj_right '('

/-- A signature is read as it was written if it is not read with more parameters. -/
theorem eq_of_length_le (hs : s.WellFormed) (h : s.descriptor = w.descriptor)
    (hlength : s.params.length ≤ w.params.length) : s = w := by
  obtain ⟨-, heq⟩ := (count_params hs.1 hs.2 w.params).1 (descriptor_eq_iff.mp h)
  obtain ⟨hparams, hresult⟩ := heq hlength
  obtain ⟨params, result⟩ := s
  obtain ⟨params', result'⟩ := w
  cases hparams
  cases resultChars_inj hresult
  rfl

/-- A signature is read as it was written if the names of its parameters can stand in a descriptor. -/
theorem eq_of_params (hs : s.WellFormed) (h : s.descriptor = w.descriptor)
    (hparams : ∀ t ∈ w.params, t.WellFormed) : s = w := by
  apply eq_of_length_le hs h
  have hread := paramsFrom_descriptorChars hs.1 [] (resultChars s.result)
  have hwritten := paramsFrom_descriptorChars hparams [] (resultChars w.result)
  rw [show s.params.flatMap DataType.descriptorChars ++ ')' :: resultChars s.result = _ from
    descriptor_eq_iff.mp h] at hread
  have hequal := hread.symm.trans hwritten
  simp only [List.reverse_nil, List.nil_append, Except.ok.injEq, Prod.mk.injEq] at hequal
  rw [hequal.1]

end Signature

end Routecraft.Bytecode
