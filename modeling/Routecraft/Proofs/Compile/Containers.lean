import Routecraft.Proofs.Compile.Bindings

/-!
# Values in containers

Which types a value of the path, the query, a header, a cookie or a form can be converted to. A class is looked up
among the parts of a request before it is converted, but the element of a container only has to be a class without
arguments; so a container can ask for elements that are refused by themselves.

* `convertible_plain`, `convertible_container`: the classes and the containers that a value can be converted to.
* `container_admits`: the elements that are accepted in a container only.
-/

namespace Routecraft.Compile

open Bytecode

/-- The bindings to values that are looked up in the request by a name. -/
def valueBindings : List Binding := [.path, .query, .header, .cookie, .form]

/-! ## Containers and their elements -/

/-- The bindings of request values all go by one way. -/
theorem bindingCode_of_mem_valueBindings {p : Parameter} (h : p.binding ∈ valueBindings) :
    ∃ source, bindingCode p = valueBinding source p := by
  simp only [valueBindings, List.mem_cons, List.not_mem_nil, or_false] at h
  unfold bindingCode
  rcases h with h | h | h | h | h <;> exact ⟨_, by rw [h]⟩

/-- A binding to a value is accepted if and only if the value can be converted to the type of the parameter. -/
theorem bindParam_value_eq_ok {p : Parameter} (h : p.binding ∈ valueBindings) {a : Assembler} {method : String} :
    (bindParam a method p).2 = .ok () ↔ ∃ c, Convertible p.type c := by
  obtain ⟨source, hcode⟩ := bindingCode_of_mem_valueBindings h
  simp only [bindParam_eq_ok, hcode, valueBinding, ← conversion_eq_ok]
  split
  · next fault hfault => simp [hfault, BindingCode.refused]
  · next c hc => simp [hc, BindingCode.supported]

/-- A class is refused as a value if and only if it is a part of a request. -/
theorem convertible_plain {name : String} : (∃ c, Convertible (.plain name) c) ↔ name ∉ requestOnly := by
  constructor
  · rintro ⟨c, hc⟩
    cases hc with
    | text => decide
    | plain hname _ => exact hname
  · intro hname
    by_cases hstring : name = Platform.string
    · subst hstring
      exact ⟨.text, .text⟩
    · exact ⟨_, .plain hname hstring⟩

/-- A container is accepted if and only if its elements are of a class without arguments. -/
theorem convertible_container {container : String} (h : container ∈ containers.map Prod.fst) {t : TypeExpr} :
    (∃ c, Convertible (.named container [t]) c) ↔ ∃ name, t = .plain name := by
  obtain ⟨⟨container, make⟩, hmem, rfl⟩ := List.mem_map.mp h
  constructor
  · rintro ⟨c, hc⟩
    cases hc with
    | container element _ => exact ⟨element, rfl⟩
  · rintro ⟨name, rfl⟩
    exact ⟨_, .container name hmem⟩

/-- **A container accepts parts of a request.** Of two parameters that are bound to a value in the same way, one of a
container and one of its elements, the container is accepted and the element refused exactly if the element is one of
the classes of parts of a request: a container asks no more of its elements than that they are of a class without
arguments. -/
theorem container_admits {p q : Parameter} (hvalue : p.binding ∈ valueBindings) (hbinding : q.binding = p.binding)
    {container : String} (hcontainer : container ∈ [Platform.optional, Platform.list, Platform.set])
    (htype : p.type = .named container [q.type]) (a b : Assembler) (method method' : String) :
    (bindParam a method p).2 = .ok () ∧ (bindParam b method' q).2 ≠ .ok () ↔
      ∃ name ∈ requestOnly, q.type = .plain name := by
  have hvalue' : q.binding ∈ valueBindings := hbinding ▸ hvalue
  rw [Ne, bindParam_value_eq_ok hvalue, bindParam_value_eq_ok hvalue', htype, convertible_container hcontainer]
  constructor
  · rintro ⟨⟨name, hplain⟩, hrefused⟩
    rw [hplain, convertible_plain, not_not] at hrefused
    exact ⟨name, hrefused, hplain⟩
  · rintro ⟨name, hname, hplain⟩
    rw [hplain, convertible_plain]
    exact ⟨⟨name, rfl⟩, not_not.mpr hname⟩

section

def photo (type : TypeExpr) : Parameter :=
  { name := "photo", source := "", binding := .query, type := type, nullable := false }

/-- A query parameter of a list of uploads. -/
def photos : Parameter := photo (.named Platform.list [.plain Platform.fileUpload])

/-- A list of uploads is admitted where a single one is refused. -/
theorem container_admits_uploads :
    (bindParam .empty "app.Users.save" photos).2 = .ok () ∧
      (bindParam .empty "app.Users.save" (photo (.plain Platform.fileUpload))).2 ≠ .ok () := by
  have hbinding : (photo (.plain Platform.fileUpload)).binding = photos.binding := rfl
  have hcontainer : Platform.list ∈ [Platform.optional, Platform.list, Platform.set] := by decide
  exact (container_admits (by decide) hbinding hcontainer rfl .empty .empty _ _).mpr
    ⟨Platform.fileUpload, by decide, rfl⟩

/-- The request context is refused as a value, but not in a container. -/
theorem context_admitted :
    (bindParam .empty "app.Users.save" (photo (.named Platform.optional [.plain Platform.context]))).2 = .ok () ∧
      (bindParam .empty "app.Users.save" (photo (.plain Platform.context))).2 =
        .error (.unsupportedBinding "app.Users.save" "photo" .query (.plain Platform.context) .requestOnlyValue) :=
  ⟨rfl, rfl⟩

end

end Routecraft.Compile
