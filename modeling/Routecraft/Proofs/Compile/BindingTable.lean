import Routecraft.Compile.BindingCode

/-!
# The table of bindings

What each part of a request can be bound to, and the code for it, as a table: a row for each way to bind, with all
that the row depends on. The bindings try one row after the other; what is proved of all of them is proved by cases on
the rows, which do not depend on their order.

* `Convertible`, `BodyRow`, `UploadRow`, `ContextRow`, `BoundRow`: the rows of one part.
* `conversion_eq_ok`, `bodyConversion?_eq_some`, `uploadCode?_eq_some`: what is found are the rows.
* `Binds`: the table.
* `bindingCode_cases`: **a binding is in the table, or it is refused**, and then there is little code to be left.
-/

namespace Routecraft.Compile

open Bytecode

/-! ## Parts of a type -/

/-- A type has a name, with any arguments. -/
theorem isNamed_iff {t : TypeExpr} {name : String} : t.isNamed name = true ↔ ∃ args, t = .named name args := by
  cases t <;> simp [TypeExpr.isNamed, TypeExpr.className?]

theorem onlyArgOf?_eq_some {t arg : TypeExpr} {container : String} :
    t.onlyArgOf? container = some arg ↔ t = .named container [arg] := by
  unfold TypeExpr.onlyArgOf?
  split
  · next name arg' =>
    split
    · next hname => simp [hname]
    · next hname => simp [hname]
  · next hnot =>
    refine ⟨nofun, ?_⟩
    intro h
    exact absurd h (hnot container arg)

theorem plainClass?_eq_some {t : TypeExpr} {type : DataType} :
    plainClass? t = some type ↔ ∃ name, t = .plain name ∧ type = .object name := by
  unfold plainClass?
  split
  · next name => simp [TypeExpr.plain, eq_comm]
  · next hplain =>
    constructor
    · intro h
      cases h
    · rintro ⟨name, rfl, -⟩
      exact absurd rfl (hplain name)

/-- The code of a class, with or without arguments. -/
theorem typeCode_named (name : String) (args : List TypeExpr) :
    typeCode (.named name args) = if args.isEmpty then [.classOf (.object name)] else reifiedCode name args := by
  cases args with
  | nil => rfl
  | cons arg args =>
      rw [typeCode]
      rfl

/-! ## Values of the path, the query, headers, cookies and forms -/

/-- A type that a request value can be converted to, and how it is converted. -/
inductive Convertible : TypeExpr → Conversion → Prop
  | primitive (kind : Primitive) : Convertible (.primitive kind) (.primitive kind)
  | text : Convertible (.plain Platform.string) .text
  | plain {name : String} : name ∉ requestOnly → name ≠ Platform.string →
      Convertible (.plain name) (.class (.object name))
  | container {container : String} {make : DataType → Conversion} (element : String) :
      (container, make) ∈ containers → Convertible (.named container [.plain element]) (make (.object element))

/-- The containers are these three. -/
theorem mem_containers {container : String} {make : DataType → Conversion} : (container, make) ∈ containers ↔
    container = Platform.optional ∧ make = .optional ∨ container = Platform.list ∧ make = .list ∨
      container = Platform.set ∧ make = .set := by
  simp [containers]

/-- No container is a part of a request. -/
theorem not_mem_requestOnly_of_container {container : String} {make : DataType → Conversion}
    (h : (container, make) ∈ containers) : container ∉ requestOnly := by
  have hnames : ∀ name ∈ containers.map Prod.fst, name ∉ requestOnly := by decide
  exact hnames container (List.mem_map_of_mem h)

/-- The element of a container, and how the container is made of converted elements. -/
theorem findSome?_containers {t element : TypeExpr} {make : DataType → Conversion} :
    (containers.findSome? fun (name, make) => (t.onlyArgOf? name).map (·, make)) = some (element, make) ↔
      ∃ container, (container, make) ∈ containers ∧ t = .named container [element] := by
  constructor
  · intro h
    obtain ⟨⟨container, m⟩, hmem, hsome⟩ := List.exists_of_findSome?_eq_some h
    obtain ⟨e, hlist, hpair⟩ := Option.map_eq_some_iff.mp hsome
    cases hpair
    exact ⟨container, hmem, onlyArgOf?_eq_some.mp hlist⟩
  · rintro ⟨container, hmem, rfl⟩
    -- The names of the containers differ, so each of them is found although the others are tried too.
    rcases mem_containers.mp hmem with ⟨rfl, rfl⟩ | ⟨rfl, rfl⟩ | ⟨rfl, rfl⟩
    · rfl
    · rfl
    · rfl

/-- A container can be taken of values of a class without arguments. -/
theorem containerConversion_eq_ok {t : TypeExpr} {c : Conversion} : containerConversion t = .ok c ↔
    ∃ container make element, (container, make) ∈ containers ∧ t = .named container [.plain element] ∧
      c = make (.object element) := by
  unfold containerConversion
  split
  · next element make hfound =>
    obtain ⟨container, hmem, rfl⟩ := findSome?_containers.mp hfound
    split
    · next type hplain =>
      obtain ⟨name, rfl, rfl⟩ := plainClass?_eq_some.mp hplain
      constructor
      · intro h
        cases h
        exact ⟨container, make, name, hmem, rfl, rfl⟩
      · rintro ⟨container', make', name', hmem', htype, rfl⟩
        cases htype
        have hmake := hfound.symm.trans (findSome?_containers.mpr ⟨container, hmem', rfl⟩)
        cases hmake
        rfl
    · next hplain =>
      constructor
      · intro h
        cases h
      · rintro ⟨container', make', name', -, htype, -⟩
        cases htype
        cases hplain
  · next hfound =>
    constructor
    · intro h
      cases h
    · rintro ⟨container, make, name, hmem, rfl, -⟩
      rw [findSome?_containers.mpr ⟨container, hmem, rfl⟩] at hfound
      cases hfound

/-- The table is the conversion. -/
theorem conversion_eq_ok {t : TypeExpr} {c : Conversion} : conversion t = .ok c ↔ Convertible t c := by
  constructor
  · intro h
    cases t with
    | void => cases h
    | array element => cases h
    | primitive kind =>
        cases h
        exact .primitive kind
    | named name args =>
        simp only [conversion, List.contains_iff_mem] at h
        split at h
        · cases h
        · next hname =>
          split at h
          · next hargs =>
            rw [List.isEmpty_iff] at hargs
            subst hargs
            split at h
            · next hstring =>
              cases h
              subst hstring
              exact .text
            · next hstring =>
              cases h
              exact .plain hname hstring
          · obtain ⟨container, make, element, hmem, htype, rfl⟩ := containerConversion_eq_ok.mp h
            rw [htype]
            exact .container element hmem
  · intro h
    cases h with
    | primitive kind => rfl
    | text => rfl
    | plain hname hstring => simp [conversion, TypeExpr.plain, hname, hstring]
    | container element hmem =>
        simp only [conversion, List.contains_iff_mem, not_mem_requestOnly_of_container hmem, if_false,
          List.isEmpty_cons, Bool.false_eq_true]
        exact containerConversion_eq_ok.mpr ⟨_, _, element, hmem, rfl, rfl⟩

/-! ## The body -/

/-- A type that the body can be converted to, and the code that converts the body on the stack. -/
inductive BodyRow : TypeExpr → List (Instr Constant) → Prop
  | body (args : List TypeExpr) : BodyRow (.named Platform.body args) []
  | bytes : BodyRow byteArray [Framework.bodyBytes.instr]
  | stream (args : List TypeExpr) : BodyRow (.named Platform.inputStream args) [Framework.bodyStream.instr]
  | text : BodyRow (.plain Platform.string) [Framework.bodyValue.instr]
  | primitive (kind : Primitive) : BodyRow (.primitive kind)
      [.classOf (.object kind.boxClass), Framework.bodyTo.instr, .checkCast (.object kind.boxClass),
        (Framework.unbox kind).instr]
  | object {name : String} {args : List TypeExpr} : name ≠ Platform.body → name ≠ Platform.inputStream →
      TypeExpr.named name args ≠ .plain Platform.string →
      BodyRow (.named name args) (typeCode (.named name args) ++ [Framework.bodyTo.instr, .checkCast (.object name)])
  | array {element : TypeExpr} {type : DataType} : TypeExpr.array element ≠ byteArray →
      dataType? (.array element) = some type →
      BodyRow (.array element) [.classOf type, Framework.bodyTo.instr, .checkCast type]

/-- The types that a body can be taken as are those of the table. -/
theorem bodyConversion?_eq_some {t : TypeExpr} {code : List (Instr Constant)} :
    bodyConversion? t = some code ↔ BodyRow t code := by
  constructor
  · intro h
    unfold bodyConversion? at h
    split at h
    · next hbody =>
      cases h
      obtain ⟨args, rfl⟩ := isNamed_iff.mp hbody
      exact .body args
    · next hbody =>
      split at h
      · next hbytes =>
        cases h
        subst hbytes
        exact .bytes
      · next hbytes =>
        split at h
        · next hstream =>
          cases h
          obtain ⟨args, rfl⟩ := isNamed_iff.mp hstream
          exact .stream args
        · next hstream =>
          split at h
          · next htext =>
            cases h
            subst htext
            exact .text
          · next htext =>
            split at h
            · cases h
            · next kind =>
              cases h
              exact .primitive kind
            · next name args =>
              rw [← typeCode_named] at h
              cases h
              refine .object ?_ ?_ htext
              · rintro rfl
                exact hbody (isNamed_iff.mpr ⟨args, rfl⟩)
              · rintro rfl
                exact hstream (isNamed_iff.mpr ⟨args, rfl⟩)
            · next element =>
              obtain ⟨type, htype, rfl⟩ := Option.map_eq_some_iff.mp h
              exact .array hbytes htype
  · intro h
    cases h with
    | body args => rfl
    | bytes => rfl
    | stream args => rfl
    | text => rfl
    | primitive kind => rfl
    | object hbody hstream htext =>
        rw [typeCode_named]
        simp [bodyConversion?, isNamed_iff, hbody, hstream, htext, byteArray]
    | array hbytes htype => simp [bodyConversion?, isNamed_iff, hbytes, htype, TypeExpr.plain]

/-! ## Uploads -/

/-- A type that an upload can be taken as, and the code that takes it by the name on the stack. -/
inductive UploadRow : TypeExpr → List (Instr Constant) → Prop
  | files : UploadRow (.named Platform.list [.plain Platform.fileUpload]) [Framework.files.instr]
  | file : UploadRow (.plain Platform.fileUpload) [Framework.file.instr]
  | path : UploadRow (.plain Platform.filePath) [Framework.file.instr, Framework.uploadPath.instr]
  | bytes : UploadRow byteArray [Framework.file.instr, Framework.uploadBytes.instr]

/-- The types that an upload can be taken as are those of the table. -/
theorem uploadCode?_eq_some {t : TypeExpr} {code : List (Instr Constant)} :
    uploadCode? t = some code ↔ UploadRow t code := by
  constructor
  · intro h
    unfold uploadCode? at h
    split at h
    · next hfiles =>
      cases h
      rw [onlyArgOf?_eq_some.mp hfiles]
      exact .files
    · split at h
      · next hfile =>
        cases h
        rw [hfile]
        exact .file
      · split at h
        · next hpath =>
          cases h
          rw [hpath]
          exact .path
        · split at h
          · next hbytes =>
            cases h
            rw [hbytes]
            exact .bytes
          · cases h
  · intro h
    cases h with
    | files => rfl
    | file => rfl
    | path => rfl
    | bytes => rfl

/-! ## The context and the objects in it -/

/-- A type that is found in the context, and the code that finds it. -/
inductive ContextRow : TypeExpr → List (Instr Constant) → Prop
  | context (args : List TypeExpr) : ContextRow (.named Platform.context args) [loadContext]
  | optional (element : String) : ContextRow (.named Platform.optional [.plain element])
      [loadContext, .classOf (.object element), Framework.require.instr, Framework.optionalOfNullable.instr]
  | primitive (kind : Primitive) : ContextRow (.primitive kind)
      [loadContext, .classOf (.object kind.boxClass), Framework.require.instr, .checkCast (.object kind.boxClass),
        (Framework.unbox kind).instr]
  | object {name : String} {args : List TypeExpr} : name ≠ Platform.context →
      (TypeExpr.named name args).onlyArgOf? Platform.optional = none →
      ContextRow (.named name args)
        [loadContext, .classOf (.object name), Framework.require.instr, .checkCast (.object name)]
  | array {element : TypeExpr} {type : DataType} : dataType? (.array element) = some type →
      ContextRow (.array element) [loadContext, .classOf type, Framework.require.instr, .checkCast type]

/-- The context is taken by a row of its table, or refused. -/
theorem contextBinding_cases (q : Parameter) :
    (∃ code, ContextRow q.type code ∧ contextBinding q = .supported code) ∨
      ∃ fault, contextBinding q = .refused fault := by
  unfold contextBinding
  split
  · exact .inr ⟨_, rfl⟩
  · next hvoid =>
    split
    · next hcontext =>
      obtain ⟨args, htype⟩ := isNamed_iff.mp hcontext
      exact .inl ⟨_, htype ▸ .context args, rfl⟩
    · next hcontext =>
      split
      · next inner hinner =>
        split
        · next element hplain =>
          obtain ⟨name, rfl, rfl⟩ := plainClass?_eq_some.mp hplain
          exact .inl ⟨_, onlyArgOf?_eq_some.mp hinner ▸ .optional name, rfl⟩
        · exact .inr ⟨_, rfl⟩
      · next hinner =>
        cases htype : q.type with
        | void => simp [htype, TypeExpr.isVoid] at hvoid
        | primitive kind => exact .inl ⟨_, .primitive kind, rfl⟩
        | named name args =>
            rw [htype] at hcontext hinner
            refine .inl ⟨_, .object ?_ hinner, rfl⟩
            rintro rfl
            exact hcontext (isNamed_iff.mpr ⟨args, rfl⟩)
        | array element =>
            dsimp only
            split
            · next type hdata => exact .inl ⟨_, .array hdata, rfl⟩
            · exact .inr ⟨_, rfl⟩

/-! ## Binders -/

/-- A type that is made for the request, by a binder if there is one, and the code that asks for it. -/
inductive BoundRow : Option MethodName → TypeExpr → List (Instr Constant) → Prop
  | binder (m : MethodName) (name : String) (args : List TypeExpr) : BoundRow (some m) (.named name args)
      [loadContext, .invokeStatic m.owner m.name (.returning [.object Platform.context] (.object name))]
  | context (name : String) (args : List TypeExpr) : BoundRow none (.named name args)
      [loadContext, .classOf (.object name), Framework.bind.instr, .checkCast (.object name)]

/-- An object is bound by a row of its table, or refused. -/
theorem boundBinding_cases (binder : Option MethodName) (q : Parameter) :
    (∃ code, BoundRow binder q.type code ∧ boundBinding binder q = .supported code) ∨
      ∃ fault, boundBinding binder q = .refused fault := by
  unfold boundBinding
  split
  · exact .inr ⟨_, rfl⟩
  · exact .inr ⟨_, rfl⟩
  · exact .inr ⟨_, rfl⟩
  · next name args htype =>
    rw [htype]
    cases binder with
    | some m => exact .inl ⟨_, .binder m name args, rfl⟩
    | none => exact .inl ⟨_, .context name args, rfl⟩

/-! ## All parts -/

/-- The bindings that are named for a part of the request in which values are looked up. -/
theorem binding_of_source {b : Binding} (h : b.name ∈ Framework.sources) :
    b = .path ∨ b = .query ∨ b = .header ∨ b = .cookie ∨ b = .form := by
  cases b with
  | path | query | header | cookie | form => simp
  | body | upload | context | bound binder => simp [Binding.name, Framework.sources] at h

/-- **The table of bindings**: a parameter that is supported, and the code that binds it. -/
inductive Binds (q : Parameter) : List (Instr Constant) → Prop
  | value {c : Conversion} : q.binding.name ∈ Framework.sources → Convertible q.type c →
      Binds q ([loadContext, .string q.sourceName, (Framework.lookup q.binding.name).instr] ++ c.code q.nullable)
  | body {code : List (Instr Constant)} : q.binding = .body → BodyRow q.type code →
      Binds q ([loadContext, Framework.body.instr] ++ code)
  | upload {code : List (Instr Constant)} : q.binding = .upload → UploadRow q.type code →
      Binds q ([loadContext, .string q.sourceName] ++ code)
  | context {code : List (Instr Constant)} : q.binding = .context → ContextRow q.type code → Binds q code
  | bound {binder : Option MethodName} {code : List (Instr Constant)} : q.binding = .bound binder →
      BoundRow binder q.type code → Binds q code

/-- A binding that is not in the table, and the code that is written before it is refused. -/
inductive Refuses (q : Parameter) : List (Instr Constant) → Prop
  | early : Refuses q []
  | body : Refuses q [loadContext, Framework.body.instr]
  | upload : Refuses q [loadContext, .string q.sourceName]

/-- A request value is taken by a row of the table, or refused. -/
theorem valueBinding_cases {q : Parameter} (hsource : q.binding.name ∈ Framework.sources) :
    (∃ code, Binds q code ∧ valueBinding q.binding.name q = .supported code) ∨
      ∃ fault, valueBinding q.binding.name q = .refused fault := by
  unfold valueBinding
  split
  · exact .inr ⟨_, rfl⟩
  · next c hc => exact .inl ⟨_, .value hsource (conversion_eq_ok.mp hc), rfl⟩

/-- A body is taken by a row of the table; what is refused may leave code behind. -/
theorem bodyBinding_cases {q : Parameter} (hbinding : q.binding = .body) :
    (∃ code, Binds q code ∧ bodyBinding q = .supported code) ∨
      ∃ code fault, Refuses q code ∧ bodyBinding q = ⟨code, some fault⟩ := by
  unfold bodyBinding
  split
  · exact .inr ⟨_, _, .early, rfl⟩
  · split
    · exact .inr ⟨_, _, .early, rfl⟩
    · dsimp only
      split
      · next code hcode => exact .inl ⟨_, .body hbinding (bodyConversion?_eq_some.mp hcode), rfl⟩
      · exact .inr ⟨_, _, .body, rfl⟩

/-- An upload is taken by a row of the table; what is refused leaves code behind. -/
theorem uploadBinding_cases {q : Parameter} (hbinding : q.binding = .upload) :
    (∃ code, Binds q code ∧ uploadBinding q = .supported code) ∨
      ∃ code fault, Refuses q code ∧ uploadBinding q = ⟨code, some fault⟩ := by
  unfold uploadBinding
  dsimp only
  split
  · next code hcode => exact .inl ⟨_, .upload hbinding (uploadCode?_eq_some.mp hcode), rfl⟩
  · exact .inr ⟨_, _, .upload, rfl⟩

/-- **A binding is in the table, or it is refused.** -/
theorem bindingCode_cases (q : Parameter) :
    (∃ code, Binds q code ∧ bindingCode q = .supported code) ∨
      ∃ code fault, Refuses q code ∧ bindingCode q = ⟨code, some fault⟩ := by
  have hearly {b : BindingCode} {P : Prop} (h : P ∨ ∃ fault, b = .refused fault) :
      P ∨ ∃ code fault, Refuses q code ∧ b = ⟨code, some fault⟩ :=
    h.imp_right fun ⟨fault, hb⟩ => ⟨_, fault, .early, hb⟩
  have hvalue (hsource : q.binding.name ∈ Framework.sources) := hearly (valueBinding_cases hsource)
  unfold bindingCode
  cases hbinding : q.binding <;> rw [hbinding] at hvalue
  case path => exact hvalue (by decide)
  case query => exact hvalue (by decide)
  case header => exact hvalue (by decide)
  case cookie => exact hvalue (by decide)
  case form => exact hvalue (by decide)
  case body => exact bodyBinding_cases hbinding
  case upload => exact uploadBinding_cases hbinding
  case context =>
    refine hearly ((contextBinding_cases q).imp_left ?_)
    rintro ⟨code, hrow, hcode⟩
    exact ⟨code, .context hbinding hrow, hcode⟩
  case bound binder =>
    refine hearly ((boundBinding_cases binder q).imp_left ?_)
    rintro ⟨code, hrow, hcode⟩
    exact ⟨code, .bound hbinding hrow, hcode⟩

/-- A binding that is supported is in the table. -/
theorem binds_of_supported {q : Parameter} (hfault : (bindingCode q).fault = none) : Binds q (bindingCode q).code := by
  rcases bindingCode_cases q with ⟨code, hbinds, hcode⟩ | ⟨code, fault, -, hcode⟩
  · rw [hcode]
    exact hbinds
  · rw [hcode] at hfault
    cases hfault

/-- What is made for the request is of a class. -/
theorem named_of_bound {q : Parameter} {binder : Option MethodName} (hbinding : q.binding = .bound binder)
    (hfault : (bindingCode q).fault = none) : ∃ name args, q.type = .named name args := by
  unfold bindingCode at hfault
  rw [hbinding] at hfault
  dsimp only at hfault
  rcases boundBinding_cases binder q with ⟨code, hrow, -⟩ | ⟨fault, hrefused⟩
  · generalize q.type = t at hrow
    cases hrow with
    | binder m name args => exact ⟨name, args, rfl⟩
    | context name args => exact ⟨name, args, rfl⟩
  · rw [hrefused] at hfault
    cases hfault

/-- The code of a binding is that of the table, or what is written before it is refused. -/
theorem bindingCode_code_cases (q : Parameter) : Binds q (bindingCode q).code ∨ Refuses q (bindingCode q).code := by
  rcases bindingCode_cases q with ⟨code, hbinds, hcode⟩ | ⟨code, fault, hrefuses, hcode⟩
  · rw [hcode]
    exact .inl hbinds
  · rw [hcode]
    exact .inr hrefuses

end Routecraft.Compile
