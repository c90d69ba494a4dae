import Routecraft.Proofs.Compile.BindingTable
import Routecraft.Proofs.Compile.Literals

/-!
# Endpoints as they are described

An interpreter of endpoints, without code in between: it takes each argument from the request as the binding
and the type of the parameter ask for it, calls the method, and makes the answer that the return type asks for.

* `Program.argument`: the argument for a parameter.
* `Program.answer`: the answer that is made from a result.
* `Program.respond`: the interpreter.
* `Program.effects_bindingCode`: the code of a binding leaves the argument.
-/

namespace Routecraft.Machine

open Bytecode Compile

namespace Program

variable (p : Program) (ctx : Value)

/-! ## Arguments -/

/-- A value that has to be of a class, if it is of any. -/
def cast (className : String) (v : Value) : Action Value := do
  match v.className? with
  | some found => if p.hierarchy.isSubtype found className then return v else mismatch className v
  | none => return v

/-- The primitive value in a box. -/
def unboxed (kind : Primitive) (v : Value) : Action Value := do
  p.invoke (← p.cast kind.boxClass v) (Framework.unboxName kind) []

/-- What a binding that is not supported comes to; endpoints with one do not compile. -/
def unsupported : Action Value := throw (.missing "a supported binding")

/-- The name of the class of a type's values. -/
def erasedClass (t : TypeExpr) : String := ((dataType? t).map DataType.className).getD Platform.context

/-- A type as a value, with the arrays that hold its arguments. -/
def literal (t : TypeExpr) : Action Value := do
  modify (·.withArrays (typeArrays t))
  return typeValue t

/-- A request value, as what the type asks for. -/
def readValue (nullable : Bool) (v : Value) : TypeExpr → Action Value
  | .primitive kind => p.invoke v (Framework.unboxName kind) []
  | .named name [] => do
    if requestOnly.contains name then unsupported
    else if name = Platform.string then p.invoke v (if nullable then "valueOrNull" else "value") []
    else p.cast name (← p.invoke v (if nullable then "toNullable" else "to") [.classRef name])
  | .named container [.named element []] =>
    if container = Platform.optional then p.invoke v "toOptional" [.classRef element]
    else if container = Platform.list then p.invoke v "toList" [.classRef element]
    else if container = Platform.set then p.invoke v "toSet" [.classRef element]
    else unsupported
  | _ => unsupported

/-- A value of the path, the query, a header, a cookie or a form. -/
def valueArgument (source : String) (q : Parameter) : Action Value := do
  p.readValue q.nullable (← p.invoke ctx source [.text q.sourceName]) q.type

def readBody (body : Value) (t : TypeExpr) : Action Value := do
  if t.isNamed Platform.body then return body
  else if t = byteArray then p.invoke body "bytes" []
  else if t.isNamed Platform.inputStream then p.invoke body "stream" []
  else if t = .plain Platform.string then p.invoke body "value" []
  else
    match t with
    | .void => unsupported
    | .primitive kind => p.unboxed kind (← p.invoke body "to" [.classRef kind.boxClass])
    | .named name args => p.cast name (← p.invoke body "to" [← literal (.named name args)])
    | .array element =>
      let className := erasedClass (.array element)
      p.cast className (← p.invoke body "to" [.classRef className])

def bodyArgument (q : Parameter) : Action Value := do p.readBody (← p.invoke ctx "body" []) q.type

/-- An upload, or what the type asks for of it. -/
def uploadArgument (q : Parameter) : Action Value := do
  let field := Value.text q.sourceName
  if q.type.onlyArgOf? Platform.list = some (.plain Platform.fileUpload) then p.invoke ctx "files" [field]
  else
    let file ← p.invoke ctx "file" [field]
    if q.type = .plain Platform.fileUpload then return file
    else if q.type = .plain Platform.filePath then p.invoke file "path" []
    else if q.type = byteArray then p.invoke file "bytes" []
    else unsupported

/-- The context, or an object that is found in it by its class. -/
def contextArgument (q : Parameter) : Action Value := do
  if q.type.isNamed Platform.context then return ctx
  else
    match q.type.onlyArgOf? Platform.optional with
    | some (.named element []) =>
      match ← p.invoke ctx "require" [.classRef element] with
      | .null => return .optional none
      | v => return .optional (some v)
    | some _ => unsupported
    | none =>
      match q.type with
      | .primitive kind => p.unboxed kind (← p.invoke ctx "require" [.classRef kind.boxClass])
      | t => p.cast (erasedClass t) (← p.invoke ctx "require" [.classRef (erasedClass t)])

/-- An object that a binder makes, or that the context binds to its class. -/
def boundArgument (binder : Option MethodName) (q : Parameter) : Action Value := do
  match q.type, binder with
  | .named _ _, some m => p.callStatic m.owner m.name [ctx]
  | .named name _, none => p.cast name (← p.invoke ctx "bind" [.classRef name])
  | _, _ => unsupported

/-- The argument for a parameter, taken from the request. -/
def argument (q : Parameter) : Action Value :=
  match q.binding with
  | .path => p.valueArgument ctx "path" q
  | .query => p.valueArgument ctx "query" q
  | .header => p.valueArgument ctx "header" q
  | .cookie => p.valueArgument ctx "cookie" q
  | .form => p.valueArgument ctx "form" q
  | .body => p.bodyArgument ctx q
  | .upload => p.uploadArgument ctx q
  | .context => p.contextArgument ctx q
  | .bound binder => p.boundArgument ctx binder q

/-! ## Answers -/

/-- The answer that is made from a result. Without a result it is the context, on which the status for no content
is sent unless the response has been started. -/
def answer (result : Value) : Outcome → Action Value
  | .void => do
    let started ← (← p.invoke ctx "isResponseStarted" []).asInt
    if started == 0 then p.invoke ctx "send" [.status noContent] else return ctx
  | .primitive kind => return .boxed kind result
  | .statusCode => p.invoke ctx "send" [result]
  | .reference _ | .context | .parameterized _ _ => return result

/-- **The interpreter of endpoints**, with the controller that has the method: the arguments are taken from the
request in order, and then the method is called. -/
def respond (e : Endpoint) (controller : Value) : Action Value := do
  let args ← e.params.mapM (p.argument ctx)
  p.answer ctx (← p.invoke controller e.name args) e.outcome

/-! ## The code of bindings -/

variable {p : Program} {ctx : Value} {ls : Array Value} {st : List Value} {q : Parameter}

/-- Two actions are equal if they do the same on every store. -/
theorem ext_perform {α : Type} {a b : Action α} (h : ∀ s : Store, s.perform a = s.perform b) : a = b := funext h

/-- A text is pushed. -/
theorem effect_string (text : String) : p.effect (.string text) ⟨ls, st⟩ = pure ⟨ls, .text text :: st⟩ := rfl

theorem effect_classOf (t : DataType) : p.effect (.classOf t) ⟨ls, st⟩ = pure ⟨ls, .classRef t.className :: st⟩ := rfl

theorem effect_loadContext (hctx : ls[1]? = some ctx) : p.effect loadContext ⟨ls, st⟩ = pure ⟨ls, ctx :: st⟩ :=
  effect_load p hctx st

theorem effect_checkCast (t : DataType) (v : Value) :
    p.effect (.checkCast t) ⟨ls, v :: st⟩ = p.cast t.className v >>= fun v => pure ⟨ls, v :: st⟩ := by
  show (match v.className? with | some _ => _ | none => _) = _
  unfold cast
  rcases v.className? with _ | found
  · rfl
  · by_cases h : p.hierarchy.isSubtype found t.className = true
    · simp [h]
    · simp [h]

theorem effect_checkCast_object (name : String) (v : Value) :
    p.effect (.checkCast (.object name)) ⟨ls, v :: st⟩ = p.cast name v >>= fun v => pure ⟨ls, v :: st⟩ :=
  effect_checkCast (.object name) v

theorem effect_unbox (kind : Primitive) (v : Value) :
    p.effect (Framework.unbox kind).instr ⟨ls, v :: st⟩ =
      p.invoke v (Framework.unboxName kind) [] >>= fun v => pure ⟨ls, v :: st⟩ :=
  effect_onObject₀ ⟨Framework.unbox_mem kind, nofun, rfl⟩ v

/-- A request value is read as one of a kind. -/
theorem effect_valuePrimitive (kind : Primitive) (v : Value) :
    p.effect (Framework.valuePrimitive kind).instr ⟨ls, v :: st⟩ =
      p.invoke v (Framework.unboxName kind) [] >>= fun v => pure ⟨ls, v :: st⟩ :=
  effect_onObject₀ ⟨Framework.valuePrimitive_mem kind, nofun, rfl⟩ v

/-- A source is asked by a name. -/
theorem effect_lookup {source : String} (hsource : source ∈ Framework.sources) (text v : Value) :
    p.effect (Framework.lookup source).instr ⟨ls, text :: v :: st⟩ =
      p.invoke v source [text] >>= fun v => pure ⟨ls, v :: st⟩ :=
  effect_onObject₁ ⟨Framework.mem_sources_of_lookup hsource, nofun, rfl⟩ v text

/-- A request value is read as a text. -/
theorem effect_valueText (nullable : Bool) (v : Value) :
    p.effect (Framework.valueText nullable).instr ⟨ls, v :: st⟩ =
      p.invoke v (if nullable then "valueOrNull" else "value") [] >>= fun v => pure ⟨ls, v :: st⟩ := by
  have hcall : Framework.OnObject (Framework.valueText nullable) 0 := by
    cases nullable <;> exact ⟨by decide, nofun, rfl⟩
  exact effect_onObject₀ hcall v

/-- A request value is read as one of a class. -/
theorem effect_valueTo (nullable : Bool) (v type : Value) :
    p.effect (Framework.valueTo nullable).instr ⟨ls, type :: v :: st⟩ =
      p.invoke v (if nullable then "toNullable" else "to") [type] >>= fun v => pure ⟨ls, v :: st⟩ := by
  have hcall : Framework.OnObject (Framework.valueTo nullable) 1 := by
    cases nullable <;> exact ⟨by decide, nofun, rfl⟩
  exact effect_onObject₁ hcall v type

/-- The code of a conversion reads the value on the stack as what the type asks for. -/
theorem effects_conversion {nullable : Bool} {t : TypeExpr} {c : Conversion} (h : Convertible t c) (v : Value) :
    p.effects (c.code nullable) ⟨ls, v :: st⟩ = p.readValue nullable v t >>= fun v => pure ⟨ls, v :: st⟩ := by
  have hoptional : Framework.OnObject Framework.valueToOptional 1 := ⟨by decide, nofun, rfl⟩
  have hlist : Framework.OnObject Framework.valueToList 1 := ⟨by decide, nofun, rfl⟩
  have hset : Framework.OnObject Framework.valueToSet 1 := ⟨by decide, nofun, rfl⟩
  cases h with
  | primitive kind =>
      simp only [Conversion.code, effects_cons, effects_nil, effect_valuePrimitive, bind_assoc, pure_bind]
      rfl
  | text =>
      simp only [Conversion.code, effects_cons, effects_nil, effect_valueText, bind_assoc, pure_bind]
      rfl
  | @plain name hname hstring =>
      have hread : p.readValue nullable v (.plain name) =
          p.invoke v (if nullable then "toNullable" else "to") [.classRef name] >>= p.cast name := by
        simp [TypeExpr.plain, readValue, hname, hstring]
      rw [hread]
      simp only [Conversion.code, effects_cons, effects_nil, effect_classOf, effect_valueTo, effect_checkCast_object,
        bind_assoc, pure_bind]
      rfl
  | container element hmem =>
      rcases mem_containers.mp hmem with ⟨rfl, rfl⟩ | ⟨rfl, rfl⟩ | ⟨rfl, rfl⟩
      · simp only [Conversion.code, effects_cons, effects_nil, effect_classOf, effect_onObject₁ hoptional, bind_assoc,
          pure_bind]
        rfl
      · simp only [Conversion.code, effects_cons, effects_nil, effect_classOf, effect_onObject₁ hlist, bind_assoc,
          pure_bind]
        rfl
      · simp only [Conversion.code, effects_cons, effects_nil, effect_classOf, effect_onObject₁ hset, bind_assoc,
          pure_bind]
        rfl

section

variable (hp : p.Unshadowed)
include hp

/-- The code of a type leaves it as a value. -/
theorem effects_typeCode {t : TypeExpr} (hlength : (typeCode t).length ≤ 2147483647) :
    p.effects (typeCode t) ⟨ls, st⟩ = literal t >>= fun v => pure ⟨ls, v :: st⟩ := by
  apply ext_perform
  intro s
  rw [makes_typeCode hp t hlength ls st s]
  rfl

/-- The code that converts the body reads it as what the type asks for. -/
theorem effects_bodyRow {t : TypeExpr} {code : List (Instr Constant)} (h : BodyRow t code)
    (hlength : code.length ≤ 2147483647) (body : Value) :
    p.effects code ⟨ls, body :: st⟩ = p.readBody body t >>= fun v => pure ⟨ls, v :: st⟩ := by
  have hbytes : Framework.OnObject Framework.bodyBytes 0 := ⟨by decide, nofun, rfl⟩
  have hstream : Framework.OnObject Framework.bodyStream 0 := ⟨by decide, nofun, rfl⟩
  have hvalue : Framework.OnObject Framework.bodyValue 0 := ⟨by decide, nofun, rfl⟩
  have hto : Framework.OnObject Framework.bodyTo 1 := ⟨by decide, nofun, rfl⟩
  cases h with
  | body args => rfl
  | bytes =>
      simp only [effects_cons, effects_nil, effect_onObject₀ hbytes, bind_assoc, pure_bind]
      rfl
  | stream args =>
      simp only [effects_cons, effects_nil, effect_onObject₀ hstream, bind_assoc, pure_bind]
      rfl
  | text =>
      simp only [effects_cons, effects_nil, effect_onObject₀ hvalue, bind_assoc, pure_bind]
      rfl
  | primitive kind =>
      have hread : p.readBody body (.primitive kind) =
          p.invoke body "to" [.classRef kind.boxClass] >>= p.unboxed kind := rfl
      rw [hread]
      simp only [effects_cons, effects_nil, effect_classOf, effect_onObject₁ hto, effect_checkCast_object,
        effect_unbox, unboxed, bind_assoc, pure_bind]
      rfl
  | @object name args hbody hstream htext =>
      have hread : p.readBody body (.named name args) =
          literal (.named name args) >>= fun type => p.invoke body "to" [type] >>= p.cast name := by
        simp [readBody, isNamed_iff, hbody, hstream, htext, byteArray]
      rw [List.length_append] at hlength
      rw [hread, effects_append, effects_typeCode hp (by omega)]
      simp only [effects_cons, effects_nil, effect_onObject₁ hto, effect_checkCast_object, bind_assoc, pure_bind]
      rfl
  | @array element type hnot htype =>
      have hread : p.readBody body (.array element) =
          p.invoke body "to" [.classRef type.className] >>= p.cast type.className := by
        simp [readBody, isNamed_iff, hnot, TypeExpr.plain, erasedClass, htype]
      rw [hread]
      simp only [effects_cons, effects_nil, effect_classOf, effect_onObject₁ hto, effect_checkCast, bind_assoc,
        pure_bind]
      rfl

end

/-- The code that takes an upload. -/
theorem effects_uploadRow (hctx : ls[1]? = some ctx) {code : List (Instr Constant)} (h : UploadRow q.type code) :
    p.effects ([loadContext, .string q.sourceName] ++ code) ⟨ls, st⟩ =
      p.uploadArgument ctx q >>= fun v => pure ⟨ls, v :: st⟩ := by
  have hfiles : Framework.OnObject Framework.files 1 := ⟨by decide, nofun, rfl⟩
  have hfile : Framework.OnObject Framework.file 1 := ⟨by decide, nofun, rfl⟩
  have hpath : Framework.OnObject Framework.uploadPath 0 := ⟨by decide, nofun, rfl⟩
  have hbytes : Framework.OnObject Framework.uploadBytes 0 := ⟨by decide, nofun, rfl⟩
  unfold uploadArgument
  generalize q.type = t at h
  simp only [List.cons_append, List.nil_append, effects_cons, effect_loadContext hctx, effect_string, pure_bind]
  cases h with
  | files =>
      simp only [effects_cons, effects_nil, effect_onObject₁ hfiles, bind_assoc, pure_bind]
      rfl
  | file =>
      have hnot : (TypeExpr.plain Platform.fileUpload).onlyArgOf? Platform.list ≠ some (.plain Platform.fileUpload) :=
        by decide
      simp only [effects_cons, effects_nil, effect_onObject₁ hfile, if_neg hnot, if_true, bind_assoc, pure_bind]
      rfl
  | path =>
      have hnot : (TypeExpr.plain Platform.filePath).onlyArgOf? Platform.list ≠ some (.plain Platform.fileUpload) ∧
          TypeExpr.plain Platform.filePath ≠ .plain Platform.fileUpload := by decide
      simp only [effects_cons, effects_nil, effect_onObject₁ hfile, effect_onObject₀ hpath, if_neg hnot.1,
        if_neg hnot.2, if_true, bind_assoc, pure_bind]
      rfl
  | bytes =>
      have hnot : byteArray.onlyArgOf? Platform.list ≠ some (.plain Platform.fileUpload) ∧
          byteArray ≠ .plain Platform.fileUpload ∧ byteArray ≠ .plain Platform.filePath := by decide
      simp only [effects_cons, effects_nil, effect_onObject₁ hfile, effect_onObject₀ hbytes, if_neg hnot.1,
        if_neg hnot.2.1, if_neg hnot.2.2, if_true, bind_assoc, pure_bind]
      rfl

/-- The code of the context or an object in it. -/
theorem effects_contextRow (hp : p.Unshadowed) (hctx : ls[1]? = some ctx) {code : List (Instr Constant)}
    (h : ContextRow q.type code) :
    p.effects code ⟨ls, st⟩ = p.contextArgument ctx q >>= fun v => pure ⟨ls, v :: st⟩ := by
  have hrequire : Framework.OnObject Framework.require 1 := ⟨by decide, nofun, rfl⟩
  have hoptional : Framework.OnClass Framework.optionalOfNullable 1 := ⟨by decide, rfl, rfl⟩
  unfold contextArgument
  generalize q.type = t at h
  cases h with
  | context args =>
      simp only [effects_cons, effects_nil, effect_loadContext hctx, pure_bind]
      rfl
  | optional element =>
      have hcall (v : Value) : callFramework Framework.optionalOfNullable.owner Framework.optionalOfNullable.name [v] =
          pure (.optional (match v with
            | .null => none
            | v => some v)) := rfl
      simp only [effects_cons, effects_nil, effect_loadContext hctx, effect_classOf, effect_onObject₁ hrequire,
        effect_onClass₁ hp hoptional, hcall, bind_assoc, pure_bind]
      refine Eq.trans ?_ (bind_assoc ..).symm
      refine bind_congr fun v => ?_
      cases v <;> rfl
  | primitive kind =>
      show _ = (p.invoke ctx "require" [.classRef kind.boxClass] >>= p.unboxed kind) >>= _
      simp only [effects_cons, effects_nil, effect_loadContext hctx, effect_classOf, effect_onObject₁ hrequire,
        effect_checkCast_object, effect_unbox, unboxed, bind_assoc, pure_bind]
      rfl
  | @object name args hname hargs =>
      have hcontext : ¬(TypeExpr.named name args).isNamed Platform.context = true := by
        simp [isNamed_iff, hname]
      simp only [if_neg hcontext, hargs, effects_cons, effects_nil, effect_loadContext hctx, effect_classOf,
        effect_onObject₁ hrequire, effect_checkCast_object, bind_assoc, pure_bind]
      rfl
  | @array element type htype =>
      have hclass : type.className = erasedClass (.array element) := by
        unfold erasedClass
        rw [htype]
        rfl
      show _ = (p.invoke ctx "require" [.classRef (erasedClass (.array element))] >>=
        p.cast (erasedClass (.array element))) >>= _
      simp only [effects_cons, effects_nil, effect_loadContext hctx, effect_classOf, effect_onObject₁ hrequire,
        effect_checkCast, hclass, bind_assoc, pure_bind]
      rfl

def binderSignature (name : String) : Signature := .returning [.object Platform.context] (.object name)

/-- The code of an object that is made for the request. -/
theorem effects_boundRow (hctx : ls[1]? = some ctx) {binder : Option MethodName} {code : List (Instr Constant)}
    (h : BoundRow binder q.type code)
    (hsignature : ∀ m name args, binder = some m → q.type = .named name args →
      Bytecode.signatureOf (binderSignature name).descriptor = .ok (binderSignature name)) :
    p.effects code ⟨ls, st⟩ = p.boundArgument ctx binder q >>= fun v => pure ⟨ls, v :: st⟩ := by
  have hbind : Framework.OnObject Framework.bind 1 := ⟨by decide, nofun, rfl⟩
  unfold boundArgument
  generalize q.type = t at h hsignature
  cases h with
  | binder m name args =>
      have hinstr : p.effect (.invokeStatic m.owner m.name
          (.returning [.object Platform.context] (.object name))) ⟨ls, [ctx].reverse ++ st⟩ =
            p.callStatic m.owner m.name [ctx] >>= fun v => pure ⟨ls, v :: st⟩ :=
        effect_invokeStatic (hsignature m name args rfl rfl) [ctx] rfl m.owner m.name
      rw [List.reverse_singleton, List.singleton_append] at hinstr
      simp only [effects_cons, effects_nil, effect_loadContext hctx, hinstr, bind_assoc, pure_bind]
  | context name args =>
      simp only [effects_cons, effects_nil, effect_loadContext hctx, effect_classOf, effect_onObject₁ hbind,
        effect_checkCast_object, bind_assoc, pure_bind]
      rfl

/-- A value is looked up in the part of the request that the binding is named for. -/
theorem argument_of_source (hsource : q.binding.name ∈ Framework.sources) :
    p.argument ctx q = p.valueArgument ctx q.binding.name q := by
  rcases binding_of_source hsource with h | h | h | h | h
  all_goals
    unfold argument
    rw [h]
    rfl

/-- **The code of a binding** leaves the argument for the parameter. -/
theorem effects_bindingCode (hp : p.Unshadowed) (hctx : ls[1]? = some ctx) (hfault : (bindingCode q).fault = none)
    (hlength : (bindingCode q).code.length ≤ 2147483647)
    (hsignature : ∀ m name args, q.binding = .bound (some m) → q.type = .named name args →
      Bytecode.signatureOf (binderSignature name).descriptor = .ok (binderSignature name)) :
    p.effects (bindingCode q).code ⟨ls, st⟩ = p.argument ctx q >>= fun v => pure ⟨ls, v :: st⟩ := by
  have hbody : Framework.OnObject Framework.body 0 := ⟨by decide, nofun, rfl⟩
  have hbinds := binds_of_supported hfault
  generalize (bindingCode q).code = code at hbinds hlength
  cases hbinds with
  | value hsource hconvertible =>
      rw [argument_of_source hsource]
      simp only [List.cons_append, List.nil_append, effects_cons, effect_loadContext hctx, effect_string,
        effect_lookup hsource, pure_bind, bind_assoc, effects_conversion hconvertible, valueArgument]
  | @body code hbinding hrow =>
      rw [List.length_append] at hlength
      simp only [List.cons_append, List.nil_append, effects_cons, effect_loadContext hctx, effect_onObject₀ hbody,
        pure_bind, bind_assoc, effects_bodyRow hp hrow (show code.length ≤ 2147483647 by omega), argument, hbinding,
        bodyArgument]
      rfl
  | upload hbinding hrow =>
      rw [effects_uploadRow hctx hrow, argument, hbinding]
  | context hbinding hrow =>
      rw [effects_contextRow hp hctx hrow, argument, hbinding]
  | bound hbinding hrow =>
      rw [argument, hbinding]
      apply effects_boundRow hctx hrow
      rintro m name args rfl htype
      exact hsignature m name args hbinding htype

/-- The code of the parameters leaves their arguments, the last one on top. -/
theorem effects_bindingCodes (hp : p.Unshadowed) (hctx : ls[1]? = some ctx) {qs : List Parameter}
    (hfault : ∀ q ∈ qs, (bindingCode q).fault = none)
    (hlength : ∀ q ∈ qs, (bindingCode q).code.length ≤ 2147483647)
    (hsignature : ∀ q ∈ qs, ∀ m name args, q.binding = .bound (some m) → q.type = .named name args →
      Bytecode.signatureOf (binderSignature name).descriptor = .ok (binderSignature name)) :
    p.effects (qs.flatMap fun q => (bindingCode q).code) ⟨ls, st⟩ =
      qs.mapM (p.argument ctx) >>= fun args => pure ⟨ls, args.reverse ++ st⟩ := by
  induction qs generalizing st with
  | nil => rfl
  | cons q qs ih =>
      obtain ⟨hfault, hfaults⟩ := List.forall_mem_cons.mp hfault
      obtain ⟨hlength, hlengths⟩ := List.forall_mem_cons.mp hlength
      obtain ⟨hsignature, hsignatures⟩ := List.forall_mem_cons.mp hsignature
      rw [List.flatMap_cons, effects_append, effects_bindingCode hp hctx hfault hlength hsignature, List.mapM_cons]
      simp only [bind_assoc, pure_bind, ih hfaults hlengths hsignatures, List.reverse_cons, List.append_assoc,
        List.cons_append, List.nil_append]

end Program

end Routecraft.Machine
