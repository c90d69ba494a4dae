import Routecraft.Compile.Error
import Routecraft.Compile.Literal

/-!
# Binding parameters

The code that takes a parameter's value from the request, by the part of the request that the parameter is
bound to. The code leaves one value on the stack; the request context is in a local. Some bindings write
code before they find out that the type is not supported, so a binding is both the code that it writes and
whether it is supported.

* `valueBinding`, `bodyBinding`, `uploadBinding`, `contextBinding`, `boundBinding`: one for each part.
* `Assembler.bindParam`: writes the code of a parameter.
-/

namespace Routecraft.Compile

open Bytecode

/-- The code that a binding writes, and what is wrong with it. -/
structure BindingCode where
  code : List (Instr Constant)
  fault : Option BindingFault
  deriving DecidableEq, Repr

namespace BindingCode

def supported (code : List (Instr Constant)) : BindingCode := ⟨code, none⟩

/-- A binding that is refused before any code is written. -/
def refused (fault : BindingFault) : BindingCode := ⟨[], some fault⟩

end BindingCode

/-- The local that holds the request context. -/
def contextSlot : UInt8 := 1

def loadContext : Instr Constant := .load contextSlot

/-- A class without arguments. -/
def plainClass? : TypeExpr → Option DataType
  | .named name [] => some (.object name)
  | _ => none

/-! ## Values of the path, the query, headers, cookies and forms -/

/-- How a request value is converted. -/
inductive Conversion where
  | text
  | primitive (kind : Primitive)
  | class (type : DataType)
  | optional (element : DataType)
  | list (element : DataType)
  | set (element : DataType)
  deriving DecidableEq, Repr

/-- The classes of parts of a request, which no request value can be converted to. -/
def requestOnly : List String :=
  [Platform.context, Platform.body, Platform.fileUpload, Platform.inputStream, Platform.filePath,
    Platform.value]

/-- The containers that a request value can be converted to. -/
def containers : List (String × (DataType → Conversion)) :=
  [(Platform.optional, .optional), (Platform.list, .list), (Platform.set, .set)]

/-- The conversion to a class with arguments: one of the containers of a plain class. -/
def containerConversion (t : TypeExpr) : Except BindingFault Conversion :=
  match containers.findSome? fun (name, make) => (t.onlyArgOf? name).map (·, make) with
  | some (element, make) =>
    match plainClass? element with
    | some type => .ok (make type)
    | none => .error .elementNotPlain
  | none => .error .containerNotSupported

def conversion : TypeExpr → Except BindingFault Conversion
  | .void => .error .voidValue
  | .primitive kind => .ok (.primitive kind)
  | .array _ => .error .arrayValue
  | .named name args =>
    if requestOnly.contains name then .error .requestOnlyValue
    else if args.isEmpty then
      .ok (if name = Platform.string then .text else .class (.object name))
    else containerConversion (.named name args)

def Conversion.code (nullable : Bool) : Conversion → List (Instr Constant)
  | text => [(Framework.valueText nullable).instr]
  | primitive kind => [(Framework.valuePrimitive kind).instr]
  | .class type => [.classOf type, (Framework.valueTo nullable).instr, .checkCast type]
  | optional element => [.classOf element, Framework.valueToOptional.instr]
  | list element => [.classOf element, Framework.valueToList.instr]
  | set element => [.classOf element, Framework.valueToSet.instr]

/-- Binds a parameter to a value looked up in a part of the request. -/
def valueBinding (source : String) (p : Parameter) : BindingCode :=
  match conversion p.type with
  | .error fault => .refused fault
  | .ok c =>
    .supported ([loadContext, .string p.sourceName, (Framework.lookup source).instr]
      ++ c.code p.nullable)

/-! ## The body -/

def byteArray : TypeExpr := .array (.primitive .byte)

/-- The code that converts the body on the stack, if it can be converted. -/
def bodyConversion? (t : TypeExpr) : Option (List (Instr Constant)) :=
  if t.isNamed Platform.body then some []
  else if t = byteArray then some [Framework.bodyBytes.instr]
  else if t.isNamed Platform.inputStream then some [Framework.bodyStream.instr]
  else if t = .plain Platform.string then some [Framework.bodyValue.instr]
  else
    match t with
    | .void => none
    | .primitive kind =>
      let box : DataType := .object kind.boxClass
      some [.classOf box, Framework.bodyTo.instr, .checkCast box, (Framework.unbox kind).instr]
    | .named name args =>
      let literal := if args.isEmpty then [.classOf (.object name)] else reifiedCode name args
      some (literal ++ [Framework.bodyTo.instr, .checkCast (.object name)])
    | .array element =>
      (dataType? (.array element)).map fun type =>
        [.classOf type, Framework.bodyTo.instr, .checkCast type]

def bodyBinding (p : Parameter) : BindingCode :=
  if p.type.isVoid then .refused .voidBody
  else if p.type.isNamed Platform.context then .refused .contextBody
  else
    let load := [loadContext, Framework.body.instr]
    match bodyConversion? p.type with
    | some code => .supported (load ++ code)
    | none => ⟨load, some .bodyNotConvertible⟩

/-! ## Uploads -/

/-- The code that takes what the type asks for out of the uploads of a name. -/
def uploadCode? (t : TypeExpr) : Option (List (Instr Constant)) :=
  if t.onlyArgOf? Platform.list = some (.plain Platform.fileUpload) then
    some [Framework.files.instr]
  else if t = .plain Platform.fileUpload then some [Framework.file.instr]
  else if t = .plain Platform.filePath then
    some [Framework.file.instr, Framework.uploadPath.instr]
  else if t = byteArray then some [Framework.file.instr, Framework.uploadBytes.instr]
  else none

def uploadBinding (p : Parameter) : BindingCode :=
  let load := [loadContext, .string p.sourceName]
  match uploadCode? p.type with
  | some code => .supported (load ++ code)
  | none => ⟨load, some .notAnUpload⟩

/-! ## The context and the objects in it -/

/-- Binds a parameter to the context itself or to an object in it. -/
def contextBinding (p : Parameter) : BindingCode :=
  if p.type.isVoid then .refused .voidContext
  else if p.type.isNamed Platform.context then .supported [loadContext]
  else
    match p.type.onlyArgOf? Platform.optional with
    | some inner =>
      match plainClass? inner with
      | some element =>
        .supported [loadContext, .classOf element, Framework.require.instr,
          Framework.optionalOfNullable.instr]
      | none => .refused .optionalNotPlain
    | none =>
      match p.type with
      | .primitive kind =>
        let box : DataType := .object kind.boxClass
        .supported [loadContext, .classOf box, Framework.require.instr, .checkCast box,
          (Framework.unbox kind).instr]
      | t =>
        match dataType? t with
        | some type =>
          .supported [loadContext, .classOf type, Framework.require.instr, .checkCast type]
        | none => .refused .voidContext

/-- Binds a parameter to an object that a binder makes, or that the context binds to its class. -/
def boundBinding (binder : Option MethodName) (p : Parameter) : BindingCode :=
  match p.type with
  | .primitive _ => .refused .primitiveBound
  | .array _ => .refused .arrayBound
  | .void => .refused .voidBound
  | .named name _ =>
    let type : DataType := .object name
    match binder with
    | some m =>
      .supported [loadContext,
        .invokeStatic m.owner m.name (.returning [.object Platform.context] type)]
    | none =>
      .supported [loadContext, .classOf type, Framework.bind.instr, .checkCast type]

/-! ## Parameters -/

def bindingCode (p : Parameter) : BindingCode :=
  match p.binding with
  | .path => valueBinding "path" p
  | .query => valueBinding "query" p
  | .header => valueBinding "header" p
  | .cookie => valueBinding "cookie" p
  | .form => valueBinding "form" p
  | .body => bodyBinding p
  | .upload => uploadBinding p
  | .context => contextBinding p
  | .bound binder => boundBinding binder p

/-- Writes the code of a parameter of a method, and says whether its binding is supported. -/
def bindParam (a : Assembler) (method : String) (p : Parameter) :
    Assembler × Except CompileError Unit :=
  let b := bindingCode p
  let a := a.emitAll b.code
  match b.fault with
  | none => (a, .ok ())
  | some fault => (a, .error (.unsupportedBinding method p.name p.binding p.type fault))

end Routecraft.Compile
