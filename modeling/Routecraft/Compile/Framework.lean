import Routecraft.Bytecode.Assembler
import Routecraft.Bytecode.Hierarchy
import Routecraft.Route.Primitive

/-!
# The framework that generated code calls

Every method of the platform that generated code may call, with its owner, the way it is called and its
signature, and the members that generated units have by convention.

* `Call.instr`: the instruction of a call.
* `Framework.catalogue`: all calls.
-/

namespace Routecraft.Compile

open Bytecode

inductive Dispatch where
  | interface
  | virtual
  | static
  deriving DecidableEq, Repr

def Dispatch.name : Dispatch → String
  | interface => "Interface"
  | virtual => "Virtual"
  | static => "Static"

/-- A method of the framework. -/
structure Call where
  owner : String
  name : String
  dispatch : Dispatch
  signature : Signature
  deriving DecidableEq, Repr

def Call.instr (c : Call) : Instr Constant :=
  match c.dispatch with
  | .interface => .invokeInterface c.owner c.name c.signature
  | .virtual => .invokeVirtual c.owner c.name c.signature
  | .static => .invokeStatic c.owner c.name c.signature

namespace Framework

open DataType (object)

def primitive : Primitive → DataType
  | .boolean => .boolean
  | .byte => .byte
  | .char => .char
  | .short => .short
  | .int => .int
  | .long => .long
  | .float => .float
  | .double => .double

/-- What is known of the framework's classes. -/
def hierarchy : Hierarchy :=
  ⟨[(Platform.classClass, Platform.type), (Platform.reified, Platform.type)]⟩

/-! ## Members of generated units -/

/-- The field that holds the provider of the controller. -/
def providerField : String := "provider"

def constructorName : String := "<init>"
def applyName : String := "apply"
def installName : String := "install"

def noContent : String := "NO_CONTENT"

def constructorSignature : Signature := .void [object Platform.provider]
def applySignature : Signature := .returning [object Platform.context] (object Platform.object)
def installSignature : Signature := .void [object Platform.router]

/-! ## Calls on the request context -/

def onInterface (owner name : String) (params : List DataType) (result : DataType) : Call :=
  ⟨owner, name, .interface, .returning params result⟩

def static (owner name : String) (params : List DataType) (result : DataType) : Call :=
  ⟨owner, name, .static, .returning params result⟩

/-- Looks a value up in a part of the request. -/
def lookup (source : String) : Call :=
  onInterface Platform.context source [object Platform.string] (object Platform.value)

def body : Call := onInterface Platform.context "body" [] (object Platform.body)

def file : Call :=
  onInterface Platform.context "file" [object Platform.string] (object Platform.fileUpload)

def files : Call :=
  onInterface Platform.context "files" [object Platform.string] (object Platform.list)

def require : Call :=
  onInterface Platform.context "require" [object Platform.classClass] (object Platform.object)

def bind : Call :=
  onInterface Platform.context "bind" [object Platform.classClass] (object Platform.object)

def isResponseStarted : Call := onInterface Platform.context "isResponseStarted" [] .boolean

def send : Call :=
  onInterface Platform.context "send" [object Platform.statusCode] (object Platform.context)

/-! ## Calls on request values -/

/-- The method that takes a primitive value out of a box or a request value. -/
def unboxName : Primitive → String
  | .boolean => "booleanValue"
  | .byte => "byteValue"
  | .char => "charValue"
  | .short => "shortValue"
  | .int => "intValue"
  | .long => "longValue"
  | .float => "floatValue"
  | .double => "doubleValue"

def valueText (nullable : Bool) : Call :=
  onInterface Platform.value (if nullable then "valueOrNull" else "value") []
    (object Platform.string)

def valuePrimitive (kind : Primitive) : Call :=
  onInterface Platform.value (unboxName kind) [] (primitive kind)

def valueTo (nullable : Bool) : Call :=
  onInterface Platform.value (if nullable then "toNullable" else "to") [object Platform.classClass]
    (object Platform.object)

def valueToOptional : Call :=
  onInterface Platform.value "toOptional" [object Platform.classClass] (object Platform.optional)

def valueToList : Call :=
  onInterface Platform.value "toList" [object Platform.classClass] (object Platform.list)

def valueToSet : Call :=
  onInterface Platform.value "toSet" [object Platform.classClass] (object Platform.set)

/-! ## Calls on bodies and uploads -/

def bodyBytes : Call := onInterface Platform.body "bytes" [] (.array .byte)
def bodyStream : Call := onInterface Platform.body "stream" [] (object Platform.inputStream)
def bodyValue : Call := onInterface Platform.body "value" [] (object Platform.string)

def bodyTo : Call :=
  onInterface Platform.body "to" [object Platform.type] (object Platform.object)

def uploadPath : Call := onInterface Platform.fileUpload "path" [] (object Platform.filePath)
def uploadBytes : Call := onInterface Platform.fileUpload "bytes" [] (.array .byte)

/-! ## Calls on the provider, the router and routes -/

def providerGet : Call := onInterface Platform.provider "get" [] (object Platform.object)

def routerRoute : Call :=
  onInterface Platform.router "route"
    [object Platform.string, object Platform.string, object Platform.handler]
    (object Platform.route)

def setReturnType : Call :=
  onInterface Platform.route "setReturnType" [object Platform.type] (object Platform.route)

def setConsumes : Call :=
  onInterface Platform.route "setConsumes" [object Platform.list] (object Platform.route)

def setProduces : Call :=
  onInterface Platform.route "setProduces" [object Platform.list] (object Platform.route)

def setAttribute : Call :=
  onInterface Platform.route "setAttribute" [object Platform.string, object Platform.object]
    (object Platform.route)

/-! ## Static calls and boxes -/

def optionalOfNullable : Call :=
  static Platform.optional "ofNullable" [object Platform.object] (object Platform.optional)

def listOf : Call :=
  static Platform.list "of" [.array (object Platform.object)] (object Platform.list)

def mapOfEntries : Call :=
  static Platform.map "ofEntries" [.array (object Platform.object)] (object Platform.map)

def mediaTypeValueOf : Call :=
  static Platform.mediaType "valueOf" [object Platform.string] (object Platform.mediaType)

def reifiedParameterized : Call :=
  static Platform.reified "parameterized" [object Platform.type, .array (object Platform.type)]
    (object Platform.reified)

def box (kind : Primitive) : Call :=
  static kind.boxClass "valueOf" [primitive kind] (object kind.boxClass)

def unbox (kind : Primitive) : Call :=
  ⟨kind.boxClass, unboxName kind, .virtual, .returning [] (primitive kind)⟩

/-! ## The catalogue -/

/-- The parts of a request that values are looked up in. -/
def sources : List String := ["path", "query", "header", "cookie", "form"]

/-- All calls that generated code makes into the framework. -/
def catalogue : List Call :=
  [body, file, files, require, bind, isResponseStarted, send,
    valueText false, valueText true, valueTo false, valueTo true, valueToOptional, valueToList,
    valueToSet, bodyBytes, bodyStream, bodyValue, bodyTo, uploadPath, uploadBytes, providerGet,
    routerRoute, setReturnType, setConsumes, setProduces, setAttribute, optionalOfNullable, listOf,
    mapOfEntries, mediaTypeValueOf, reifiedParameterized]
  ++ sources.map lookup
  ++ Primitive.all.flatMap fun kind => [valuePrimitive kind, box kind, unbox kind]

end Framework

end Routecraft.Compile
