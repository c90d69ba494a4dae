import Routecraft.Bytecode.Error
import Routecraft.Route.Controller

/-!
# Why a controller does not compile

The causes and their wording. All but the last are mistakes in the description of the controller.
-/

namespace Routecraft.Compile

/-- Why a parameter cannot be bound. -/
inductive BindingFault where
  | voidValue
  | arrayValue
  | requestOnlyValue
  | elementNotPlain
  | containerNotSupported
  | voidBody
  | contextBody
  | bodyNotConvertible
  | notAnUpload
  | voidContext
  | optionalNotPlain
  | primitiveBound
  | arrayBound
  | voidBound
  deriving DecidableEq, Repr

def BindingFault.message : BindingFault → String
  | voidValue => "void is not a value type"
  | arrayValue => "arrays cannot be converted from a request value"
  | requestOnlyValue => "this type is not convertible from a request value"
  | elementNotPlain => "container elements must be plain classes"
  | containerNotSupported =>
    "only Optional, List and Set are supported as parameterized value types"
  | voidBody => "void is not a body type"
  | contextBody => "the context is bound by the context kind"
  | bodyNotConvertible => "the body cannot be converted to this type"
  | notAnUpload => "expected FileUpload, List<FileUpload>, Path or byte[]"
  | voidContext => "void is not a context value"
  | optionalNotPlain => "Optional context values must wrap a plain class"
  | primitiveBound => "primitives cannot be bound objects"
  | arrayBound => "arrays cannot be bound objects"
  | voidBound => "void is not a bound object"

/-- Why a controller as a whole is refused. -/
inductive ControllerFault where
  | unnamed
  | foreignMethod (method owner : String)
  | repeated
  deriving DecidableEq, Repr

def ControllerFault.message : ControllerFault → String
  | unnamed => "controller name is empty"
  | foreignMethod method owner => "method " ++ method ++ " belongs to " ++ owner
  | repeated => "controller is declared more than once"

inductive CompileError where
  | unsupportedBinding (method param : String) (binding : Binding) (type : TypeExpr)
      (fault : BindingFault)
  | duplicateRoute (verb : Verb) (pattern unit first second : String)
  | invalidController (controller : String) (fault : ControllerFault)
  /-- The generated code is not accepted as a unit. -/
  | internal (e : Bytecode.UnitError)
  deriving DecidableEq, Repr

namespace CompileError

def kindName : CompileError → String
  | unsupportedBinding .. => "UnsupportedBinding"
  | duplicateRoute .. => "DuplicateRoute"
  | invalidController .. => "InvalidController"
  | internal _ => "Internal"

def message : CompileError → String
  | unsupportedBinding method param binding type fault =>
    "cannot bind parameter `" ++ param ++ "` of " ++ method ++ " from " ++ binding.name ++ " as "
      ++ type.display ++ ": " ++ fault.message
  | duplicateRoute verb pattern unit first second =>
    "duplicate route " ++ verb.name ++ " " ++ pattern ++ ": " ++ first ++ " and " ++ second
      ++ " both compile to `" ++ unit ++ "`"
  | invalidController controller fault =>
    "invalid controller " ++ controller ++ ": " ++ fault.message
  | internal e => "internal compiler error: " ++ e.message

/-- Whether the error is in the description of the controller. -/
def isUserError : CompileError → Bool
  | internal _ => false
  | _ => true

/-- The name under which errors of a kind are counted. -/
def className : CompileError → String
  | unsupportedBinding .. => "unsupported_binding"
  | duplicateRoute .. => "duplicate_route"
  | invalidController .. => "invalid_controller"
  | internal _ => "internal"

end CompileError

/-- A fault of a unit as a compile error. -/
def internally {α : Type} : Except Bytecode.UnitError α → Except CompileError α
  | .ok x => .ok x
  | .error e => .error (.internal e)

end Routecraft.Compile
