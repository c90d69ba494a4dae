import Routecraft.Platform
import Routecraft.Route.Primitive

/-!
# Type expressions

The types that descriptors speak of: nothing, a primitive type, a class with its arguments, or an array.
What remains of a type when its arguments are erased decides how its values are represented.

* `TypeExpr.erasure`: the type without arguments.
* `Outcome.of`: the category that a return type falls into.
-/

namespace Routecraft

inductive TypeExpr where
  | void
  | primitive (kind : Primitive)
  | named (name : String) (args : List TypeExpr)
  | array (element : TypeExpr)
  deriving Repr, Inhabited

namespace TypeExpr

/-! ## Equality -/

mutual

def decEq : (s t : TypeExpr) → Decidable (s = t)
  | void, void => isTrue rfl
  | primitive p, primitive q => decidable_of_iff (p = q) (by simp)
  | named a as, named b bs =>
    match decEqList as bs with
    | isTrue h => decidable_of_iff (a = b) (by simp [h])
    | isFalse h => isFalse (by simp [h])
  | array s, array t =>
    match decEq s t with
    | isTrue h => isTrue (by rw [h])
    | isFalse h => isFalse (by simp [h])
  | void, primitive _ | void, named _ _ | void, array _ => isFalse nofun
  | primitive _, void | primitive _, named _ _ | primitive _, array _ => isFalse nofun
  | named _ _, void | named _ _, primitive _ | named _ _, array _ => isFalse nofun
  | array _, void | array _, primitive _ | array _, named _ _ => isFalse nofun

def decEqList : (ss ts : List TypeExpr) → Decidable (ss = ts)
  | [], [] => isTrue rfl
  | [], _ :: _ => isFalse nofun
  | _ :: _, [] => isFalse nofun
  | s :: ss, t :: ts =>
    match decEq s t, decEqList ss ts with
    | isTrue h, isTrue hs => isTrue (by rw [h, hs])
    | isFalse h, _ => isFalse (by simp [h])
    | _, isFalse hs => isFalse (by simp [hs])

end

instance : DecidableEq TypeExpr := decEq

/-! ## Parts of a type -/

/-- A class without arguments. -/
def plain (name : String) : TypeExpr := named name []

def className? : TypeExpr → Option String
  | named name _ => some name
  | _ => none

def args : TypeExpr → List TypeExpr
  | named _ args => args
  | _ => []

/-- Whether the type is the class `name`, with any arguments. -/
def isNamed (t : TypeExpr) (name : String) : Bool := t.className? == some name

def isParameterized (t : TypeExpr) : Bool := !t.args.isEmpty

def primitive? : TypeExpr → Option Primitive
  | primitive kind => some kind
  | _ => none

def isVoid : TypeExpr → Bool
  | void => true
  | _ => false

def isReference : TypeExpr → Bool
  | named _ _ => true
  | array _ => true
  | _ => false

/-- The only argument of the class `container`. -/
def onlyArgOf? (t : TypeExpr) (container : String) : Option TypeExpr :=
  match t with
  | named name [arg] => if name = container then some arg else none
  | _ => none

/-- The type without the arguments of its classes. -/
def erasure : TypeExpr → TypeExpr
  | named name _ => plain name
  | array element => array element.erasure
  | t => t

mutual

/-- The type as it is written: arguments between angle brackets, an array with brackets behind. -/
def display : TypeExpr → String
  | void => "void"
  | primitive kind => kind.name
  | named name [] => name
  | named name (arg :: args) => name ++ "<" ++ String.intercalate ", " (displays (arg :: args)) ++ ">"
  | array element => element.display ++ "[]"

/-- Each type as it is written. -/
def displays : List TypeExpr → List String
  | [] => []
  | t :: rest => t.display :: displays rest

end

end TypeExpr

/-- What an endpoint's return type asks of its answer. -/
inductive Outcome where
  | void
  | primitive (kind : Primitive)
  | reference (type : TypeExpr)
  | statusCode
  | context
  | parameterized (base : String) (args : List TypeExpr)
  deriving DecidableEq, Repr

namespace Outcome

/-- The category of a return type. The class of status codes and the request context are told by name,
whatever their arguments. -/
def of : TypeExpr → Outcome
  | .void => void
  | .primitive kind => primitive kind
  | .named name args =>
    if name = Platform.statusCode then statusCode
    else if name = Platform.context then context
    else if args.isEmpty then reference (.plain name)
    else parameterized name args
  | t => reference t.erasure

/-- The type that a value of the category has in generated code. -/
def erasedType : Outcome → TypeExpr
  | void => .void
  | primitive kind => .primitive kind
  | reference t => t.erasure
  | statusCode => .plain Platform.statusCode
  | context => .plain Platform.context
  | parameterized base _ => .plain base

end Outcome

end Routecraft
