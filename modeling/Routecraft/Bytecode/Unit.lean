import Routecraft.Bytecode.Instr
import Routecraft.Bytecode.Pool

/-!
# Code units

A unit is a class with fields and methods: the handler of one endpoint, or the registration of a
controller's endpoints. A listing shows it as text.
-/

namespace Routecraft.Bytecode

/-- What a unit is for. -/
inductive Role where
  | handler
  | registration
  deriving DecidableEq, Repr

def Role.name : Role → String
  | handler => "handler"
  | registration => "registration"

abbrev Code := Array (Instr UInt16)

structure Field where
  name : String
  type : DataType
  deriving DecidableEq, Repr

/-- A method of a unit, with the depth of stack and the count of locals that it declares. -/
structure Method where
  name : String
  signature : Signature
  maxStack : UInt16
  maxLocals : UInt16
  code : Code
  deriving DecidableEq, Repr

structure CodeUnit where
  name : String
  role : Role
  interfaces : List String
  pool : Pool
  fields : List Field
  methods : List Method
  deriving DecidableEq, Repr

namespace CodeUnit

def method? (u : CodeUnit) (name : String) : Option Method := u.methods.find? (·.name == name)

def field? (u : CodeUnit) (name : String) : Option Field := u.fields.find? (·.name == name)

end CodeUnit

/-! ## Listings -/

/-- An instruction with the constant that its index stands for. -/
def Instr.display (pool : Pool) (i : Instr UInt16) : String :=
  i.mnemonic ++
    match i with
    | bare _ => ""
    | onLocal _ slot => " " ++ toString slot.toNat
    | pushInt n => " " ++ toString n.toInt
    | jump _ target => " -> " ++ toString target.toNat
    | onConst _ k =>
      " #" ++ toString k.toNat ++ " " ++
        match pool.entries[k.toNat]? with
        | some c => c.display
        | none => "<invalid>"

/-- A number on at least three places. -/
def padded (n : Nat) : String :=
  let digits := toString n
  String.ofList (List.replicate (3 - digits.length) ' ') ++ digits

namespace CodeUnit

/-- The line of a method and those of its instructions. -/
def methodLines (u : CodeUnit) (m : Method) : List String :=
  ("  method " ++ m.name ++ " " ++ m.signature.descriptor ++ " stack=" ++ toString m.maxStack.toNat
      ++ " locals=" ++ toString m.maxLocals.toNat)
    :: m.code.toList.zipIdx.map fun (i, n) => "    " ++ padded n ++ ": " ++ i.display u.pool

def lines (u : CodeUnit) : List String :=
  let interfaces :=
    if u.interfaces.isEmpty then "" else " implements " ++ String.intercalate ", " u.interfaces
  (u.role.name ++ " " ++ u.name ++ interfaces)
    :: u.fields.map (fun f => "  field " ++ f.name ++ " " ++ f.type.descriptor)
    ++ u.methods.flatMap u.methodLines

def display (u : CodeUnit) : String := String.join (u.lines.map (· ++ "\n"))

end CodeUnit

end Routecraft.Bytecode
