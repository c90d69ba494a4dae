import Routecraft.Bytecode.Encoding
import Routecraft.Bytecode.Verify
import Routecraft.Machine.Host
import Routecraft.Route.Controller

/-!
# Loading and linking

A loader takes in units; linking checks all of them against what is then known of the classes, and that
every class that they make objects of is one of them.

* `Loader.load`, `Loader.add`: takes a unit in, as bytes or as it is.
* `Loader.link`: the program that the units make up.
-/

namespace Routecraft.Machine

open Bytecode

/-- The static methods of the application by owner and name, the last one given first. -/
abbrev Statics := List (MethodName × HostCode)

/-- The units taken in so far, in order, and what is known beside them. -/
structure Loader where
  units : List CodeUnit
  hierarchy : Hierarchy
  statics : Statics
  stepLimit : Nat

/-- Linked units, with the code of the host that they may call. -/
structure Program where
  units : List CodeUnit
  hierarchy : Hierarchy
  statics : Statics
  /-- The count of instructions that a run may take. -/
  stepLimit : Nat
  stubs : Array Stub

def findUnit? (units : List CodeUnit) (name : String) : Option CodeUnit :=
  units.find? (·.name == name)

namespace Loader

/-- The count of instructions that a run may take if nothing else is said. -/
def defaultStepLimit : Nat := 100000

def empty : Loader := ⟨[], Compile.Framework.hierarchy, [], defaultStepLimit⟩

def withSubtype (l : Loader) (sub sup : String) : Loader :=
  { l with hierarchy := l.hierarchy.add sub sup }

/-- Gives a static method, in place of an earlier one. -/
def withStatic (l : Loader) (owner name : String) (code : HostCode) : Loader :=
  { l with statics := (⟨owner, name⟩, code) :: l.statics }

/-- Bounds the count of instructions of a run. -/
def withStepLimit (l : Loader) (limit : Nat) : Loader := { l with stepLimit := limit }

/-- Takes a unit in. It is then known to be below its interfaces. -/
def add (l : Loader) (u : CodeUnit) : Except MachineError Loader :=
  if (findUnit? l.units u.name).isSome then .error (.duplicateUnit u.name)
  else
    .ok { l with
      units := l.units ++ [u]
      hierarchy := l.hierarchy.extend ⟨u.interfaces.map (u.name, ·)⟩ }

def load (l : Loader) (bytes : List UInt8) : Except MachineError (String × Loader) :=
  match CodeUnit.decode bytes with
  | .ok u => (l.add u).map (u.name, ·)
  | .error e => .error (.unit e)

/-- Takes encoded units in, up to the first that is refused. -/
def loadAll (l : Loader) : List (List UInt8) → Loader × Except MachineError Unit
  | [] => (l, .ok ())
  | bytes :: rest =>
    match l.load bytes with
    | .ok (_, l) => loadAll l rest
    | .error e => (l, .error e)

/-- Checks that a class has objects. -/
def checkNew (l : Loader) (pool : Pool) : Instr UInt16 → Except MachineError Unit
  | .onConst .newObject k =>
    match pool.classAt k with
    | .ok name =>
      if (findUnit? l.units name).isSome then .ok () else .error (.unknownUnit name)
    | .error e => .error (.unit e)
  | _ => .ok ()

def check (l : Loader) (u : CodeUnit) : Except MachineError Unit := do
  match u.verify l.hierarchy with
  | .ok () => pure ()
  | .error e => .error (.unit e)
  u.methods.forM fun m => m.code.toList.forM (l.checkNew u.pool)

/-- The program that the units make up. -/
def link (l : Loader) : Except MachineError Program := do
  l.units.forM l.check
  return ⟨l.units, l.hierarchy, l.statics, l.stepLimit, #[]⟩

end Loader

namespace Program

def unit? (p : Program) (name : String) : Option CodeUnit := findUnit? p.units name

/-- The names of the units of a role, in the order of their bytes. -/
def unitNames (p : Program) (role : Role) : List String :=
  ((p.units.filter (·.role == role)).map (·.name)).mergeSort (· ≤ ·)

def addStub (p : Program) (s : Stub) : Nat × Program :=
  (p.stubs.size, { p with stubs := p.stubs.push s })

end Program

end Routecraft.Machine
