/-!
# Primitive types

The types of plain values, each with the class that boxes them.
-/

namespace Routecraft

inductive Primitive where
  | boolean
  | byte
  | char
  | short
  | int
  | long
  | float
  | double
  deriving DecidableEq, Repr

namespace Primitive

def all : List Primitive := [boolean, byte, char, short, int, long, float, double]

def name : Primitive → String
  | boolean => "boolean"
  | byte => "byte"
  | char => "char"
  | short => "short"
  | int => "int"
  | long => "long"
  | float => "float"
  | double => "double"

def boxClass : Primitive → String
  | boolean => "lang.Boolean"
  | byte => "lang.Byte"
  | char => "lang.Character"
  | short => "lang.Short"
  | int => "lang.Integer"
  | long => "lang.Long"
  | float => "lang.Float"
  | double => "lang.Double"

def ofName? (s : String) : Option Primitive := all.find? (·.name == s)

def ofBoxClass? (s : String) : Option Primitive := all.find? (·.boxClass == s)

theorem mem_all (p : Primitive) : p ∈ all := by cases p <;> decide

theorem ofName?_name (p : Primitive) : ofName? p.name = some p := by cases p <;> decide

theorem ofBoxClass?_boxClass (p : Primitive) : ofBoxClass? p.boxClass = some p := by
  cases p <;> decide

end Primitive

end Routecraft
