import Routecraft.Text.Utf8

/-!
# Paths

Paths as they are written: names with slashes between them. Empty names and single dots say nothing.

* `join`: a path behind another one.
* `ways`: the paths to what a path leads through.
* `fileName?`, `extension?`: the last name, and its part behind the last dot.
-/

namespace Routecraft.Files

/-- The parts of a path between its slashes, of which there is at least one. -/
def splitSlashes : List Char → List (List Char)
  | [] => [[]]
  | c :: cs =>
    if c = '/' then [] :: splitSlashes cs
    else
      match splitSlashes cs with
      | [] => [[c]]
      | part :: parts => (c :: part) :: parts

def parts (path : String) : List String := (splitSlashes path.toList).map String.ofList

/-- Whether a part of a path leads nowhere. -/
def isIdle (part : String) : Bool := part == "" || part == "."

/-- The ways along a path, given as its parts from the last one on, to those parts that lead somewhere. The longest
way is the first. -/
def ways : List String → List (List String)
  | [] => []
  | part :: before => if isIdle part then ways before else (part :: before).reverse :: ways before

/-- A path behind another one; one that starts with a slash stands for itself. -/
def join (path rest : String) : String :=
  if rest.startsWith "/" || path.isEmpty then rest
  else if path.endsWith "/" then path ++ rest
  else path ++ "/" ++ rest

def fileName? (path : String) : Option String :=
  ((parts path).filter (!isIdle ·)).getLast?.filter (· != "..")

/-- The part of a name behind its last dot, if something stands before the dot. -/
def extensionOf? (name : List Char) : Option (List Char) :=
  let behind := name.reverse.takeWhile (· != '.')
  if behind.length + 1 < name.length then some behind.reverse else none

def extension? (path : String) : Option String := do
  let name ← fileName? path
  return String.ofList (← extensionOf? name.toList)

def maxNameSize : Nat := 255

def maxPathSize : Nat := 4095

def isTooLong (name : String) : Bool := maxNameSize < name.utf8ByteSize

end Routecraft.Files
