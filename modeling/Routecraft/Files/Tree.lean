import Routecraft.Files.Path

/-!
# File trees

Files and folders as a value, with the folder that a program works in. Whatever is in the tree is in a folder
of the tree; the folder that the program works in and those around it are always there.

* `FileTree.find?`: what is at a place.
* `FileTree.locate`: the place that a path leads to; `lastStep`: the folder and the name where it ends, for what
  need not be there.
* `FileTree.read`, `write`, `rename`, `remove`, `makeFolders`: what a program does to files, by path.
-/

namespace Routecraft.Files

/-- The names that lead from the top to a file or folder. -/
abbrev Place := List String

/-- A file with its content, or a folder. -/
inductive Entry where
  | file (content : List UInt8)
  | folder
  deriving DecidableEq, Repr

/-- Files and folders. -/
structure FileTree where
  entries : List (Place × Entry)
  /-- The folder from which all paths lead that do not start with a slash. -/
  home : Place
  deriving Repr

inductive FileError where
  | notFound
  | alreadyThere
  | notFolder
  | isFolder
  /-- A file cannot take the place of a folder that a path only leads through. -/
  | busy
  | nameTooLong
  | badName
  | notText
  deriving DecidableEq, Repr

def FileError.message : FileError → String
  | notFound => "No such file or directory (os error 2)"
  | alreadyThere => "File exists (os error 17)"
  | notFolder => "Not a directory (os error 20)"
  | isFolder => "Is a directory (os error 21)"
  | busy => "Device or resource busy (os error 16)"
  | nameTooLong => "File name too long (os error 36)"
  | badName => "file name contained an unexpected NUL byte"
  | notText => "stream did not contain valid UTF-8"

namespace FileTree

/-- The tree without files, for a program that works in a folder. -/
def emptyAt (home : Place) : FileTree := ⟨[], home⟩

instance : Inhabited FileTree := ⟨emptyAt []⟩

/-! ## Places -/

def find? (t : FileTree) (p : Place) : Option Entry :=
  if p.isPrefixOf t.home then some .folder else t.entries.lookup p

def erase (t : FileTree) (p : Place) : FileTree :=
  { t with entries := t.entries.filter (·.1 != p) }

def put (t : FileTree) (p : Place) (e : Entry) : FileTree :=
  { t with entries := (p, e) :: (t.erase p).entries }

/-- What is in the folder that the program works in, at any depth, with the way from there. -/
def entriesAtHome (t : FileTree) : List (Place × Entry) :=
  t.entries.filterMap fun (p, e) =>
    if t.home.isPrefixOf p then some (p.drop t.home.length, e) else none

def namesIn (t : FileTree) (p : Place) : List String :=
  t.entries.filterMap fun (q, _) => if q.dropLast = p then q.getLast? else none

/-! ## Following paths -/

/-- The place that the parts of a path lead to from a folder. -/
def walk (t : FileTree) (origin : Place) : List String → Except FileError Place
  | [] => .ok origin
  | part :: rest =>
    if isIdle part then walk t origin rest
    else if part = ".." then walk t origin.dropLast rest
    else if isTooLong part then .error .nameTooLong
    else
      match t.find? (origin ++ [part]) with
      | none => .error .notFound
      | some .folder => walk t (origin ++ [part]) rest
      | some (.file _) => if rest.isEmpty then .ok (origin ++ [part]) else .error .notFolder

/-- Refuses the paths that no file can have. -/
def checkPath (path : String) : Except FileError Unit :=
  if path.toList.contains '\x00' then .error .badName
  else if path.isEmpty then .error .notFound
  else if maxPathSize < path.utf8ByteSize then .error .nameTooLong
  else .ok ()

/-- Where a path starts. -/
def origin (t : FileTree) (path : String) : Place := if path.startsWith "/" then [] else t.home

/-- The place that a path leads to, where something has to be. -/
def locate (t : FileTree) (path : String) : Except FileError Place := do
  checkPath path
  t.walk (t.origin path) (parts path)

/-- The end of a path: a name in a folder, and whether slashes are behind it. -/
structure LastStep where
  folder : Place
  name : String
  slashed : Bool
  deriving DecidableEq, Repr

/-- Whether the last step goes to something in the folder, and not to a folder that is there anyway. -/
def LastStep.isNamed (s : LastStep) : Bool := !isIdle s.name && s.name != ".."

def LastStep.place (s : LastStep) : Place := s.folder ++ [s.name]

/-- The last step of a way. All before it has to be there. -/
def lastStepFrom (t : FileTree) (origin : Place) (way : List String) : Except FileError LastStep := do
  let steps := (way.reverse.dropWhile (· == "")).reverse
  let folder ← t.walk origin (steps.dropLast ++ [""])
  return ⟨folder, steps.getLast?.getD "", steps.length < way.length⟩

/-- The last step of a path. -/
def lastStep (t : FileTree) (path : String) : Except FileError LastStep := do
  checkPath path
  t.lastStepFrom (t.origin path) (parts path)

/-- The place that a path leads to, where a file may be made. -/
def locateNew (t : FileTree) (path : String) : Except FileError Place := do
  let s ← t.lastStep path
  if !s.isNamed || s.slashed then .error .isFolder
  else if isTooLong s.name then .error .nameTooLong
  else if t.find? s.place = some .folder then .error .isFolder
  else .ok s.place

/-- The place that a path leads to, where a file may be moved. -/
def locateTarget (t : FileTree) (path : String) : Except FileError Place := do
  let s ← t.lastStep path
  if !s.isNamed then .error .busy
  else if isTooLong s.name then .error .nameTooLong
  else if s.slashed then .error .notFolder
  else if t.find? s.place = some .folder then .error .isFolder
  else .ok s.place

def exists? (t : FileTree) (path : String) : Bool := (t.locate path).toOption.isSome

def isFolder (t : FileTree) (path : String) : Bool :=
  match t.locate path with
  | .ok p => t.find? p == some .folder
  | .error _ => false

def isFile (t : FileTree) (path : String) : Bool := t.exists? path && !t.isFolder path

/-! ## Reading -/

def read (t : FileTree) (path : String) : Except FileError (List UInt8) := do
  match t.find? (← t.locate path) with
  | some (.file content) => .ok content
  | some .folder => .error .isFolder
  | none => .error .notFound

def readText (t : FileTree) (path : String) : Except FileError String := do
  match Text.ofUtf8? (← t.read path) with
  | some s => .ok s
  | none => .error .notText

/-- The names in the folder that a path leads to, in order. -/
def list (t : FileTree) (path : String) : Except FileError (List String) := do
  let p ← t.locate path
  if t.find? p = some .folder then .ok ((t.namesIn p).mergeSort (· ≤ ·)) else .error .notFolder

/-! ## Changing -/

def write (t : FileTree) (path : String) (content : List UInt8) : Except FileError FileTree := do
  return t.put (← t.locateNew path) (.file content)

/-- Moves a file, in place of another one if there is one. -/
def rename (t : FileTree) (source target : String) : Except FileError FileTree := do
  let p ← t.locate source
  let content ← t.read source
  return (t.erase p).put (← t.locateTarget target) (.file content)

def remove (t : FileTree) (path : String) : Except FileError FileTree := do
  let p ← t.locate path
  if t.find? p = some .folder then .error .isFolder else .ok (t.erase p)

/-- Makes the folder at the end of a way. -/
def makeFolder (t : FileTree) (origin : Place) (way : List String) : Except FileError FileTree := do
  let s ← t.lastStepFrom origin way
  if !s.isNamed then .error .alreadyThere
  else if isTooLong s.name then .error .nameTooLong
  else if (t.find? s.place).isSome then .error .alreadyThere
  else .ok (t.put s.place .folder)

/-- Makes the folder at the end of a way unless it is there. -/
def ensureFolder (t : FileTree) (origin : Place) (way : List String) :
    Except FileError Unit × FileTree :=
  match t.makeFolder origin way with
  | .ok made => (.ok (), made)
  | .error e =>
    if (t.walk origin way).toOption.bind t.find? = some .folder then (.ok (), t) else (.error e, t)

/-- Makes the folder at the end of the first way, and where that is missing what the shorter ways lead to. -/
def makeFoldersOn (t : FileTree) (origin : Place) :
    List (List String) → Except FileError Unit × FileTree
  | [] => (.ok (), t)
  | way :: shorter =>
    match t.ensureFolder origin way with
    | (.error .notFound, t) =>
      match t.makeFoldersOn origin shorter with
      | (.ok (), t) => t.ensureFolder origin way
      | (.error e, t) => (.error e, t)
    | result => result

/-- Makes the folder that a path leads to and those on the way. Folders made before an error remain. -/
def makeFolders (t : FileTree) (path : String) : Except FileError Unit × FileTree :=
  if path.isEmpty then (.ok (), t)
  else
    match checkPath path with
    | .ok () => t.makeFoldersOn (t.origin path) (parts path :: (ways (parts path).reverse).tail)
    | .error e => (.error e, t)

/-- The tree with a file and the folders around it, as far as they can be made. -/
def provide (t : FileTree) (path : String) (content : List UInt8) : FileTree :=
  let (_, t) := t.makeFolders ("/".intercalate (parts path).dropLast)
  (t.write path content).toOption.getD t

end FileTree

end Routecraft.Files
