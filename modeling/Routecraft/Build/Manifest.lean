import Routecraft.Build.Error
import Routecraft.Compile.Compiler
import Routecraft.Json.Reader
import Routecraft.Json.Record
import Routecraft.Json.Writer

/-!
# Manifests

The list of the units of a build, which stands beside them in a file. The next build finds in it which files
have become stale.

* `unitFileName`: the file of a unit.
* `Manifest.ofCompiled`: the manifest of a build.
* `Manifest.stale`: the entries of an earlier manifest whose files are no longer listed.
* `Manifest.ofText?`, `Manifest.toText`: its document.
-/

namespace Routecraft.Build

open Bytecode Compile Json

structure ManifestEntry where
  name : String
  role : Role
  controller : String
  file : String
  size : Nat
  /-- The names of the handlers that a registration registers. -/
  handlers : List String
  deriving DecidableEq, Repr

structure Manifest where
  version : Nat
  units : List ManifestEntry
  deriving DecidableEq, Repr

def manifestVersion : Nat := 1

/-- Whether a unit's name can start the name of a file. -/
def isUnitFileName (name : String) : Bool :=
  !name.isEmpty && !name.startsWith "." && Config.isFileName name && !name.toList.contains '\x00'

/-- The file of a unit. -/
def unitFileName (name extension : String) : Except BuildError String :=
  if isUnitFileName name then .ok (name ++ "." ++ extension) else .error (.invalidUnitName name)

namespace Manifest

def empty : Manifest := ⟨manifestVersion, []⟩

def entryOf (c : CompiledController) (extension : String) (u : EncodedUnit) :
    Except BuildError ManifestEntry := do
  let handlers := match u.role with
    | .registration => c.handlers.map (·.name)
    | .handler => []
  return ⟨u.name, u.role, c.controller, ← unitFileName u.name extension, u.bytes.length, handlers⟩

def ofCompiled (cs : List CompiledController) (extension : String) :
    Except BuildError Manifest := do
  let units ← cs.mapM fun c => c.units.mapM (entryOf c extension)
  return ⟨manifestVersion, units.flatten⟩

def registrations (m : Manifest) : List ManifestEntry :=
  m.units.filter (·.role == .registration)

def get? (m : Manifest) (name : String) : Option ManifestEntry := m.units.find? (·.name == name)

/-- The entries of an earlier manifest whose files this one does not list. -/
def stale (m previous : Manifest) : List ManifestEntry :=
  previous.units.filter fun e => !(m.units.any (·.file == e.file))

end Manifest

/-! ## Documents -/

def role? (name : String) : Option Role :=
  [Role.handler, Role.registration].find? (·.name == name)

namespace ManifestEntry

def ofJson? (j : Json) : Option ManifestEntry := do
  match ← j.fields? ["name", "kind", "controller", "file", "size", "handlers"] with
  | [name, role, controller, file, size, handlers] =>
    return {
      name := ← required? asText? name
      role := ← required? (named? role?) role
      controller := ← required? asText? controller
      file := ← required? asText? file
      size := (← required? (asIntIn? 0 (UInt64.size - 1)) size).toNat
      handlers := ← orElse? [] (asList? asText?) handlers }
  | _ => none

/-- The document of an entry. Handlers are left out if there are none. -/
def toJson (e : ManifestEntry) : Json :=
  .object ([
    ("name", .text e.name),
    ("kind", .text e.role.name),
    ("controller", .text e.controller),
    ("file", .text e.file),
    ("size", .nat e.size)]
    ++ if e.handlers.isEmpty then [] else [("handlers", .array (e.handlers.map .text))])

end ManifestEntry

namespace Manifest

def ofJson? (j : Json) : Option Manifest := do
  match ← j.fields? ["version", "units"] with
  | [version, units] =>
    return {
      version := (← required? (asIntIn? 0 (UInt32.size - 1)) version).toNat
      units := ← required? (asList? ManifestEntry.ofJson?) units }
  | _ => none

def toJson (m : Manifest) : Json :=
  .object [("version", .nat m.version), ("units", .array (m.units.map ManifestEntry.toJson))]

def ofText? (text : String) : Option Manifest := do ofJson? (← Json.read? text)

/-- The text of a manifest: indented, with a line end behind it. -/
def toText (m : Manifest) : String := m.toJson.pretty ++ "\n"

/-- The manifest in a file, if there is one of the version that is understood. -/
def ofFile? (t : Files.FileTree) (path : String) : Option Manifest := do
  let m ← ofText? (← (t.readText path).toOption)
  if m.version = manifestVersion then some m else none

end Manifest

end Routecraft.Build
