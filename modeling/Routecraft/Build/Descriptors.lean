import Routecraft.Build.Error
import Routecraft.Route.Document

/-!
# Descriptor files

The controllers that files describe. A folder stands for the documents directly in it, in the order of
their names.

* `loadAll`: the controllers of files and folders.
-/

namespace Routecraft.Build

open Files

def loadFile (t : FileTree) (path : String) : Except BuildError (List Controller) :=
  match t.readText path with
  | .error cause => .error (.io path cause)
  | .ok text =>
    match Controller.readAll? text with
    | some cs => .ok cs
    | none => .error (.descriptor path)

def documentsIn (t : FileTree) (dir : String) : Except BuildError (List String) :=
  match t.list dir with
  | .error cause => .error (.io dir cause)
  | .ok names =>
    .ok ((names.map (Files.join dir)).filter fun path =>
      t.isFile path && extension? path == some "json")

/-- The files that an input stands for. -/
def filesOf (t : FileTree) (input : String) : Except BuildError (List String) :=
  if t.isFolder input then documentsIn t input else .ok [input]

def loadAll (t : FileTree) (inputs : List String) : Except BuildError (List Controller) := do
  let loaded ← inputs.mapM fun input => do
    let files ← filesOf t input
    return (← files.mapM (loadFile t)).flatten
  return loaded.flatten

end Routecraft.Build
