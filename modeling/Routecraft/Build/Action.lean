import Routecraft.Build.Error
import Routecraft.Telemetry.Metrics

/-!
# Build actions

Builds work on files and count what they do. What an action has done stays done if it fails.

* `writeFile`: writes a file into a folder by way of a temporary file.
-/

namespace Routecraft.Build

open Files

structure Workspace where
  files : FileTree
  metrics : Metrics
  deriving Repr, Inhabited

/-- A computation on a workspace. -/
abbrev Action := ExceptT BuildError (StateM Workspace)

/-- What became of a file that was to be written. -/
inductive WriteOutcome where
  | written
  | unchanged
  deriving DecidableEq, Repr

def WriteOutcome.name : WriteOutcome → String
  | written => "written"
  | unchanged => "unchanged"

def orFail {α : Type} : Except BuildError α → Action α
  | .ok x => pure x
  | .error e => throw e

def count (f : Metrics → Metrics) : Action Unit :=
  modify fun w => { w with metrics := f w.metrics }

/-- Changes the files, in a way that may fail on the file with a path. -/
def onFiles (path : String) (f : FileTree → Except FileError FileTree) : Action Unit := do
  match f (← get).files with
  | .ok files => modify fun w => { w with files }
  | .error cause => throw (.io path cause)

/-- Makes a folder. -/
def prepare (dir : String) : Action Unit := do
  let (result, files) := (← get).files.makeFolders dir
  modify fun w => { w with files }
  match result with
  | .ok () => pure ()
  | .error cause => throw (.io dir cause)

/-- The name of the temporary file for a file. -/
def temporaryName (file : String) : String := "." ++ file ++ ".tmp"

/-- Writes a file into a folder. With `incremental`, a file that has the content already stays as it is. -/
def writeFile (dir : String) (incremental : Bool) (file : String) (content : List UInt8) :
    Action WriteOutcome := do
  let path := Files.join dir file
  let same := match (← get).files.read path with
    | .ok old => old == content
    | .error _ => false
  if incremental && same then return .unchanged
  else
    let temporary := Files.join dir (temporaryName file)
    onFiles temporary (·.write temporary content)
    onFiles path (·.rename temporary path)
    return .written

/-- Removes a file from a folder, and tells whether there was one. -/
def removeFile (dir file : String) : Action Bool := do
  let path := Files.join dir file
  match (← get).files.remove path with
  | .ok files =>
    modify fun w => { w with files }
    return true
  | .error .notFound => return false
  | .error cause => throw (.io path cause)

end Routecraft.Build
