import Routecraft.CommandLine

/-!
# The program

The outer layer: it takes the environment and the files that matter into values, runs the command line on
them, and makes what that changed.
-/

namespace Routecraft

open Files CommandLine

def pathOf (p : Place) : String := "/" ++ "/".intercalate p

/-- Takes up what is at a place. -/
def observe (t : FileTree) (p : Place) : IO FileTree := do
  let path := (← IO.currentDir) / pathOf p
  if ← path.isDir then return t.put p .folder
  else if ← path.pathExists then
    return t.put p (.file (← IO.FS.readBinFile path).toList)
  else return t

/-- Takes up what is directly in a folder. -/
def observeFolder (t : FileTree) (p : Place) : IO FileTree := do
  let path := (← IO.currentDir) / pathOf p
  if ← path.isDir then
    (← path.readDir).foldlM (fun t entry => observe t (p ++ [entry.fileName])) t
  else return t

/-- Takes up what is on the way from a place, and what is directly in the folder at its end. -/
def observeParts (t : FileTree) (p : Place) : List String → IO FileTree
  | [] => observeFolder t p
  | part :: rest => do
    if isIdle part then observeParts t p rest
    else if part = ".." then observeParts t p.dropLast rest
    else observeParts (← observe t (p ++ [part])) (p ++ [part]) rest

/-- Takes up what paths lead to. -/
def observePaths (t : FileTree) (paths : List String) : IO FileTree :=
  paths.foldlM (fun t path => observeParts t (t.origin path) (parts path)) t

/-- Makes a file or a folder. -/
def establish (p : Place) : Entry → IO Unit
  | .folder => IO.FS.createDir (pathOf p)
  | .file content => IO.FS.writeBinFile (pathOf p) ⟨content.toArray⟩

/-- Makes what has changed from one tree to another. A folder comes before what is in it. -/
def perform (before after : FileTree) : IO Unit := do
  after.entries.reverse.forM fun (p, entry) => do
    if before.find? p ≠ some entry then establish p entry
  before.entries.forM fun (p, _) => do
    if after.find? p = none then IO.FS.removeFile (pathOf p)

/-- The environment variables that settings can have, and those that the file with variables refers to. -/
def environment (t : FileTree) : IO Environment := do
  let settings := Config.settingNames.map fun setting => defaultVariableWord ++ "__" ++ setting
  let others := match t.readText Environment.dotenvName with
    | .ok text => Environment.referredNames text.toList
    | .error _ => []
  (settings ++ others).eraseDups.filterMapM fun name => do
    return (← IO.getEnv name).map (name, ·)

/-- The environment and the files that a run on some arguments looks at. -/
def observeFor (args : List String) : IO (Environment × FileTree) := do
  let home := (parts (toString (← IO.currentDir))).filter (!isIdle ·)
  let t := FileTree.emptyAt home
  match Command.ofArguments args with
  | .ok (.build i) =>
    let t ← observePaths t i.configPaths
    let env ← environment t
    return (env, ← observePaths t (i.buildPaths env t))
  | _ => return ([], t)

def program (args : List String) : IO UInt32 := do
  let (env, files) ← observeFor args
  let outcome := CommandLine.run args env files
  perform files outcome.files
  IO.print outcome.output
  IO.eprint outcome.errors
  return UInt32.ofNat outcome.code

end Routecraft

def main (args : List String) : IO UInt32 := do
  try Routecraft.program args
  catch e =>
    IO.eprintln ("error: " ++ toString e)
    return 1
