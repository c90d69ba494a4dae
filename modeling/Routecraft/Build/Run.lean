import Routecraft.Build.Action
import Routecraft.Build.Descriptors
import Routecraft.Build.Manifest

/-!
# Builds

A build compiles all controllers, writes a file for each unit, removes the files of units that an earlier
build wrote and this one did not, and writes the manifest.

* `compile`: the units of all controllers, or what is wrong with them.
* `write`: writes units and manifest.
* `run`, `runFiles`: a whole build.
-/

namespace Routecraft.Build

open Bytecode Compile Files

/-- What a build has done. -/
structure Report where
  controllers : Nat
  units : Nat
  written : Nat
  unchanged : Nat
  /-- The files removed. -/
  pruned : List String
  bytes : Nat
  manifest : Manifest
  manifestPath : String
  deriving DecidableEq, Repr

def Report.toJson (r : Report) : Json :=
  .object [
    ("controllers", .nat r.controllers),
    ("units", .nat r.units),
    ("written", .nat r.written),
    ("unchanged", .nat r.unchanged),
    ("pruned", .array (r.pruned.map .text)),
    ("bytes", .nat r.bytes),
    ("manifest", .text r.manifest.toText),
    ("manifest_path", .text r.manifestPath),
    ("registrations", .array (r.manifest.registrations.map fun e => .text e.name))]

/-! ## Compiling -/

/-- Counts what came of a controller; one that repeats a name is not timed. -/
def countResult (repeated : Bool) (result : Except CompileError CompiledController) :
    Action Unit := do
  if !repeated then count Metrics.recordDuration
  match result with
  | .ok compiled =>
    compiled.units.forM fun u => count (·.recordUnit u.role.name u.bytes.length)
  | .error e => count (·.recordFailure e.className)

/-- Compiles controllers after those whose names are `seen`: up to the first failure with `failFast`, and
else to the end, with all failures. -/
def compileFrom (f : AttributeFilter) (failFast : Bool) (seen : List String) :
    List Controller → Action (List CompiledController × List (String × CompileError))
  | [] => return ([], [])
  | c :: rest => do
    let result := compileUnseen f seen c
    countResult (seen.contains c.name) result
    match result with
    | .ok compiled =>
      let (others, failures) ← compileFrom f failFast (c.name :: seen) rest
      return (compiled :: others, failures)
    | .error e =>
      if failFast then throw (.compile c.name e)
      else
        let (others, failures) ← compileFrom f failFast (c.name :: seen) rest
        return (others, (c.name, e) :: failures)

def compile (config : Config) (cs : List Controller) : Action (List CompiledController) := do
  let f := AttributeFilter.excluding config.compiler.excludedAttributes
  let (compiled, failures) ← compileFrom f config.compiler.failFast [] cs
  if failures.isEmpty then return compiled else throw (.failed failures)

/-! ## Writing -/

def writeUnit (o : Config.Output) (entry : ManifestEntry) (u : EncodedUnit) :
    Action WriteOutcome := do
  let outcome ← writeFile o.dir o.incremental entry.file u.bytes
  count (·.recordWrite outcome.name)
  return outcome

/-- Removes the files of stale entries, and gives those that there were. -/
def prune (o : Config.Output) : List ManifestEntry → Action (List String)
  | [] => return []
  | e :: rest => do
    if ← removeFile o.dir e.file then
      count (·.recordWrite "pruned")
      return e.file :: (← prune o rest)
    else prune o rest

def write (o : Config.Output) (compiled : List CompiledController) : Action Report := do
  prepare o.dir
  let manifestPath := Files.join o.dir o.manifestName
  -- The units' names are checked before anything is written.
  let previous := Manifest.ofFile? (← get).files manifestPath
  let manifest ← orFail (Manifest.ofCompiled compiled o.unitExtension)
  let units := compiled.flatMap CompiledController.units
  let outcomes ← (manifest.units.zip units).mapM fun (entry, u) => writeUnit o entry u
  let pruned ←
    match previous with
    | some previous => if o.pruneStale then prune o (manifest.stale previous) else pure []
    | none => pure []
  let _ ← writeFile o.dir o.incremental o.manifestName (Text.utf8 manifest.toText)
  return {
    controllers := compiled.length
    units := units.length
    written := outcomes.count .written
    unchanged := outcomes.count .unchanged
    pruned
    bytes := compiled.foldl (fun n c => n + c.totalBytes) 0
    manifest
    manifestPath }

/-! ## Whole builds -/

/-- Whether the counts of a build are written, and how. -/
inductive Measuring where
  | off
  | plain
  | described
  deriving DecidableEq, Repr

/-- The text of counts, if it is written. -/
def Measuring.text? (m : Metrics) : Measuring → Option String
  | off => none
  | plain => some (m.render false)
  | described => some (m.render true)

/-- Writes the counts to the file that the configuration names. -/
def writeMetrics (config : Config) (measuring : Measuring) : Action Unit := do
  let w ← get
  match measuring.text? w.metrics, config.metrics.outputFile with
  | some text, some path =>
    match w.files.write path (Text.utf8 text) with
    | .ok files => set { w with files }
    | .error cause => throw (.metrics path cause)
  | _, _ => pure ()

def run (config : Config) (measuring : Measuring) (cs : List Controller) : Action Report := do
  let report ← write config.output (← compile config cs)
  writeMetrics config measuring
  return report

/-- A build of the controllers that files describe. -/
def runFiles (config : Config) (measuring : Measuring) (inputs : List String) : Action Report := do
  run config measuring (← orFail (loadAll (← get).files inputs))

end Routecraft.Build
