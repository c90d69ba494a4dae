import Routecraft.Build.Run
import Routecraft.Config.Loader

/-!
# The command line

What the program does with its arguments, the environment and the files: text for its two outputs, an exit
code, and the files that it leaves.

* `Command.ofArguments`: what the arguments ask for.
* `Invocation.configure`: the configuration of a build.
* `run`: the whole program.
-/

namespace Routecraft.CommandLine

open Build Files

/-! ## Arguments -/

structure Invocation where
  /-- A configuration file in place of the usual one. -/
  config : Option String
  /-- An output folder in place of the configured one. -/
  output : Option String
  /-- Whether to start from the preset for work on an application. -/
  development : Bool
  /-- Descriptor files and folders. -/
  inputs : List String
  deriving DecidableEq, Repr, Inhabited

inductive Command where
  | build (i : Invocation)
  | help
  | version
  deriving DecidableEq, Repr

inductive UsageError where
  | missingPath (option : String)
  | unknown (argument : String)
  | noInputs
  deriving DecidableEq, Repr

def UsageError.message : UsageError → String
  | missingPath option => option ++ " requires a path"
  | unknown argument => "unknown argument: " ++ argument ++ "\nUse --help for usage information"
  | noInputs => "no descriptor files given\nUse --help for usage information"

/-- What an argument says by itself. -/
inductive Argument where
  | config
  | output
  | development
  | help
  | version
  | unknown
  | input
  deriving DecidableEq, Repr

def Argument.of (s : String) : Argument :=
  if s = "--config" ∨ s = "-c" then config
  else if s = "--output" ∨ s = "-o" then output
  else if s = "--dev" then development
  else if s = "--help" ∨ s = "-h" then help
  else if s = "--version" ∨ s = "-V" then version
  else if s.startsWith "-" then unknown
  else input

/-- Reads arguments after those that ask for `i`. Of an option that is repeated the last one counts. -/
def Invocation.scan (i : Invocation) : List String → Except UsageError Command
  | [] => if i.inputs.isEmpty then .error .noInputs else .ok (.build i)
  | s :: rest =>
    match Argument.of s, rest with
    | .config, path :: rest => scan { i with config := some path } rest
    | .config, [] => .error (.missingPath "--config")
    | .output, path :: rest => scan { i with output := some path } rest
    | .output, [] => .error (.missingPath "--output")
    | .development, rest => scan { i with development := true } rest
    | .help, _ => .ok .help
    | .version, _ => .ok .version
    | .unknown, _ => .error (.unknown s)
    | .input, rest => scan { i with inputs := i.inputs ++ [s] } rest

def Command.ofArguments (args : List String) : Except UsageError Command :=
  Invocation.scan ⟨none, none, false, []⟩ args

/-! ## Texts -/

def versionText : String := "daedalus-build 0.1.0"

def helpText : String :=
  "Daedalus - MVC route compiler

USAGE:
    daedalus-build [OPTIONS] <DESCRIPTORS>...

ARGS:
    <DESCRIPTORS>...       Descriptor JSON files, or directories of them

OPTIONS:
    -c, --config <PATH>    Configuration file (TOML or JSON, default: daedalus.toml)
    -o, --output <DIR>     Output directory (overrides output.dir)
        --dev              Start from the development preset
    -h, --help             Print help information
    -V, --version          Print version information

ENVIRONMENT VARIABLES:
    DAEDALUS__OUTPUT__DIR                      Output directory
    DAEDALUS__OUTPUT__INCREMENTAL              Skip unchanged unit files
    DAEDALUS__COMPILER__EXCLUDED_ATTRIBUTES    Comma-separated attribute names
    DAEDALUS__COMPILER__FAIL_FAST              Stop at the first failing controller
    DAEDALUS__LOGGING__LEVEL                   Log level or filter directive
    DAEDALUS__METRICS__OUTPUT_FILE             Prometheus text output file
"

def summary (r : Report) : String :=
  toString r.controllers ++ " controllers, " ++ toString r.units ++ " units ("
    ++ toString r.written ++ " written, " ++ toString r.unchanged ++ " unchanged, "
    ++ toString r.pruned.length ++ " pruned) -> " ++ r.manifestPath

/-! ## Configuration -/

/-- The configuration file that is read if there is one and no other is named. -/
def usualConfigFile : String := "daedalus.toml"

inductive RunError where
  /-- The configuration file that the arguments name cannot be used. -/
  | namedFile (path : String) (cause : ConfigError)
  | build (cause : BuildError)
  deriving DecidableEq, Repr

/-- The wording of an error, and then that of its causes. -/
def RunError.chain : RunError → List String
  | namedFile path cause => ("failed to load " ++ path) :: cause.chain
  | build cause => cause.chain

/-- The configuration before environment variables override it. -/
def Invocation.loader (i : Invocation) (t : FileTree) : Except RunError ConfigLoader :=
  let l := if i.development then ConfigLoader.new.withConfig .development else .new
  match i.config with
  | some path =>
    match l.withFile t path with
    | .ok l => .ok l
    | .error cause => .error (.namedFile path cause)
  | none =>
    match l.withOptionalFile t usualConfigFile with
    | .ok l => .ok l
    | .error cause => .error (.build (.config cause))

def Invocation.configure (i : Invocation) (env : Environment) (t : FileTree) :
    Except RunError Config := do
  let l ← i.loader t
  match (l.withVariables defaultVariableWord).load (env.withDotenv t) with
  | .error cause => .error (.build (.config cause))
  | .ok c =>
    match i.output with
    -- The folder of the arguments is not checked like a setting.
    | some dir => .ok { c with output.dir := dir }
    | none => .ok c

/-- Checks that what is to be logged can be told. -/
def checkLogging (c : Config) : Except RunError Unit :=
  if c.logging.enabled then
    match LogFilter.check c.logging.level with
    | .ok () => .ok ()
    | .error fault => .error (.build (.filter c.logging.level fault))
  else .ok ()

/-! ## Places that matter -/

def Invocation.configPaths (i : Invocation) : List String :=
  [Environment.dotenvName, i.config.getD usualConfigFile]

/-- The paths that a build reads and writes, if it gets as far: its inputs, its folder, and the file for its
counts. -/
def Invocation.buildPaths (i : Invocation) (env : Environment) (t : FileTree) : List String :=
  match i.configure env t with
  | .ok c => i.inputs ++ [c.output.dir] ++ c.metrics.outputFile.toList
  | .error _ => []

/-! ## Running -/

/-- What the program leaves when it ends. -/
structure Outcome where
  code : Nat
  output : String
  errors : String
  files : FileTree
  deriving Repr

/-- The end of a run that says something. -/
def Outcome.success (output : String) (t : FileTree) : Outcome := ⟨0, output ++ "\n", "", t⟩

def Outcome.failure (code : Nat) (chain : List String) (t : FileTree) : Outcome :=
  ⟨code, "", "error: " ++ ": ".intercalate chain ++ "\n", t⟩

def Invocation.run (i : Invocation) (env : Environment) (t : FileTree) : Outcome :=
  let config := do
    let c ← i.configure env t
    checkLogging c
    return c
  match config with
  | .error e => .failure 1 e.chain t
  | .ok c =>
    let measuring := if c.metrics.enabled then .described else .off
    let (result, w) := (runFiles c measuring i.inputs).run.run ⟨t, .empty⟩
    match result with
    | .ok report => .success (summary report) w.files
    | .error e => .failure 1 e.chain w.files

def run (args : List String) (env : Environment) (t : FileTree) : Outcome :=
  match Command.ofArguments args with
  | .ok .help => .success helpText t
  | .ok .version => .success versionText t
  | .ok (.build i) => i.run env t
  | .error e => .failure 2 [e.message] t

end Routecraft.CommandLine
