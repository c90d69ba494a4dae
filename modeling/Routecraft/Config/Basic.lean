import Routecraft.Files.Tree
import Routecraft.Text.Blank

/-!
# Configuration

The settings of a build, their presets, and what makes them invalid.

* `Config.validate`: the first fault of a configuration, if there is one.
-/

namespace Routecraft

inductive LogFormat where
  | json
  | pretty
  | compact
  deriving DecidableEq, Repr

namespace LogFormat

def all : List LogFormat := [json, pretty, compact]

def name : LogFormat → String
  | json => "json"
  | pretty => "pretty"
  | compact => "compact"

def ofName? (s : String) : Option LogFormat := all.find? (·.name == s)

theorem ofName?_name (f : LogFormat) : ofName? f.name = some f := by cases f <;> decide

end LogFormat

namespace Config

structure Output where
  dir : String
  manifestName : String
  unitExtension : String
  /-- Whether files that would not change are left alone. -/
  incremental : Bool
  /-- Whether files of units that are no longer built are removed. -/
  pruneStale : Bool
  deriving DecidableEq, Repr

def Output.default : Output := ⟨"target/daedalus", "daedalus-manifest.json", "dunit", true, true⟩

structure Compiler where
  excludedAttributes : List String
  /-- Whether a build ends with the first controller that does not compile. -/
  failFast : Bool
  deriving DecidableEq, Repr

def Compiler.default : Compiler := ⟨[], true⟩

structure Logging where
  enabled : Bool
  level : String
  format : LogFormat
  ansiEnabled : Bool
  includeLocation : Bool
  deriving DecidableEq, Repr

def Logging.default : Logging := ⟨true, "info", .json, false, false⟩

structure Metrics where
  enabled : Bool
  outputFile : Option String
  deriving DecidableEq, Repr

def Metrics.default : Metrics := ⟨false, none⟩

end Config

/-- The settings of a build. -/
structure Config where
  output : Config.Output
  compiler : Config.Compiler
  logging : Config.Logging
  metrics : Config.Metrics
  deriving DecidableEq, Repr

/-! ## What can be wrong -/

/-- A setting with a value that it must not have. -/
inductive SettingFault where
  | emptyDir
  | emptyManifestName
  | manifestPath
  | unitExtension (extension : String)
  | emptyAttribute
  | emptyLevel
  deriving DecidableEq, Repr

namespace SettingFault

def field : SettingFault → String
  | emptyDir => "output.dir"
  | emptyManifestName => "output.manifest_name"
  | manifestPath => "output.manifest_name"
  | unitExtension _ => "output.unit_extension"
  | emptyAttribute => "compiler.excluded_attributes"
  | emptyLevel => "logging.level"

def reason : SettingFault → String
  | emptyDir => "must not be empty"
  | emptyManifestName => "must not be empty"
  | manifestPath => "must be a file name, not a path"
  | unitExtension extension =>
    "`" ++ extension ++ "` must be a non-empty extension without '.'"
  | emptyAttribute => "attribute names must not be empty"
  | emptyLevel => "must not be empty"

end SettingFault

/-- Why an environment variable is no setting. -/
inductive VariableFault where
  | notBoolean
  | notLogFormat
  deriving DecidableEq, Repr

def VariableFault.reason : VariableFault → String
  | notBoolean => "expected boolean"
  | notLogFormat => "expected 'json', 'pretty' or 'compact'"

inductive DocumentFormat where
  | toml
  | json
  deriving DecidableEq, Repr

inductive DocumentOrigin where
  | inline
  | file (path : String)
  deriving DecidableEq, Repr

def DocumentOrigin.name : DocumentOrigin → String
  | inline => "inline configuration"
  | file path => path

inductive ConfigError where
  | missing (path : String)
  | unreadable (path : String) (cause : Files.FileError)
  | unsupportedFormat (name : String)
  | malformed (format : DocumentFormat) (origin : DocumentOrigin)
  | badVariable (name : String) (fault : VariableFault)
  | invalid (fault : SettingFault)
  /-- A file for measurements is named, and nothing is measured. -/
  | conflict
  deriving DecidableEq, Repr

namespace ConfigError

def kindName : ConfigError → String
  | missing _ => "Missing"
  | unreadable .. => "Read"
  | unsupportedFormat _ => "UnsupportedFormat"
  | malformed .toml _ => "Toml"
  | malformed .json _ => "Json"
  | badVariable .. => "Env"
  | invalid _ => "InvalidValue"
  | conflict => "Conflict"

/-- The wording of an error, and then that of its cause. -/
def chain : ConfigError → List String
  | missing path => ["no configuration file at " ++ path]
  | unreadable path cause =>
    ["cannot read " ++ path ++ ": " ++ cause.message, cause.message]
  | unsupportedFormat name =>
    ["unsupported configuration format `" ++ name ++ "` (expected toml or json)"]
  | malformed .toml origin => [origin.name ++ ": malformed TOML", "malformed TOML"]
  | malformed .json origin => [origin.name ++ ": malformed JSON", "malformed JSON"]
  | badVariable name fault => ["environment variable " ++ name ++ ": " ++ fault.reason]
  | invalid fault => [fault.field ++ ": " ++ fault.reason]
  | conflict =>
    ["conflicting settings: metrics.output_file is set but metrics.enabled is false"]

def message (e : ConfigError) : String := e.chain.head?.getD ""

/-- Whether a document could not be read as a configuration. -/
def isParseError : ConfigError → Bool
  | malformed .. => true
  | _ => false

end ConfigError

namespace Config

/-! ## Presets -/

/-- The settings that hold if nothing else is said. -/
def default : Config := ⟨Output.default, Compiler.default, Logging.default, Metrics.default⟩

instance : Inhabited Config := ⟨default⟩

def development : Config :=
  { default with
    logging := ⟨true, "debug", .pretty, true, true⟩
    compiler := { Compiler.default with failFast := false } }

/-- The preset for builds that go into use. -/
def production : Config := { default with metrics := { Metrics.default with enabled := true } }

/-! ## Validity -/

/-- Whether a text names a file and not a path. -/
def isFileName (s : String) : Bool := !s.toList.contains '/' && !s.toList.contains '\\'

/-- The first fault among the settings, each taken by itself. -/
def fault? (c : Config) : Option SettingFault :=
  let extension := c.output.unitExtension
  if c.output.dir.isEmpty then some .emptyDir
  else if c.output.manifestName.isEmpty then some .emptyManifestName
  else if !isFileName c.output.manifestName then some .manifestPath
  else if extension.isEmpty || extension.toList.contains '.' || !isFileName extension then
    some (.unitExtension extension)
  else if c.compiler.excludedAttributes.any fun name => (Text.trim name).isEmpty then
    some .emptyAttribute
  else if (Text.trim c.logging.level).isEmpty then some .emptyLevel
  else none

def validate (c : Config) : Except ConfigError Unit :=
  match c.fault? with
  | some fault => .error (.invalid fault)
  | none =>
    if c.metrics.outputFile.isSome && !c.metrics.enabled then .error .conflict else .ok ()

end Config

end Routecraft
