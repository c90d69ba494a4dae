import Routecraft.Config.Basic
import Routecraft.Json.Reader
import Routecraft.Json.Record
import Routecraft.Toml.Reader

/-!
# Configuration documents

Configurations as trees, which TOML and JSON documents are read to. What a document does not say has its
default; what it says must be a setting.

* `Config.ofText`: reads a document.
* `Config.toJson`: the document of a configuration.
-/

namespace Routecraft

open Json

/-- What the formats see differently. -/
structure Convention where
  /-- Whether a section written as a list may have surplus items. -/
  allowsSurplus : Bool
  /-- Whether something is the content of an alternative without data. -/
  isNothing : Json → Bool

namespace Convention

def json : Convention where
  allowsSurplus := false
  isNothing
    | .null => true
    | _ => false

def toml : Convention where
  allowsSurplus := true
  isNothing
    | .object [] => true
    | .array [] => true
    | _ => false

variable (c : Convention)

/-- What a section says of each of its settings; it has no others. -/
def settings? (names : List String) : Json → Option (List (Option Json))
  | .object members =>
    if members.all fun (name, _) => names.contains name then names.mapM (member? members) else none
  | .array items =>
    positional? names (if c.allowsSurplus then items.take names.length else items)
  | _ => none

def logFormat? : Json → Option LogFormat
  | .text name => LogFormat.ofName? name
  | .object [(name, content)] => if c.isNothing content then LogFormat.ofName? name else none
  | _ => none

def output? (j : Json) : Option Config.Output := do
  let d := Config.Output.default
  match ← c.settings? ["dir", "manifest_name", "unit_extension", "incremental", "prune_stale"] j with
  | [dir, manifestName, unitExtension, incremental, pruneStale] =>
    return {
      dir := ← orElse? d.dir asText? dir
      manifestName := ← orElse? d.manifestName asText? manifestName
      unitExtension := ← orElse? d.unitExtension asText? unitExtension
      incremental := ← orElse? d.incremental asBool? incremental
      pruneStale := ← orElse? d.pruneStale asBool? pruneStale }
  | _ => none

def compiler? (j : Json) : Option Config.Compiler := do
  let d := Config.Compiler.default
  match ← c.settings? ["excluded_attributes", "fail_fast"] j with
  | [excludedAttributes, failFast] =>
    return {
      excludedAttributes := ← orElse? d.excludedAttributes (asList? asText?) excludedAttributes
      failFast := ← orElse? d.failFast asBool? failFast }
  | _ => none

def logging? (j : Json) : Option Config.Logging := do
  let d := Config.Logging.default
  match ← c.settings? ["enabled", "level", "format", "ansi_enabled", "include_location"] j with
  | [enabled, level, format, ansiEnabled, includeLocation] =>
    return {
      enabled := ← orElse? d.enabled asBool? enabled
      level := ← orElse? d.level asText? level
      format := ← orElse? d.format c.logFormat? format
      ansiEnabled := ← orElse? d.ansiEnabled asBool? ansiEnabled
      includeLocation := ← orElse? d.includeLocation asBool? includeLocation }
  | _ => none

def metrics? (j : Json) : Option Config.Metrics := do
  let d := Config.Metrics.default
  match ← c.settings? ["enabled", "output_file"] j with
  | [enabled, outputFile] =>
    return {
      enabled := ← orElse? d.enabled asBool? enabled
      outputFile := ← orElse? d.outputFile (asOptional? asText?) outputFile }
  | _ => none

def config? (j : Json) : Option Config := do
  let d := Config.default
  match ← c.settings? ["output", "compiler", "logging", "metrics"] j with
  | [output, compiler, logging, metrics] =>
    return {
      output := ← orElse? d.output c.output? output
      compiler := ← orElse? d.compiler c.compiler? compiler
      logging := ← orElse? d.logging c.logging? logging
      metrics := ← orElse? d.metrics c.metrics? metrics }
  | _ => none

end Convention

namespace Config

def ofText? (format : DocumentFormat) (text : String) : Option Config :=
  match format with
  | .toml => do Convention.toml.config? (← Toml.read? text)
  | .json => do Convention.json.config? (← Json.read? text)

def ofText (format : DocumentFormat) (origin : DocumentOrigin) (text : String) :
    Except ConfigError Config :=
  match ofText? format text with
  | some c => .ok c
  | none => .error (.malformed format origin)

def toJson (c : Config) : Json :=
  .object [
    ("output", .object [
      ("dir", .text c.output.dir),
      ("manifest_name", .text c.output.manifestName),
      ("unit_extension", .text c.output.unitExtension),
      ("incremental", .bool c.output.incremental),
      ("prune_stale", .bool c.output.pruneStale)]),
    ("compiler", .object [
      ("excluded_attributes", .array (c.compiler.excludedAttributes.map .text)),
      ("fail_fast", .bool c.compiler.failFast)]),
    ("logging", .object [
      ("enabled", .bool c.logging.enabled),
      ("level", .text c.logging.level),
      ("format", .text c.logging.format.name),
      ("ansi_enabled", .bool c.logging.ansiEnabled),
      ("include_location", .bool c.logging.includeLocation)]),
    ("metrics", .object [
      ("enabled", .bool c.metrics.enabled),
      ("output_file", (c.metrics.outputFile.map Json.text).getD .null)])]

end Config

end Routecraft
