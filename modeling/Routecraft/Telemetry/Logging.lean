import Routecraft.Config.Basic
import Routecraft.Json.Basic

/-!
# Logging and measuring

How a build is logged and whether it is measured, as settings with their documents.

* `Config.telemetry`: what a configuration says about both.
-/

namespace Routecraft

structure LogSettings where
  enabled : Bool
  level : String
  format : LogFormat
  spanEvents : Bool
  fileLineInfo : Bool
  includeTarget : Bool
  ansi : Bool
  deriving DecidableEq, Repr

namespace LogSettings

/-- The settings that hold if nothing else is said. -/
def default : LogSettings := ⟨true, "info", .json, false, false, true, false⟩

def development : LogSettings := ⟨true, "debug", .pretty, true, true, true, true⟩

/-- The preset for builds that go into use. -/
def production : LogSettings := default

def toJson (s : LogSettings) : Json :=
  .object [
    ("enabled", .bool s.enabled),
    ("level", .text s.level),
    ("format", .text (match s.format with
      | .json => "Json"
      | .pretty => "Pretty"
      | .compact => "Compact")),
    ("span_events", .bool s.spanEvents),
    ("file_line_info", .bool s.fileLineInfo),
    ("include_target", .bool s.includeTarget),
    ("ansi", .bool s.ansi)]

end LogSettings

structure TelemetrySettings where
  logging : LogSettings
  metrics : Bool
  deriving DecidableEq, Repr

namespace TelemetrySettings

/-- The settings that hold if nothing else is said. -/
def default : TelemetrySettings := ⟨.default, false⟩

def toJson (s : TelemetrySettings) : Json :=
  .object [("logging", s.logging.toJson), ("metrics", .bool s.metrics)]

end TelemetrySettings

def Config.telemetry (c : Config) : TelemetrySettings where
  logging := {
    enabled := c.logging.enabled
    level := c.logging.level
    format := c.logging.format
    spanEvents := false
    fileLineInfo := c.logging.includeLocation
    includeTarget := true
    ansi := c.logging.ansiEnabled }
  metrics := c.metrics.enabled

end Routecraft
