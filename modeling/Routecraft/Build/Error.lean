import Routecraft.Compile.Error
import Routecraft.Config.Basic
import Routecraft.Telemetry.LogFilter

/-!
# Why a build fails

The causes and their wording. Each error has a chain: its own wording, then that of its cause, and so on.
-/

namespace Routecraft.Build

open Compile Files

inductive BuildError where
  | io (path : String) (cause : FileError)
  /-- A file that does not describe controllers. -/
  | descriptor (path : String)
  | config (cause : ConfigError)
  | filter (level : String) (fault : FilterFault)
  | metrics (path : String) (cause : FileError)
  /-- The first controller that does not compile. -/
  | compile (controller : String) (cause : CompileError)
  /-- All controllers that do not compile. -/
  | failed (failures : List (String × CompileError))
  | invalidUnitName (name : String)
  deriving DecidableEq, Repr

namespace BuildError

def kindName : BuildError → String
  | io .. => "Io"
  | descriptor _ => "Descriptor"
  | config cause => cause.kindName
  | filter .. => "Telemetry"
  | metrics .. => "Telemetry"
  | compile .. => "Compile"
  | failed _ => "Failed"
  | invalidUnitName _ => "InvalidUnitName"

/-- The wording of a compile error, and then that of its cause. -/
def compileChain : CompileError → List String
  | .internal e => [(CompileError.internal e).message, e.message]
  | e => [e.message]

def firstFailure : List (String × CompileError) → String
  | [] => ""
  | (controller, e) :: _ => controller ++ ": " ++ e.message

/-- The wording of an error, and then that of its causes. -/
def chain : BuildError → List String
  | io path cause => ["I/O error on " ++ path ++ ": " ++ cause.message, cause.message]
  | descriptor path =>
    ["invalid descriptor file " ++ path ++ ": malformed JSON", "malformed JSON"]
  | config cause => cause.chain
  | filter level fault =>
    ["Failed to initialize logging: invalid log level `" ++ level ++ "`: " ++ fault.message]
  | metrics path cause =>
    ["Failed to write metrics to " ++ path ++ ": " ++ cause.message, cause.message]
  | compile controller cause =>
    ("failed to compile " ++ controller ++ ": " ++ cause.message) :: compileChain cause
  | failed failures =>
    [toString failures.length ++ " controller(s) failed to compile; first: "
      ++ firstFailure failures]
  | invalidUnitName name => ["unit name `" ++ name ++ "` cannot be used as a file name"]

def message (e : BuildError) : String := e.chain.head?.getD ""

def compileErrors : BuildError → List CompileError
  | compile _ cause => [cause]
  | failed failures => failures.map (·.2)
  | _ => []

/-- The path that an error is about. -/
def path? : BuildError → Option String
  | io path _ => some path
  | descriptor path => some path
  | _ => none

end BuildError

end Routecraft.Build
