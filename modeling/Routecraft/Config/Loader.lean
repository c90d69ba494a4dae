import Routecraft.Config.Document
import Routecraft.Config.Environment
import Routecraft.Text.Case

/-!
# Loading a configuration

A configuration starts from a preset or a document, and environment variables override single settings. A
variable is named by a word of the application's choice, the section and the setting, in capital letters
with two underscores between them.

* `Config.ofFile`: reads a document from a file, in the format of its extension.
* `Change.ofVariable?`, `Config.apply`: what a variable says, and the setting that it changes.
* `Config.override`: applies environment variables.
* `ConfigLoader`: all of it step by step.
-/

namespace Routecraft

open Files

/-! ## Words in variables -/

/-- The truth value that a word stands for, in any case. -/
def switch? (s : String) : Option Bool :=
  let word := Text.lower s
  if ["true", "1", "yes", "on"].contains word then some true
  else if ["false", "0", "no", "off"].contains word then some false
  else none

/-- The texts between the commas of a text, without blanks around them; empty ones are left out. -/
def commaSeparated (s : String) : List String :=
  ((s.splitOn ",").map Text.trim).filter (!·.isEmpty)

/-- The parts of a text between pairs of underscores. Pairs are looked for from the left. -/
def splitPairs : List Char → List (List Char)
  | [] => [[]]
  | '_' :: '_' :: cs => [] :: splitPairs cs
  | c :: cs => (splitPairs cs).modifyHead (c :: ·)

/-- A text from its parts, with pairs of underscores between them. -/
def joinPairs : List (List Char) → List Char
  | [] => []
  | [part] => part
  | part :: rest => part ++ '_' :: '_' :: joinPairs rest

theorem splitPairs_ne_nil (cs : List Char) : splitPairs cs ≠ [] := by
  fun_induction splitPairs cs with
  | case1 => simp
  | case2 => simp
  | case3 c cs _ ih => simpa using ih

theorem joinPairs_modifyHead (c : Char) : {parts : List (List Char)} → parts ≠ [] →
    joinPairs (parts.modifyHead (c :: ·)) = c :: joinPairs parts
  | [_], _ => rfl
  | _ :: _ :: _, _ => rfl

/-- The parts determine the text. -/
theorem joinPairs_splitPairs (cs : List Char) : joinPairs (splitPairs cs) = cs := by
  fun_induction splitPairs cs with
  | case1 => rfl
  | case2 cs ih =>
    obtain ⟨part, rest, h⟩ := List.exists_cons_of_ne_nil (splitPairs_ne_nil cs)
    rw [h] at ih ⊢
    simp [joinPairs, ih]
  | case3 c cs _ ih => rw [joinPairs_modifyHead c (splitPairs_ne_nil cs), ih]

/-- The parts of a variable's name behind the application's word: the section, the setting, and what more there
may be. -/
def settingPath (name : String) : List String := (splitPairs name.toList).map String.ofList

/-- The settings of two names differ if the names do. -/
theorem settingPath_inj {name name' : String} (h : settingPath name = settingPath name') : name = name' := by
  have hparts := congrArg (List.map String.toList) h
  simp only [settingPath, List.map_map, Function.comp_def, String.toList_ofList, List.map_id'] at hparts
  rw [← String.toList_inj, ← joinPairs_splitPairs name.toList, hparts, joinPairs_splitPairs]

namespace Config

/-! ## Overriding settings -/

/-- A setting with a value for it. -/
inductive Change where
  | dir (path : String)
  | manifestName (name : String)
  | unitExtension (extension : String)
  | incremental (on : Bool)
  | pruneStale (on : Bool)
  | excludedAttributes (names : List String)
  | failFast (on : Bool)
  | logging (on : Bool)
  | level (level : String)
  | format (format : LogFormat)
  | ansi (on : Bool)
  | location (on : Bool)
  | metrics (on : Bool)
  | outputFile (path : Option String)
  deriving DecidableEq, Repr

namespace Change

def switchOf (value : String) : Except VariableFault Bool :=
  match switch? value with
  | some b => .ok b
  | none => .error .notBoolean

def formatOf (value : String) : Except VariableFault LogFormat :=
  match LogFormat.ofName? (Text.lower value) with
  | some f => .ok f
  | none => .error .notLogFormat

/-- What a variable says, by the parts of its name and its value; other names say nothing. -/
def ofVariable? (path : List String) (value : String) : Except VariableFault (Option Change) :=
  match path with
  | ["OUTPUT", "DIR"] => return dir value
  | ["OUTPUT", "MANIFEST_NAME"] => return manifestName value
  | ["OUTPUT", "UNIT_EXTENSION"] => return unitExtension value
  | ["OUTPUT", "INCREMENTAL"] => return incremental (← switchOf value)
  | ["OUTPUT", "PRUNE_STALE"] => return pruneStale (← switchOf value)
  | ["COMPILER", "EXCLUDED_ATTRIBUTES"] => return excludedAttributes (commaSeparated value)
  | ["COMPILER", "FAIL_FAST"] => return failFast (← switchOf value)
  | ["LOGGING", "ENABLED"] => return logging (← switchOf value)
  | ["LOGGING", "LEVEL"] => return level value
  | ["LOGGING", "FORMAT"] => return format (← formatOf value)
  | ["LOGGING", "ANSI_ENABLED"] => return ansi (← switchOf value)
  | ["LOGGING", "INCLUDE_LOCATION"] => return location (← switchOf value)
  | ["METRICS", "ENABLED"] => return metrics (← switchOf value)
  | ["METRICS", "OUTPUT_FILE"] => return outputFile (if value.isEmpty then none else some value)
  | _ => return none

end Change

def apply (c : Config) : Change → Config
  | .dir path => { c with output.dir := path }
  | .manifestName name => { c with output.manifestName := name }
  | .unitExtension extension => { c with output.unitExtension := extension }
  | .incremental on => { c with output.incremental := on }
  | .pruneStale on => { c with output.pruneStale := on }
  | .excludedAttributes names => { c with compiler.excludedAttributes := names }
  | .failFast on => { c with compiler.failFast := on }
  | .logging on => { c with logging.enabled := on }
  | .level level => { c with logging.level := level }
  | .format format => { c with logging.format := format }
  | .ansi on => { c with logging.ansiEnabled := on }
  | .location on => { c with logging.includeLocation := on }
  | .metrics on => { c with metrics.enabled := on }
  | .outputFile path => { c with metrics.outputFile := path }

/-- Applies the variable with a name, which is given without the application's word. -/
def set (c : Config) (setting value : String) : Except VariableFault Config := do
  match ← Change.ofVariable? (settingPath setting) value with
  | some change => return c.apply change
  | none => return c

def settingNames : List String := [
  "OUTPUT__DIR", "OUTPUT__MANIFEST_NAME", "OUTPUT__UNIT_EXTENSION", "OUTPUT__INCREMENTAL",
  "OUTPUT__PRUNE_STALE", "COMPILER__EXCLUDED_ATTRIBUTES", "COMPILER__FAIL_FAST",
  "LOGGING__ENABLED", "LOGGING__LEVEL", "LOGGING__FORMAT", "LOGGING__ANSI_ENABLED",
  "LOGGING__INCLUDE_LOCATION", "METRICS__ENABLED", "METRICS__OUTPUT_FILE"]

/-- Variables of other names are no settings, and change nothing. -/
theorem set_of_not_mem {setting : String} (c : Config) (value : String)
    (h : setting ∉ settingNames) : c.set setting value = .ok c := by
  have hpaths : ∀ name ∈ settingNames, settingPath setting ≠ settingPath name := by
    intro name hname hpath
    exact h (settingPath_inj hpath ▸ hname)
  have hnothing : Change.ofVariable? (settingPath setting) value = .ok none := by
    unfold Change.ofVariable?
    split
    case h_15 => rfl
    all_goals
      next hpath =>
      rw [hpath] at hpaths
      exact absurd hpaths (by decide)
  rw [set, hnothing]
  rfl

/-- Applies a variable if its name starts with a word and two underscores. -/
def applyVariable (word : String) (c : Config) (entry : String × String) : Except ConfigError Config :=
  match entry.1.dropPrefix? (word ++ "__") with
  | none => .ok c
  | some setting =>
    match c.set setting.toString entry.2 with
    | .ok c => .ok c
    | .error fault => .error (.badVariable entry.1 fault)

/-- Applies the variables whose names start with a word and two underscores, one after the other. -/
def override (c : Config) (word : String) (env : Environment) : Except ConfigError Config :=
  env.foldlM (applyVariable word) c

/-! ## Documents -/

/-- The format with a name, in small letters. -/
def formatNamed? (name : String) : Option DocumentFormat :=
  if name = "toml" then some .toml else if name = "json" then some .json else none

/-- Reads a document from a text, in a format by its name. -/
def ofInline (text formatName : String) : Except ConfigError Config :=
  match formatNamed? (Text.lower formatName) with
  | some format => ofText format .inline text
  | none => .error (.unsupportedFormat formatName)

def ofFile (t : FileTree) (path : String) : Except ConfigError Config :=
  if t.exists? path then
    match t.readText path with
    | .error cause => .error (.unreadable path cause)
    | .ok text =>
      let name := ((extension? path).map Text.lower).getD ""
      match formatNamed? name with
      | some format => ofText format (.file path) text
      | none => .error (.unsupportedFormat name)
  else .error (.missing path)

end Config

/-! ## Step by step -/

/-- The word that variables start with if nothing else is said. -/
def defaultVariableWord : String := "DAEDALUS"

/-- A configuration that is being put together: what is known so far, and the word of the variables that
will override it. -/
structure ConfigLoader where
  config : Config
  word : Option String
  deriving DecidableEq, Repr

namespace ConfigLoader

def new : ConfigLoader := ⟨.default, none⟩

def withConfig (l : ConfigLoader) (c : Config) : ConfigLoader := { l with config := c }

def withFile (l : ConfigLoader) (t : FileTree) (path : String) :
    Except ConfigError ConfigLoader :=
  (Config.ofFile t path).map l.withConfig

def withOptionalFile (l : ConfigLoader) (t : FileTree) (path : String) :
    Except ConfigError ConfigLoader :=
  if t.exists? path then l.withFile t path else .ok l

def withText (l : ConfigLoader) (text formatName : String) : Except ConfigError ConfigLoader :=
  (Config.ofInline text formatName).map l.withConfig

/-- Lets variables override the configuration. -/
def withVariables (l : ConfigLoader) (word : String) : ConfigLoader :=
  { l with word := some (Text.upper word) }

/-- The finished configuration: the variables are applied, and the result is checked. -/
def load (l : ConfigLoader) (env : Environment) : Except ConfigError Config := do
  let c ← match l.word with
    | some word => l.config.override word env
    | none => .ok l.config
  c.validate
  return c

end ConfigLoader

end Routecraft
