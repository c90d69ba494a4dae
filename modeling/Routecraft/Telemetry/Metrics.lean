import Routecraft.Text.Utf8

/-!
# Metrics

What a build counts: units and their bytes by kind, compile failures by class, file writes by outcome, and
how many controllers were compiled. Counts have 64 bits. The text form has one line for each count.

* `Metrics.add`: counts something.
* `Metrics.samples`, `Metrics.render`: the counts as lines, and as a text.
-/

namespace Routecraft

/-- What is counted, under one label. -/
structure Series where
  metric : String
  label : String
  value : String
  deriving DecidableEq, Repr

/-- Counts, in the order in which they were first made. -/
structure Metrics where
  counts : List (Series × UInt64)
  /-- How many durations of compilations were recorded. -/
  durations : UInt64
  deriving DecidableEq, Repr

namespace Metrics

def unitsGenerated : String := "daedalus_units_generated_total"
def unitBytes : String := "daedalus_unit_bytes_total"
def compileFailures : String := "daedalus_compile_failures_total"
def unitWrites : String := "daedalus_unit_writes_total"
def compileDuration : String := "daedalus_compile_duration_seconds"

def empty : Metrics := ⟨[], 0⟩

instance : Inhabited Metrics := ⟨empty⟩

/-! ## Counting -/

def add (m : Metrics) (s : Series) (n : UInt64) : Metrics :=
  if m.counts.any (·.1 == s) then
    { m with counts := m.counts.map fun (t, k) => if t == s then (t, k + n) else (t, k) }
  else { m with counts := m.counts ++ [(s, n)] }

def recordUnit (m : Metrics) (kind : String) (bytes : Nat) : Metrics :=
  (m.add ⟨unitsGenerated, "kind", kind⟩ 1).add ⟨unitBytes, "kind", kind⟩ (UInt64.ofNat bytes)

def recordFailure (m : Metrics) (className : String) : Metrics :=
  m.add ⟨compileFailures, "error", className⟩ 1

def recordWrite (m : Metrics) (outcome : String) : Metrics :=
  m.add ⟨unitWrites, "outcome", outcome⟩ 1

def recordDuration (m : Metrics) : Metrics := { m with durations := m.durations + 1 }

/-! ## Text -/

/-- The value of a label between quotes: line ends, quotes and backslashes are escaped. A backslash in
front of a quote or of another backslash counts as escaping it already; one in front of a line end comes
behind it. -/
def escapeLabel (pending : Bool) : List Char → List Char
  | [] => if pending then ['\\', '\\'] else []
  | '\n' :: rest => ['\\', 'n'] ++ escapeLabel pending rest
  | '"' :: rest => ['\\', '"'] ++ escapeLabel false rest
  | '\\' :: rest => (if pending then ['\\', '\\'] else []) ++ escapeLabel (!pending) rest
  | c :: rest => (if pending then ['\\', '\\'] else []) ++ c :: escapeLabel false rest

def sample (s : Series) (n : UInt64) : String :=
  s.metric ++ "\x7b" ++ s.label ++ "=\"" ++ String.ofList (escapeLabel false s.value.toList)
    ++ "\"\x7d " ++ toString n.toNat

/-- The line of the count of durations, if there are any. -/
def durationSample (m : Metrics) : List String :=
  if m.durations = 0 then []
  else [compileDuration ++ "_count " ++ toString m.durations.toNat]

/-- Lines in order. -/
def sorted (lines : List String) : List String := lines.mergeSort (· ≤ ·)

def samples (m : Metrics) : List String :=
  sorted (m.counts.map (fun (s, n) => sample s n) ++ m.durationSample)

def description (metric : String) : String :=
  if metric = unitsGenerated then "Units generated, by kind"
  else if metric = unitBytes then "Encoded size of generated units"
  else if metric = compileFailures then "Controllers that failed to compile"
  else if metric = unitWrites then "Unit files by write outcome"
  else "Time spent compiling one controller"

/-- Lines of a metric under its headlines, if there are any. -/
def headed (described : Bool) (metric type : String) (lines : List String) : List String :=
  if lines.isEmpty then []
  else
    let help := if described then ["# HELP " ++ metric ++ " " ++ description metric] else []
    help ++ ["# TYPE " ++ metric ++ " " ++ type] ++ lines ++ [""]

def linesOf (m : Metrics) (metric : String) : List String :=
  (m.counts.filter (·.1.metric == metric)).map fun (s, n) => sample s n

/-- The counts as a text. With `described`, it says what each metric is about. -/
def render (described : Bool) (m : Metrics) : String :=
  let counters := [unitsGenerated, unitBytes, compileFailures, unitWrites].flatMap fun metric =>
    headed described metric "counter" (m.linesOf metric)
  let durations := headed described compileDuration "summary" m.durationSample
  String.join ((counters ++ durations).map (· ++ "\n"))

/-- The lines of the counts in a text, in order, if it counts durations. -/
def samplesOf? (text : String) : Option (List String) :=
  -- Headlines and blank lines count nothing.
  let lines := (text.splitOn "\n").filter fun line => !line.isEmpty && !line.startsWith "#"
  if lines.any (·.startsWith compileDuration) then some (sorted lines) else none

end Metrics

end Routecraft
