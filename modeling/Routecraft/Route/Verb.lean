import Routecraft.Text.Case

/-!
# Request verbs

The verbs an endpoint can answer. A verb is written in capital letters and read in any case.

* `Verb.parse?_name`: reading the name of a verb gives the verb.
-/

namespace Routecraft

inductive Verb where
  | get
  | post
  | put
  | delete
  | patch
  | head
  | options
  | trace
  deriving DecidableEq, Repr

namespace Verb

/-- All verbs, in the order in which they are listed and tried. -/
def all : List Verb := [get, post, put, delete, patch, head, options, trace]

def name : Verb → String
  | get => "GET"
  | post => "POST"
  | put => "PUT"
  | delete => "DELETE"
  | patch => "PATCH"
  | head => "HEAD"
  | options => "OPTIONS"
  | trace => "TRACE"

/-- The verb with a name, in any case of ASCII letters. -/
def parse? (s : String) : Option Verb := all.find? (Text.eqIgnoringCase ·.name s)

def ofName? (s : String) : Option Verb := all.find? (·.name == s)

theorem mem_all (v : Verb) : v ∈ all := by cases v <;> decide

theorem parse?_name (v : Verb) : parse? v.name = some v := by cases v <;> decide +kernel

end Verb

end Routecraft
