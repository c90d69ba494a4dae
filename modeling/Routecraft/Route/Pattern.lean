/-!
# Route patterns

A pattern is a path whose segments may hold variables between braces. Patterns are compared as texts, so
they are brought to one form: a slash in front, no two slashes in a row outside braces, no slash at the
end.

* `normalize`: the form of a pattern.
* `join`: a pattern below a path.
-/

namespace Routecraft.Pattern

/-- Appends characters to what is written so far, in reverse, and leaves out a slash that would follow
a slash outside the `depth` open braces. -/
def squeeze (depth : Nat) (out : List Char) : List Char → List Char
  | [] => out
  | c :: rest =>
    if c = '\x7b' then squeeze (depth + 1) (c :: out) rest
    else if c = '\x7d' then squeeze (depth - 1) (c :: out) rest
    else if c = '/' ∧ depth = 0 ∧ out.head? = some '/' then squeeze depth out rest
    else squeeze depth (c :: out) rest

/-- What is written in reverse, without a slash at its end unless it is all there is. -/
def dropLastSlash : List Char → List Char
  | '/' :: c :: rest => c :: rest
  | out => out

def normalizeChars (cs : List Char) : List Char := (dropLastSlash (squeeze 0 ['/'] cs)).reverse

def normalize (pattern : String) : String := String.ofList (normalizeChars pattern.toList)

/-- A pattern mounted below a path. -/
def join (path pattern : String) : String := normalize (path ++ "/" ++ pattern)

end Routecraft.Pattern
