import Routecraft.Platform
import Routecraft.Route.Attribute

/-!
# Filtering attributes

Attributes that the route itself already expresses are not registered. A name is excluded as a whole or by
its part behind the last dot; the maps inside an attribute are filtered too, and a map of which nothing is
left goes with its key, or from its list.

* `AttributeFilter.filter`: the attributes that are kept.
-/

namespace Routecraft.Compile

/-- The names of attributes that are not registered. -/
structure AttributeFilter where
  excluded : List String
  deriving DecidableEq, Repr

namespace AttributeFilter

/-- The names that are always excluded. -/
def defaultExcluded : List String :=
  ["Path", "GET", "POST", "PUT", "DELETE", "PATCH", "HEAD", "OPTIONS", "TRACE", "Consumes",
    "Produces", "PathParam", "QueryParam", "HeaderParam", "CookieParam", "FormParam",
    "ContextParam", "BindParam", "Param", "Nullable", "NonNull", "Nonnull", "NotNull",
    "CheckForNull"]

def excluding (names : List String) : AttributeFilter := ⟨defaultExcluded ++ names⟩

/-- Whether an attribute of this name is not registered. -/
def isExcluded (f : AttributeFilter) (name : String) : Bool :=
  f.excluded.contains name || f.excluded.contains (Platform.simpleName name)

mutual

/-- What is kept of a value: nothing of a map without entries. -/
def filterValue? (f : AttributeFilter) : Attribute → Option Attribute
  | .map entries =>
    match f.filter entries with
    | [] => none
    | kept => some (.map kept)
  | .list items => some (.list (f.filterItems items))
  | a => some a

def filterItems (f : AttributeFilter) : List Attribute → List Attribute
  | [] => []
  | a :: rest =>
    match f.filterValue? a with
    | some kept => kept :: f.filterItems rest
    | none => f.filterItems rest

def filter (f : AttributeFilter) : List (String × Attribute) → List (String × Attribute)
  | [] => []
  | (name, a) :: rest =>
    if f.isExcluded name then f.filter rest
    else
      match f.filterValue? a with
      | some kept => (name, kept) :: f.filter rest
      | none => f.filter rest

end

end AttributeFilter

end Routecraft.Compile
