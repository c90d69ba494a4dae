import Routecraft.Platform

/-!
# Class hierarchies

What is known of the classes: direct edges from a class to a superclass or interface. Every class is also
below the root, with or without an edge. Cycles and repeated edges do no harm.

* `Hierarchy.search`: whether a class is above one of several others. The edges out of a class are followed
  at most once: classes that have been seen are passed over, so that the search ends with the edges.
* `Hierarchy.isSubtype`: whether a class is another one or below it.
-/

namespace Routecraft.Bytecode

/-- The class above all others. -/
def rootClass : String := Platform.object

/-- The direct edges, each from a class to one above it, in the order in which they were added. -/
structure Hierarchy where
  edges : List (String × String)
  deriving DecidableEq, Repr

namespace Hierarchy

def empty : Hierarchy := ⟨[]⟩

instance : EmptyCollection Hierarchy := ⟨empty⟩

def add (h : Hierarchy) (sub sup : String) : Hierarchy := ⟨h.edges ++ [(sub, sup)]⟩

def extend (h other : Hierarchy) : Hierarchy := ⟨h.edges ++ other.edges⟩

/-- The classes directly above a class, in the order in which the edges were added. -/
def supers (edges : List (String × String)) (name : String) : List String :=
  (edges.filter (·.1 == name)).map (·.2)

/-- The edges that are left to follow: those out of classes that have not been seen. -/
def unseen (seen : List String) (edges : List (String × String)) : List (String × String) :=
  edges.filter fun e => !seen.contains e.1

/-- Each name that is looked at takes its edges out of what is yet to be seen. -/
theorem length_supers_add_unseen {seen : List String} {name : String} (h : name ∉ seen)
    (edges : List (String × String)) :
    (supers edges name).length + (unseen (name :: seen) edges).length = (unseen seen edges).length := by
  induction edges with
  | nil => rfl
  | cons e edges ih =>
    rw [supers, unseen, unseen] at ih ⊢
    by_cases hname : e.1 = name
    · subst hname
      simp_all
      omega
    · by_cases hseen : e.1 ∈ seen <;> simp_all
      omega

/-- Whether `sup` is directly above one of the classes `queue` or of those that edges lead to from them. The
classes are taken from the front of the queue, and those directly above them are put at its end. A class that
has been seen is passed over, so each edge is followed at most once, and there is nothing left to do after as
many classes as there are edges and classes in the queue. -/
def search (edges : List (String × String)) (sup : String) (seen queue : List String) : Bool :=
  match queue with
  | [] => false
  | name :: queue =>
    if name ∈ seen then search edges sup seen queue
    else if sup ∈ supers edges name then true
    else search edges sup (name :: seen) (queue ++ supers edges name)
termination_by queue.length + (unseen seen edges).length
decreasing_by
  · simp
  · next hseen _ =>
    have := length_supers_add_unseen hseen edges
    simp only [List.length_append, List.length_cons]
    omega

/-- Whether `sub` is `sup` or below it. -/
def isSubtype (h : Hierarchy) (sub sup : String) : Bool :=
  sub == sup || sup == rootClass || search h.edges sup [] [sub]

end Hierarchy

end Routecraft.Bytecode
