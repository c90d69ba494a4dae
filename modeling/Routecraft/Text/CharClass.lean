/-!
# Classes of characters

A class is a table of ranges of code points in ascending order, and a look-up halves the part of the
table that is left.

* `CharClass.has`: whether a character is in a class.
* `CharClass.exists_of_has`: a character in a class is in one of its ranges.
-/

namespace Routecraft.Text

/-- A class of characters: inclusive ranges of code points, in ascending order and apart. -/
structure CharClass where
  ranges : Array (Nat × Nat)

namespace CharClass

/-- Looks for a range that holds `n` among the ranges numbered `low` to `high - 1`. -/
def hasIn (k : CharClass) (n low high : Nat) : Bool :=
  if low < high then
    let middle := (low + high) / 2
    let (first, last) := k.ranges.getD middle (1, 0)
    if n < first then k.hasIn n low middle
    else if last < n then k.hasIn n (middle + 1) high
    else true
  else false
termination_by high - low
decreasing_by all_goals omega

/-- Whether a character is in a class. -/
def has (k : CharClass) (c : Char) : Bool := k.hasIn c.toNat 0 k.ranges.size

/-- A number that is found is in a range between the bounds. -/
theorem exists_of_hasIn {k : CharClass} {n low high : Nat} (h : k.hasIn n low high = true) :
    ∃ i, low ≤ i ∧ i < high ∧ (k.ranges.getD i (1, 0)).1 ≤ n ∧ n ≤ (k.ranges.getD i (1, 0)).2 := by
  fun_induction k.hasIn n low high with
  | case1 low high hlt middle first last hrange hbelow ih =>
    obtain ⟨i, h₁, h₂, h₃⟩ := ih h
    exact ⟨i, h₁, by omega, h₃⟩
  | case2 low high hlt middle first last hrange hnot habove ih =>
    obtain ⟨i, h₁, h₂, h₃⟩ := ih h
    exact ⟨i, by omega, h₂, h₃⟩
  | case3 low high hlt middle first last hrange hnot hnot' =>
    exact ⟨middle, by omega, by omega, by rw [hrange]; exact ⟨by omega, by omega⟩⟩
  | case4 => contradiction

/-- A character in a class is in one of its ranges. -/
theorem exists_of_has {k : CharClass} {c : Char} (h : k.has c = true) :
    ∃ r ∈ k.ranges, r.1 ≤ c.toNat ∧ c.toNat ≤ r.2 := by
  obtain ⟨i, _, hi, hrange⟩ := exists_of_hasIn h
  rw [Array.getD_eq_getD_getElem?, Array.getElem?_eq_getElem hi, Option.getD_some] at hrange
  exact ⟨k.ranges[i], Array.getElem_mem hi, hrange⟩

end CharClass

end Routecraft.Text
