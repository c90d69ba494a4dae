import Routecraft.Compile.AttributeFilter

/-!
# Filters of attributes

A filter goes into the maps and lists of an attribute, and a map of which nothing is left goes too: so a name that
is left out far below can take the maps around it along, one after the other, but never a list.

* `Attribute.Within`: what stands in an attribute, at any depth.
* `AttributeFilter.Clean`: attributes in which there is nothing to leave out.
* `AttributeFilter.filter_eq_self_iff`: a filter keeps all of clean attributes, and of no others.
* `AttributeFilter.filters_compose`: two filters are one that excludes the names of both.
-/

namespace Routecraft

/-- An attribute that is another one, or stands in it. -/
inductive Attribute.Within : Attribute → Attribute → Prop
  | self (a : Attribute) : Within a a
  | item {a b : Attribute} {items : List Attribute} : b ∈ items → Within a b → Within a (.list items)
  | entry {a b : Attribute} {name : String} {entries : AttributeMap} :
      (name, b) ∈ entries → Within a b → Within a (.map entries)

namespace Compile.AttributeFilter

variable {f g h : AttributeFilter}

/-- A filter that excludes the names of two filters. -/
def both (f g : AttributeFilter) : AttributeFilter := ⟨f.excluded ++ g.excluded⟩

/-- Whether a filter excludes a name neither as a whole nor by its part behind the last dot. -/
def Admits (f : AttributeFilter) (name : String) : Prop :=
  name ∉ f.excluded ∧ Platform.simpleName name ∉ f.excluded

/-- Whether no map in an attribute, at any depth, is empty or has a name that is excluded. -/
def CleanIn (f : AttributeFilter) (a : Attribute) : Prop :=
  ∀ entries, Attribute.Within (.map entries) a → entries ≠ [] ∧ ∀ e ∈ entries, f.Admits e.1

/-- Attributes without a name that is excluded and without empty maps, at any depth. -/
structure Clean (f : AttributeFilter) (entries : AttributeMap) : Prop where
  names : ∀ e ∈ entries, f.Admits e.1
  values : ∀ e ∈ entries, f.CleanIn e.2

/-- A filter admits what it does not exclude. -/
theorem isExcluded_eq_false_iff {name : String} : f.isExcluded name = false ↔ f.Admits name := by
  simp [isExcluded, Admits]

/-- Two filters together exclude what either of them does. -/
theorem isExcluded_both (f g : AttributeFilter) (name : String) :
    (f.both g).isExcluded name = (f.isExcluded name || g.isExcluded name) := by
  simp only [isExcluded, both, List.contains_eq_mem, List.mem_append, Bool.decide_or]
  ac_rfl

/-! ## Two filters -/

mutual

/-- What one filter keeps of what another one keeps of a value. -/
theorem filterValue?_bind (hboth : ∀ name, h.isExcluded name = (f.isExcluded name || g.isExcluded name))
    (a : Attribute) : (g.filterValue? a).bind f.filterValue? = h.filterValue? a := by
  match a with
  | .map entries =>
      have hentries := filter_of_filter hboth entries
      rw [filterValue?, filterValue?]
      cases hg : g.filter entries with
      | nil =>
          -- A map that goes with the first filter is one of which nothing is left in the end.
          rw [hg, filter] at hentries
          rw [← hentries]
          rfl
      | cons e kept =>
          rw [hg] at hentries
          rw [← hentries]
          show f.filterValue? (.map (e :: kept)) = _
          rw [filterValue?]
  | .list items =>
      rw [filterValue?, filterValue?, Option.bind_some, filterValue?, items_of_items hboth items]
  | .boolean _ | .byte _ | .char _ | .short _ | .int _ | .long _ | .float _ | .double _ | .string _
  | .classRef _ | .enum _ _ => rfl

/-- If a filter excludes what either of two others does, it does to a list what they do one after the other. -/
theorem items_of_items (hboth : ∀ name, h.isExcluded name = (f.isExcluded name || g.isExcluded name))
    (items : List Attribute) : f.filterItems (g.filterItems items) = h.filterItems items := by
  match items with
  | [] => rfl
  | a :: rest =>
      have hrest := items_of_items hboth rest
      rw [filterItems, filterItems, ← filterValue?_bind hboth a]
      cases g.filterValue? a with
      | none => exact hrest
      | some kept =>
          show f.filterItems (kept :: g.filterItems rest) = _
          rw [filterItems, hrest]
          rfl

theorem filter_of_filter (hboth : ∀ name, h.isExcluded name = (f.isExcluded name || g.isExcluded name))
    (entries : List (String × Attribute)) : f.filter (g.filter entries) = h.filter entries := by
  match entries with
  | [] => rfl
  | (name, a) :: rest =>
      have hrest := filter_of_filter hboth rest
      rw [filter, filter, hboth, ← filterValue?_bind hboth a]
      cases hg : g.isExcluded name with
      | true => simpa using hrest
      | false =>
          cases g.filterValue? a with
          | none =>
              show f.filter (g.filter rest) = _
              rw [hrest]
              simp
          | some kept =>
              show f.filter ((name, kept) :: g.filter rest) = _
              rw [filter, hrest]
              simp

end

/-! ## Clean attributes -/

/-- A list is clean if its items are. -/
theorem cleanIn_list {items : List Attribute} : f.CleanIn (.list items) ↔ ∀ a ∈ items, f.CleanIn a := by
  constructor
  · intro hlist a ha entries hentries
    exact hlist entries (.item ha hentries)
  · intro hitems entries hentries
    cases hentries with
    | item ha hentries => exact hitems _ ha entries hentries

/-- Attributes within an attribute are clean if some are there, and all are clean. -/
theorem cleanIn_map {entries : AttributeMap} : f.CleanIn (.map entries) ↔ entries ≠ [] ∧ f.Clean entries := by
  constructor
  · intro hmap
    obtain ⟨hne, hnames⟩ := hmap entries (.self _)
    refine ⟨hne, hnames, ?_⟩
    intro e he inner hinner
    exact hmap inner (.entry he hinner)
  · rintro ⟨hne, hclean⟩ inner hinner
    cases hinner with
    | self => exact ⟨hne, hclean.names⟩
    | entry he hinner => exact hclean.values _ he inner hinner

/-- Attributes are clean if each is admitted and clean within. -/
theorem clean_cons {name : String} {a : Attribute} {rest : AttributeMap} :
    f.Clean ((name, a) :: rest) ↔ f.Admits name ∧ f.CleanIn a ∧ f.Clean rest := by
  constructor
  · rintro ⟨hnames, hvalues⟩
    obtain ⟨hname, hnames⟩ := List.forall_mem_cons.mp hnames
    obtain ⟨ha, hvalues⟩ := List.forall_mem_cons.mp hvalues
    exact ⟨hname, ha, hnames, hvalues⟩
  · rintro ⟨hname, ha, hrest⟩
    exact ⟨List.forall_mem_cons.mpr ⟨hname, hrest.names⟩, List.forall_mem_cons.mpr ⟨ha, hrest.values⟩⟩

/-- A filter makes no list longer. -/
theorem length_filterItems_le (f : AttributeFilter) (items : List Attribute) :
    (f.filterItems items).length ≤ items.length := by
  induction items with
  | nil => exact Nat.le_refl _
  | cons a rest ih =>
      rw [filterItems]
      cases f.filterValue? a with
      | none => exact Nat.le_succ_of_le ih
      | some kept => exact Nat.succ_le_succ ih

/-- A filter adds no attributes. -/
theorem length_filter_le (f : AttributeFilter) (entries : AttributeMap) :
    (f.filter entries).length ≤ entries.length := by
  induction entries with
  | nil => exact Nat.le_refl _
  | cons e rest ih =>
      rw [filter]
      split
      · exact Nat.le_succ_of_le ih
      · cases f.filterValue? e.2 with
        | none => exact Nat.le_succ_of_le ih
        | some kept => exact Nat.succ_le_succ ih

mutual

/-- A value is kept as it is if it is clean, and only then. -/
theorem filterValue?_eq_self_iff (a : Attribute) : f.filterValue? a = some a ↔ f.CleanIn a := by
  match a with
  | .map entries =>
      rw [cleanIn_map, ← filter_eq_self_iff entries, filterValue?]
      cases hf : f.filter entries with
      | nil => grind
      | cons e kept => grind
  | .list items =>
      rw [cleanIn_list, ← filterItems_eq_self_iff items, filterValue?]
      simp
  | .boolean _ | .byte _ | .char _ | .short _ | .int _ | .long _ | .float _ | .double _ | .string _
  | .classRef _ | .enum _ _ => exact ⟨fun _ _ hentries => (nomatch hentries), fun _ => rfl⟩

/-- A filter leaves just the lists alone whose items are clean. -/
theorem filterItems_eq_self_iff (items : List Attribute) :
    f.filterItems items = items ↔ ∀ a ∈ items, f.CleanIn a := by
  match items with
  | [] => simp [filterItems]
  | a :: rest =>
      have hlength := length_filterItems_le f rest
      rw [List.forall_mem_cons, ← filterValue?_eq_self_iff a, ← filterItems_eq_self_iff rest, filterItems]
      cases f.filterValue? a with
      | none => grind
      | some kept => simp

/-- A filter leaves just the clean attributes alone. -/
theorem filter_eq_self_iff (entries : List (String × Attribute)) : f.filter entries = entries ↔ f.Clean entries := by
  match entries with
  | [] => exact ⟨fun _ => ⟨by simp, by simp⟩, fun _ => rfl⟩
  | (name, a) :: rest =>
      have hlength := length_filter_le f rest
      rw [clean_cons, ← isExcluded_eq_false_iff, ← filterValue?_eq_self_iff a, ← filter_eq_self_iff rest, filter]
      cases f.isExcluded name with
      | true => grind
      | false =>
          cases f.filterValue? a with
          | none => grind
          | some kept => simp

end

/-- **Filters compose.** Two of them, one after the other, are one that excludes the names of both, so it makes no
difference which of them comes first, or whether one comes again. What is kept is clean, and clean attributes are
kept as they are. -/
theorem filters_compose (f g : AttributeFilter) (entries : AttributeMap) :
    f.filter (g.filter entries) = (f.both g).filter entries ∧
    f.filter (g.filter entries) = g.filter (f.filter entries) ∧
    f.filter (f.filter entries) = f.filter entries ∧
    f.Clean (f.filter entries) ∧
    (f.filter entries = entries ↔ f.Clean entries) := by
  have hboth : f.filter (g.filter entries) = (f.both g).filter entries :=
    filter_of_filter (isExcluded_both f g) entries
  have hswapped : g.filter (f.filter entries) = (f.both g).filter entries := by
    apply filter_of_filter
    intro name
    rw [isExcluded_both, Bool.or_comm]
  have htwice : f.filter (f.filter entries) = f.filter entries := by
    apply filter_of_filter
    intro name
    rw [Bool.or_self]
  exact ⟨hboth, hboth.trans hswapped.symm, htwice, (filter_eq_self_iff _).mp htwice, filter_eq_self_iff _⟩

/-- A name that is left out takes two maps along, but no list. -/
example : (AttributeFilter.mk ["Inner"]).filter
    [("app.Outer", .map [("app.Middle", .map [("app.Inner", .int 1)])]),
      ("app.Tags", .list [.map [("Inner", .int 1)]])] = [("app.Tags", .list [])] := by
  rfl

end Compile.AttributeFilter

end Routecraft
