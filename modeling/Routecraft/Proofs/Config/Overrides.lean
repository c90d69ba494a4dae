import Mathlib.Data.List.Basic
import Routecraft.Config.Loader
import Routecraft.Proofs.Outcome

/-!
# Variables in any order

The system lists environment variables in whatever order it likes. What a variable says depends on its name and its
value alone, and no two names lead to the same setting. So the order makes no difference to whether all variables can
be applied, nor to the configuration that comes of it.

* `Config.Says`: what a variable says, if anything.
* `Config.apply_comm`: changes of different settings.
* `Config.override_perm`: overriding in another order.
* `ConfigLoader.variables_in_any_order`: so a configuration loads alike.
-/

namespace Routecraft

namespace Config

/-! ## Changes -/

/-- The parts of the name of the variable for a setting. -/
def Change.path : Change → List String
  | dir _ => ["OUTPUT", "DIR"]
  | manifestName _ => ["OUTPUT", "MANIFEST_NAME"]
  | unitExtension _ => ["OUTPUT", "UNIT_EXTENSION"]
  | incremental _ => ["OUTPUT", "INCREMENTAL"]
  | pruneStale _ => ["OUTPUT", "PRUNE_STALE"]
  | excludedAttributes _ => ["COMPILER", "EXCLUDED_ATTRIBUTES"]
  | failFast _ => ["COMPILER", "FAIL_FAST"]
  | logging _ => ["LOGGING", "ENABLED"]
  | level _ => ["LOGGING", "LEVEL"]
  | format _ => ["LOGGING", "FORMAT"]
  | ansi _ => ["LOGGING", "ANSI_ENABLED"]
  | location _ => ["LOGGING", "INCLUDE_LOCATION"]
  | metrics _ => ["METRICS", "ENABLED"]
  | outputFile _ => ["METRICS", "OUTPUT_FILE"]

/-- A variable says something about the setting that it is named for. -/
theorem Change.path_of_ofVariable? {path : List String} {value : String} {a : Change}
    (h : ofVariable? path value = .ok (some a)) : a.path = path := by
  unfold ofVariable? at h
  split at h
  case h_15 => cases h
  all_goals
    first
    | cases h
      rfl
    | obtain ⟨x, -, hx⟩ := bind_eq_ok.mp h
      cases hx
      rfl

/-- **Changes of different settings commute.** -/
theorem apply_comm (c : Config) {a b : Change} (h : a.path ≠ b.path) : (c.apply a).apply b = (c.apply b).apply a := by
  cases a <;> cases b <;> first | rfl | exact absurd rfl h

/-! ## Variables -/

variable {c c' : Config} {word : String} {x y : String × String} {env env' : Environment}

/-- What a variable says, whatever the configuration: nothing, or a change. -/
def Says (word : String) (x : String × String) (said : Option Change) : Prop :=
  match x.1.dropPrefix? (word ++ "__") with
  | none => said = none
  | some setting => Change.ofVariable? (settingPath setting.toString) x.2 = .ok said

/-- The configuration once a variable has said something. -/
def told (c : Config) : Option Change → Config
  | none => c
  | some a => c.apply a

theorem applyVariable_eq_ok : c.applyVariable word x = .ok c' ↔ ∃ said, Says word x said ∧ c' = c.told said := by
  cases hprefix : x.1.dropPrefix? (word ++ "__") with
  | none => simp [applyVariable, Says, hprefix, told, eq_comm]
  | some setting =>
      simp only [applyVariable, Says, hprefix, set]
      cases Change.ofVariable? (settingPath setting.toString) x.2 with
      | error fault => simp [bind, Except.bind]
      | ok said => cases said <;> simp [ok_bind, pure, Except.pure, told, eq_comm]

/-- The name of a variable that says something about a setting is the word and the name of the setting. -/
theorem Says.name_eq {a : Change} (h : Says word x (some a)) :
    ∃ setting, x.1 = word ++ "__" ++ setting ∧ a.path = settingPath setting := by
  unfold Says at h
  split at h
  · cases h
  · next setting hprefix =>
    exact ⟨setting.copy, String.eq_append_of_dropPrefix?_string_eq_some hprefix, Change.path_of_ofVariable? h⟩

/-- Variables with different names say nothing about the same setting. -/
theorem Says.path_ne {a b : Change} (hx : Says word x (some a)) (hy : Says word y (some b)) (hne : x.1 ≠ y.1) :
    a.path ≠ b.path := by
  obtain ⟨setting, hname, ha⟩ := hx.name_eq
  obtain ⟨setting', hname', hb⟩ := hy.name_eq
  intro hpath
  rw [ha, hb] at hpath
  rw [hname, hname', settingPath_inj hpath] at hne
  exact hne rfl

/-- Changes of different variables can be made in either order. -/
theorem Says.told_comm {said said' : Option Change} (hx : Says word x said) (hy : Says word y said')
    (hne : x.1 ≠ y.1) (c : Config) : (c.told said).told said' = (c.told said').told said := by
  cases said with
  | none => rfl
  | some a =>
      cases said' with
      | none => rfl
      | some b => exact c.apply_comm (hx.path_ne hy hne)

/-- **Variables in another order** can be applied as well, and come to the same configuration. -/
theorem override_perm (hperm : env.Perm env') (hnames : (env.map (·.1)).Nodup) (h : c.override word env = .ok c') :
    c.override word env' = .ok c' := by
  unfold override at h ⊢
  induction hperm generalizing c with
  | nil => exact h
  | cons x _ ih =>
      rw [List.foldlM_cons, bind_eq_ok] at h ⊢
      obtain ⟨c₁, hx, h⟩ := h
      exact ⟨c₁, hx, ih (List.nodup_cons.mp hnames).2 h⟩
  | swap x y env =>
      have hne : y.1 ≠ x.1 := by
        intro heq
        simp [heq] at hnames
      simp only [List.foldlM_cons, bind_eq_ok, applyVariable_eq_ok] at h ⊢
      obtain ⟨_, ⟨said, hy, rfl⟩, _, ⟨said', hx, rfl⟩, h⟩ := h
      rw [hy.told_comm hx hne] at h
      exact ⟨_, ⟨said', hx, rfl⟩, _, ⟨said, hy, rfl⟩, h⟩
  | trans hperm _ ih ih' => exact ih' ((hperm.map _).nodup hnames) (ih hnames h)

end Config

/-! ## Loading -/

namespace ConfigLoader

variable {l : ConfigLoader} {env env' : Environment} {c : Config}

/-- A configuration is loaded if the variables apply and the result is valid. -/
theorem load_eq_ok : l.load env = .ok c ↔
    (match l.word with
      | some word => l.config.override word env
      | none => .ok l.config) = .ok c ∧ c.validate = .ok () := by
  have hchecked (x : Except ConfigError Config) :
      (x >>= fun c => c.validate >>= fun _ => pure c) = .ok c ↔ x = .ok c ∧ c.validate = .ok () := by
    rw [bind_eq_ok]
    constructor
    · rintro ⟨c', hc', h⟩
      obtain ⟨_, hvalid, h⟩ := bind_eq_ok.mp h
      cases h
      exact ⟨hc', hvalid⟩
    · rintro ⟨hc, hvalid⟩
      exact ⟨c, hc, bind_eq_ok.mpr ⟨(), hvalid, rfl⟩⟩
  unfold load
  cases l.word <;> exact hchecked _

/-- A configuration that is loaded is the same for the variables in any other order. -/
theorem load_perm (hperm : env.Perm env') (hnames : (env.map (·.1)).Nodup) (h : l.load env = .ok c) :
    l.load env' = .ok c := by
  rw [load_eq_ok] at h ⊢
  refine ⟨?_, h.2⟩
  cases hword : l.word with
  | none => simpa only [hword] using h.1
  | some word =>
      rw [hword] at h
      exact Config.override_perm hperm hnames h.1

/-- **The order of the variables makes no difference.** Whatever configuration there is to start from, and whatever
word the variables start with: with variables of different names, a configuration fails to load in one order exactly
if it does in the other, and what it loads as is the same. -/
theorem variables_in_any_order (l : ConfigLoader) {env env' : Environment} (hperm : env.Perm env')
    (hnames : (env.map (·.1)).Nodup) :
    ((∃ e, l.load env = .error e) ↔ ∃ e, l.load env' = .error e) ∧ ∀ c, l.load env = .ok c ↔ l.load env' = .ok c := by
  have hok : ∀ c, l.load env = .ok c ↔ l.load env' = .ok c := fun c =>
    ⟨load_perm hperm hnames, load_perm hperm.symm ((hperm.map _).nodup hnames)⟩
  refine ⟨?_, hok⟩
  -- What does not load fails.
  cases h : l.load env with
  | ok c => simp [(hok c).mp h]
  | error e =>
      cases h' : l.load env' with
      | ok c => simp [(hok c).mpr h'] at h
      | error e' => simp

/-- A variable that names a file for the counts, and one without which this would be a conflict. -/
theorem variables_in_any_order_counts :
    let file : String × String := ("DAEDALUS__METRICS__OUTPUT_FILE", "counts.txt")
    let on : String × String := ("DAEDALUS__METRICS__ENABLED", "on")
    [file, on].Perm [on, file] ∧ ([file, on].map (·.1)).Nodup ∧
      (new.withVariables "daedalus").load [file] = .error .conflict ∧
      (new.withVariables "daedalus").load [on, file] =
        .ok { Config.default with metrics := ⟨true, some "counts.txt"⟩ } ∧
      (new.withVariables "daedalus").load [file, on] =
        .ok { Config.default with metrics := ⟨true, some "counts.txt"⟩ } := by
  intro file on
  have hperm : [file, on].Perm [on, file] := .swap ..
  have hnames : ([file, on].map (·.1)).Nodup := by decide
  have hload : (new.withVariables "daedalus").load [on, file] =
      .ok { Config.default with metrics := ⟨true, some "counts.txt"⟩ } := by decide +kernel
  obtain ⟨-, hok⟩ := (new.withVariables "daedalus").variables_in_any_order hperm hnames
  exact ⟨hperm, hnames, by decide +kernel, hload, (hok _).mpr hload⟩

end ConfigLoader

end Routecraft
