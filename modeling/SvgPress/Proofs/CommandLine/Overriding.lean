import SvgPress.CommandLine.Options
import SvgPress.Proofs.Optimizer.Selecting

/-!
# Switches and configurations

The switches of a command line change the first entry that a configuration lists for a name, or add
one. Where a configuration lists a name at most once, this decides what counts for it. Of a name
that is listed more often the last entry counts, which no switch has changed.
-/

namespace SvgPress

namespace Toml.Table

theorem insert_insert (key : String) (value : Value) (table : Table) :
    insert key value (insert key value table) = insert key value table := by
  induction table with
  | nil => simp [insert]
  | cons first rest ih =>
    rw [insert]
    split_ifs with hkey hlt
    · simp [insert]
    · simp [insert]
    · rw [insert, if_neg hkey, if_neg hlt, ih]

theorem get?_insert (key : String) (value : Value) (table : Table) :
    get? (insert key value table) key = some value := by
  induction table with
  | nil => simp [insert, get?]
  | cons first rest ih =>
    rw [insert]
    split_ifs with hkey hlt
    · simp [get?]
    · simp [get?]
    · rw [get?, if_neg hkey, ih]

end Toml.Table

namespace CommandLine

open Config

/-! ## Changing entries -/

variable {f g : PluginEntry → PluginEntry} {name : String} {names : List String}
  {listed : List PluginEntry} {p : String → Bool}

/-- Change the first of the entries of a name; without one, there is a new entry. -/
def adjustHead (name : String) (f : PluginEntry → PluginEntry) :
    List PluginEntry → List PluginEntry
  | [] => [f { name }]
  | entry :: rest => f entry :: rest

theorem adjustHead_adjustHead (entries : List PluginEntry) :
    adjustHead name f (adjustHead name g entries) = adjustHead name (f ∘ g) entries := by
  cases entries <;> rfl

/-- Changing the entry of a name leaves the entries of all other names alone. -/
theorem filter_adjustEntry_of_other (hf : ∀ entry, (f entry).name = entry.name)
    (hp : p name = false) (listed : List PluginEntry) :
    (adjustEntry name f listed).filter (p ·.name) = listed.filter (p ·.name) := by
  induction listed with
  | nil => simp [adjustEntry, hf, hp]
  | cons entry rest ih =>
    rw [adjustEntry]
    split_ifs with hname
    · simp [hf, hname, hp]
    · rw [List.filter_cons, List.filter_cons, ih]

theorem filter_adjustEntry (hf : ∀ entry, (f entry).name = entry.name)
    (listed : List PluginEntry) :
    (adjustEntry name f listed).filter (·.name = name) =
      adjustHead name f (listed.filter (·.name = name)) := by
  induction listed with
  | nil => simp [adjustEntry, adjustHead, hf]
  | cons entry rest ih =>
    rw [adjustEntry]
    split_ifs with hname
    · simp [hf, hname, adjustHead]
    · simp [hname, ih]

/-- Change the first entry of each of some names. -/
def adjustAll (names : List String) (f : PluginEntry → PluginEntry) (listed : List PluginEntry) :
    List PluginEntry :=
  names.foldl (fun entries name => adjustEntry name f entries) listed

theorem filter_adjustAll_of_other (hf : ∀ entry, (f entry).name = entry.name)
    (hp : ∀ name ∈ names, p name = false) (listed : List PluginEntry) :
    (adjustAll names f listed).filter (p ·.name) = listed.filter (p ·.name) := by
  induction names generalizing listed with
  | nil => rfl
  | cons first rest ih =>
    obtain ⟨hfirst, hrest⟩ := List.forall_mem_cons.1 hp
    rw [adjustAll, List.foldl_cons, ← adjustAll, ih hrest, filter_adjustEntry_of_other hf hfirst]

/-- A change that changes nothing more the second time is made once for each name. -/
theorem filter_adjustAll (hf : ∀ entry, (f entry).name = entry.name)
    (htwice : ∀ entry, f (f entry) = f entry) (names : List String) (name : String)
    (listed : List PluginEntry) :
    (adjustAll names f listed).filter (·.name = name) =
      if name ∈ names then adjustHead name f (listed.filter (·.name = name))
      else listed.filter (·.name = name) := by
  induction names generalizing listed with
  | nil => simp [adjustAll]
  | cons first rest ih =>
    rw [adjustAll, List.foldl_cons, ← adjustAll, ih]
    by_cases hfirst : first = name
    · subst hfirst
      have hff : f ∘ f = f := funext htwice
      rw [filter_adjustEntry hf, adjustHead_adjustHead, hff]
      simp
    · rw [filter_adjustEntry_of_other (p := fun other => decide (other = name)) hf
        (by simp [hfirst])]
      simp [Ne.symm hfirst]

/-! ## Switches -/

variable {o : Options} {c : Config} {entry : PluginEntry}

/-- Whether a switch names a plugin; a precision names the plugin for path data. -/
def Options.concerns (o : Options) (name : String) : Bool :=
  o.enabled.contains name || o.disabled.contains name ||
    (o.precision.isSome && name == "convertPathData")

/-- An entry that is switched on or off. -/
def switched (enabled : Bool) (entry : PluginEntry) : PluginEntry :=
  { entry with enabled }

theorem name_switched (enabled : Bool) (entry : PluginEntry) :
    (switched enabled entry).name = entry.name :=
  rfl

theorem switched_switched (enabled : Bool) (entry : PluginEntry) :
    switched enabled (switched enabled entry) = switched enabled entry :=
  rfl

namespace Options

/-- The names that a precision names. -/
def precise (o : Options) : List String :=
  if o.precision.isSome then ["convertPathData"] else []

/-- An entry with the precision of the command line, if it has one. -/
def withPrecision (o : Options) (entry : PluginEntry) : PluginEntry :=
  match o.precision with
  | some precision => setPrecision precision entry
  | none => entry

/-- What the switches make of an entry of a name. -/
def applied (o : Options) (name : String) (entry : PluginEntry) : PluginEntry :=
  let entry := if name ∈ o.enabled then switched true entry else entry
  let entry := if name ∈ o.disabled then switched false entry else entry
  if name ∈ o.precise then o.withPrecision entry else entry

theorem plugins_adjust (o : Options) (c : Config) :
    (o.adjust c).plugins = adjustAll o.precise o.withPrecision
      (adjustAll o.disabled (switched false) (adjustAll o.enabled (switched true) c.plugins)) := by
  rw [adjust, precise]
  have hwith : o.withPrecision = fun entry => o.withPrecision entry := rfl
  simp only [withPrecision] at hwith
  rw [hwith]
  cases o.precision <;> rfl

theorem name_withPrecision (o : Options) (entry : PluginEntry) :
    (o.withPrecision entry).name = entry.name := by
  rw [withPrecision]
  cases o.precision <;> rfl

theorem withPrecision_withPrecision (o : Options) (entry : PluginEntry) :
    o.withPrecision (o.withPrecision entry) = o.withPrecision entry := by
  simp only [withPrecision]
  cases o.precision with
  | none => rfl
  | some precision => simp only [setPrecision, Params.set, Toml.Table.insert_insert]

theorem concerns_eq_true_iff : o.concerns name = true ↔
    name ∈ o.enabled ∨ name ∈ o.disabled ∨ name ∈ o.precise := by
  cases h : o.precision <;> simp [concerns, precise, h, or_assoc]

/-- The switches change the first entry of each name that they name. -/
theorem filter_adjust (o : Options) (c : Config) (name : String) :
    (o.adjust c).plugins.filter (·.name = name) =
      if o.concerns name then adjustHead name (o.applied name) (c.plugins.filter (·.name = name))
      else c.plugins.filter (·.name = name) := by
  rw [plugins_adjust, filter_adjustAll (name_withPrecision o) (withPrecision_withPrecision o),
    filter_adjustAll (name_switched false) (switched_switched false),
    filter_adjustAll (name_switched true) (switched_switched true)]
  simp only [concerns_eq_true_iff]
  have happlied : o.applied name = fun entry => o.applied name entry := rfl
  simp only [applied] at happlied
  rw [happlied]
  split_ifs <;> simp_all [adjustHead_adjustHead, Function.comp_def]

theorem enabled_applied (o : Options) (name : String) (entry : PluginEntry) :
    (o.applied name entry).enabled =
      if name ∈ o.disabled then false else if name ∈ o.enabled then true else entry.enabled := by
  have hwith : ∀ entry, (o.withPrecision entry).enabled = entry.enabled := fun entry => by
    rw [withPrecision]
    cases o.precision <;> rfl
  simp only [applied]
  split_ifs <;> simp [hwith, switched]

theorem get?_precision_applied {precision : Nat} (h : o.precision = some precision)
    (entry : PluginEntry) :
    (o.applied "convertPathData" entry).params.get? "precision" = some (.integer precision) := by
  have hprecise : "convertPathData" ∈ o.precise := by simp [precise, h]
  simp only [applied, if_pos hprecise, withPrecision, h]
  exact Toml.Table.get?_insert _ _ _

/-! ## What counts -/

/-- The switches leave what counts for all other names alone. -/
theorem effective_adjust_of_other (o : Options) (c : Config) :
    (o.adjust c).effective.filter (fun entry => !o.concerns entry.name) =
      c.effective.filter (fun entry => !o.concerns entry.name) := by
  refine effective_filter_congr (p := fun name => !o.concerns name) rfl ?_
  have hother : ∀ name, name ∈ o.enabled ∨ name ∈ o.disabled ∨ name ∈ o.precise →
      (!o.concerns name) = false := fun name h => by simp [concerns_eq_true_iff.2 h]
  rw [plugins_adjust,
    filter_adjustAll_of_other (name_withPrecision o) fun name h => hother name (.inr (.inr h)),
    filter_adjustAll_of_other (name_switched false) fun name h => hother name (.inr (.inl h)),
    filter_adjustAll_of_other (name_switched true) fun name h => hother name (.inl h)]

/-- Of a name that is listed at most once there is one entry then, and the switches have changed
it. -/
theorem exists_filter_adjust (hconcerns : o.concerns name = true)
    (honce : c.plugins.countP (·.name = name) ≤ 1) :
    ∃ old, (o.adjust c).plugins.filter (·.name = name) = [o.applied name old] := by
  rw [List.countP_eq_length_filter] at honce
  rw [filter_adjust, if_pos hconcerns]
  cases h : c.plugins.filter (·.name = name) with
  | nil => exact ⟨{ name }, rfl⟩
  | cons entry rest =>
    rw [h] at honce
    obtain rfl := List.eq_nil_of_length_eq_zero (Nat.le_zero.1 (Nat.le_of_succ_le_succ honce))
    exact ⟨entry, rfl⟩

/-- What counts for a name that is listed at most once is what the switches have changed. -/
theorem exists_applied (hconcerns : o.concerns name = true)
    (honce : c.plugins.countP (·.name = name) ≤ 1) (hm : entry ∈ (o.adjust c).effective)
    (hname : entry.name = name) : ∃ old, entry = o.applied name old := by
  obtain ⟨old, hold⟩ := exists_filter_adjust hconcerns honce
  refine ⟨old, ?_⟩
  cases hc : c.full with
  | true =>
    rw [effective_of_full (c := o.adjust c) hc] at hm
    have hm : entry ∈ (o.adjust c).plugins.filter (·.name = name) :=
      List.mem_filter.2 ⟨hm, decide_eq_true hname⟩
    rw [hold] at hm
    exact List.mem_singleton.1 hm
  | false =>
    rw [mem_effective_iff (c := o.adjust c) hc, hname, lastEntry, hold] at hm
    exact hm.2

/-- The first entry of a name that a switch names is changed, and there is one. -/
theorem exists_applied_mem (hconcerns : o.concerns name = true) :
    ∃ old, o.applied name old ∈ (o.adjust c).plugins ∧ (o.applied name old).name = name := by
  have hfilter := filter_adjust o c name
  rw [if_pos hconcerns] at hfilter
  obtain ⟨old, hold⟩ : ∃ old, o.applied name old ∈
      adjustHead name (o.applied name) (c.plugins.filter (·.name = name)) := by
    cases c.plugins.filter (·.name = name) with
    | nil => exact ⟨_, List.mem_cons_self⟩
    | cons entry rest => exact ⟨entry, List.mem_cons_self⟩
  rw [← hfilter, List.mem_filter, decide_eq_true_eq] at hold
  exact ⟨old, hold⟩

/-- A plugin that is switched on, and not off, has an enabled entry that counts. -/
theorem exists_enabled (henabled : name ∈ o.enabled) (hdisabled : name ∉ o.disabled)
    (h : c.full = true ∨ c.plugins.countP (·.name = name) ≤ 1) :
    ∃ entry ∈ (o.adjust c).effective, entry.name = name ∧ entry.enabled = true := by
  have hconcerns : o.concerns name = true := concerns_eq_true_iff.2 (.inl henabled)
  have happlied : ∀ old, (o.applied name old).enabled = true := fun old => by
    rw [enabled_applied, if_neg hdisabled, if_pos henabled]
  obtain ⟨old, hold, hname⟩ := exists_applied_mem (c := c) hconcerns
  cases hc : c.full with
  | true =>
    rw [effective_of_full (c := o.adjust c) hc]
    exact ⟨_, hold, hname, happlied old⟩
  | false =>
    have honce := h.resolve_left (by simp [hc])
    have hcounted : name ∈ countedNames (o.adjust c).plugins :=
      mem_countedNames_iff.2 (.inr (List.mem_map.2 ⟨_, hold, hname⟩))
    have hm : lastEntry (o.adjust c).plugins name ∈ (o.adjust c).effective := by
      rw [mem_effective_iff (c := o.adjust c) hc, name_lastEntry]
      exact ⟨hcounted, rfl⟩
    obtain ⟨last, hlast⟩ := exists_applied hconcerns honce hm (name_lastEntry _ _)
    exact ⟨_, hm, name_lastEntry _ _, hlast ▸ happlied last⟩

/-- Of a name that is listed several times the last entry counts, which no switch reaches. -/
theorem lastEntry_adjust (h : 2 ≤ c.plugins.countP (·.name = name)) :
    lastEntry (o.adjust c).plugins name = lastEntry c.plugins name := by
  rw [List.countP_eq_length_filter] at h
  rw [lastEntry, lastEntry, filter_adjust]
  split_ifs
  · cases hlisted : c.plugins.filter (·.name = name) with
    | nil => simp [hlisted] at h
    | cons first rest =>
      cases rest with
      | nil => simp [hlisted] at h
      | cons second rest => rw [adjustHead, List.getLast?_cons_cons, List.getLast?_cons_cons]
  · rfl

theorem mem_names_adjust (h : name ∈ c.plugins.map (·.name)) :
    name ∈ (o.adjust c).plugins.map (·.name) := by
  cases hconcerns : o.concerns name with
  | true =>
    obtain ⟨old, hold, hname⟩ := exists_applied_mem (c := c) hconcerns
    exact List.mem_map.2 ⟨_, hold, hname⟩
  | false =>
    have hfilter := filter_adjust o c name
    rw [if_neg (by simp [hconcerns])] at hfilter
    obtain ⟨entry, hentry, hname⟩ := List.mem_map.1 h
    have hm : entry ∈ (o.adjust c).plugins.filter (·.name = name) := by
      rw [hfilter]
      exact List.mem_filter.2 ⟨hentry, decide_eq_true hname⟩
    exact List.mem_map.2 ⟨entry, (List.mem_filter.1 hm).1, hname⟩

/-- The switches decide what counts for the plugins that they name, as long as a configuration lists
these at most once: no plugin that is switched off is enabled, one that is switched on, and not off,
is, and a precision is that of the plugin for path data. If the preset is adjusted, no switch
changes what counts for a plugin that is listed several times. All other plugins are left alone. -/
theorem effective_adjust (o : Options) (c : Config) :
    (∀ name ∈ o.disabled, c.plugins.countP (·.name = name) ≤ 1 →
      ∀ entry ∈ (o.adjust c).effective, entry.name = name → entry.enabled = false) ∧
    (∀ name ∈ o.enabled, name ∉ o.disabled →
      c.full = true ∨ c.plugins.countP (·.name = name) ≤ 1 →
      ∃ entry ∈ (o.adjust c).effective, entry.name = name ∧ entry.enabled = true) ∧
    (∀ precision, o.precision = some precision →
      c.plugins.countP (·.name = "convertPathData") ≤ 1 →
      ∀ entry ∈ (o.adjust c).effective, entry.name = "convertPathData" →
        entry.params.get? "precision" = some (.integer precision)) ∧
    (∀ name, c.full = false → 2 ≤ c.plugins.countP (·.name = name) →
      ∀ entry, entry.name = name → (entry ∈ (o.adjust c).effective ↔ entry ∈ c.effective)) ∧
    (o.adjust c).effective.filter (fun entry => !o.concerns entry.name) =
      c.effective.filter (fun entry => !o.concerns entry.name) := by
  refine ⟨fun name hdisabled honce entry hm hname => ?_,
    fun name henabled hdisabled h => exists_enabled henabled hdisabled h,
    fun precision hprecision honce entry hm hname => ?_, fun name hc h entry hname => ?_,
    effective_adjust_of_other o c⟩
  · have hconcerns : o.concerns name = true := concerns_eq_true_iff.2 (.inr (.inl hdisabled))
    obtain ⟨old, rfl⟩ := exists_applied hconcerns honce hm hname
    rw [enabled_applied, if_pos hdisabled]
  · have hconcerns : o.concerns "convertPathData" = true := by simp [concerns, hprecision]
    obtain ⟨old, rfl⟩ := exists_applied hconcerns honce hm hname
    exact get?_precision_applied hprecision old
  · have hlisted : name ∈ c.plugins.map (·.name) := by
      obtain ⟨listed, hm, hlisted⟩ := List.countP_pos_iff.1 (Nat.lt_of_lt_of_le Nat.two_pos h)
      exact List.mem_map.2 ⟨listed, hm, of_decide_eq_true hlisted⟩
    have hcounted : name ∈ countedNames c.plugins := mem_countedNames_iff.2 (.inr hlisted)
    have hcounted' : name ∈ countedNames (o.adjust c).plugins :=
      mem_countedNames_iff.2 (.inr (mem_names_adjust hlisted))
    rw [mem_effective_iff hc, mem_effective_iff (c := o.adjust c) hc, hname, lastEntry_adjust h]
    exact and_congr_left fun _ => iff_of_true hcounted' hcounted

/-- A plugin of the preset that is listed twice stays enabled when it is switched off. -/
theorem effective_adjust_of_repeated :
    let o : Options := { disabled := ["removeComments"], config := some "c.toml" }
    let c : Config := { plugins := [{ name := "removeComments" }, { name := "removeComments" }] }
    "removeComments" ∈ o.disabled ∧
      ∃ entry ∈ (o.adjust c).effective, entry.name = "removeComments" ∧ entry.enabled = true := by
  refine ⟨List.mem_singleton_self _, { name := "removeComments" }, ?_, rfl, rfl⟩
  exact List.mem_of_getElem? (i := 2) rfl

end Options

end CommandLine

end SvgPress
