import SvgPress.Engine
import SvgPress.Proofs.Outcome

/-!
# What a configuration runs

An engine that is built from a configuration runs the enabled plugins that its entries name, each
prepared with the parameters of its entry, and cutting them into groups keeps their order.
-/

namespace SvgPress

open Outcome

/-! ## Registries -/

namespace Registry

variable {r : Registry} {p plugin : Plugin} {plugins registered : List Plugin} {name : String}

theorem mem_replace (h : p ∈ replace plugin registered) : p = plugin ∨ p ∈ registered := by
  induction registered with
  | nil => exact .inl (List.mem_singleton.1 h)
  | cons other rest ih =>
    rw [replace] at h
    split_ifs at h
    · rcases List.mem_cons.1 h with rfl | h
      · exact .inl rfl
      · exact .inr (List.mem_cons_of_mem _ h)
    · rcases List.mem_cons.1 h with rfl | h
      · exact .inr List.mem_cons_self
      · exact (ih h).imp_right (List.mem_cons_of_mem _)

theorem mem_foldl_register (h : p ∈ (plugins.foldl register r).plugins) :
    p ∈ plugins ∨ p ∈ r.plugins := by
  induction plugins generalizing r with
  | nil => exact .inr h
  | cons plugin rest ih =>
    rcases ih h with hp | hp
    · exact .inl (List.mem_cons_of_mem _ hp)
    · rcases mem_replace hp with rfl | hp
      · exact .inl List.mem_cons_self
      · exact .inr hp

/-- A registry holds no plugin that has not been registered. -/
theorem mem_of_mem_ofList (h : p ∈ (ofList plugins).plugins) : p ∈ plugins :=
  (mem_foldl_register h).resolve_right List.not_mem_nil

/-- What a registry finds for a name is one of its plugins, and has that name. -/
theorem of_get (h : r.get name = .ok plugin) : plugin ∈ r.plugins ∧ plugin.name = name := by
  rw [get] at h
  split at h
  · rename_i found hfind
    obtain rfl := Except.ok.inj h
    exact ⟨List.mem_of_find?_eq_some hfind, by simpa using List.find?_some hfind⟩
  · exact absurd h (by simp)

/-- A registry fails to find exactly the names that none of its plugins has. -/
theorem get_eq_error_iff {cause : ConfigError} :
    r.get name = .error cause ↔ name ∉ r.names ∧ cause = .unknownPlugin name := by
  have hnone : r.plugins.find? (·.name == name) = none ↔ name ∉ r.names := by
    simp [names]
  rw [get]
  cases hfind : r.plugins.find? (·.name == name) with
  | none => simp [← hnone, hfind, eq_comm]
  | some plugin => simp [← hnone, hfind]

/-- A registry finds a plugin for exactly the names of its plugins. -/
theorem exists_get_iff : (∃ plugin, r.get name = .ok plugin) ↔ name ∈ r.names := by
  constructor
  · rintro ⟨plugin, hget⟩
    obtain ⟨hmem, rfl⟩ := of_get hget
    exact List.mem_map_of_mem hmem
  · intro hname
    cases hget : r.get name with
    | ok plugin => exact ⟨plugin, rfl⟩
    | error cause => exact absurd hname (get_eq_error_iff.1 hget).1

theorem find?_replace : (replace plugin registered).find? (·.name == name) =
    if plugin.name = name then some plugin else registered.find? (·.name == name) := by
  induction registered with
  | nil => by_cases hname : plugin.name = name <;> simp [replace, hname]
  | cons other rest ih =>
    rw [replace]
    split_ifs with hother hname hname
    · simp [hname]
    · simp [hother, hname]
    · have hne : other.name ≠ name := fun h => hother (h.trans hname.symm)
      rw [List.find?_cons_of_neg (by simpa using hne), ih, if_pos hname]
    · rw [List.find?_cons, List.find?_cons, ih, if_neg hname]

/-- The plugin that is registered last under a name is the one that is found. -/
theorem get_register : (r.register plugin).get name =
    if plugin.name = name then .ok plugin else r.get name := by
  rw [get, register, find?_replace]
  split_ifs <;> rfl

end Registry

/-! ## Pipelines -/

theorem Descriptor.prepare_eq_ok_iff {x : Descriptor} {stage : Stage} :
    x.prepare = .ok stage ↔ ∃ rewriter, x.plugin.prepare x.params = .ok rewriter ∧
      stage = ⟨x.name, rewriter.traversal.getD x.plugin.traversal, rewriter⟩ := by
  rw [prepare]
  cases x.plugin.prepare x.params with
  | ok rewriter => simp [eq_comm]
  | error e => cases e <;> simp

/-- Cutting stages into groups keeps their order. -/
theorem Group.stages_ofStages (stages : List Stage) :
    (ofStages stages).flatMap (·.stages) = stages := by
  induction stages with
  | nil => rfl
  | cons stage rest ih =>
    rw [ofStages]
    cases hrest : ofStages rest with
    | nil =>
      rw [hrest] at ih
      rw [← ih]
      rfl
    | cons group groups =>
      rw [hrest, List.flatMap_cons] at ih
      simp only
      split_ifs
      · rw [List.flatMap_cons, List.cons_append, ih]
      · rw [List.flatMap_cons, List.flatMap_cons, ih]
        rfl

namespace Pipeline

variable {descriptors : List Descriptor} {p : Pipeline}

theorem ofDescriptors_eq_ok_iff :
    ofDescriptors descriptors = .ok p ↔ ∃ stages,
      (descriptors.filter (·.enabled)).mapM Descriptor.prepare = .ok stages ∧
        p = ⟨Group.ofStages stages⟩ := by
  rw [ofDescriptors, bind_eq_ok_iff]
  exact exists_congr fun stages => and_congr_right fun _ => pure_eq_ok_iff

/-- The stages of a pipeline are prepared from enabled plugins. -/
theorem exists_prepare_of_mem (h : ofDescriptors descriptors = .ok p) {group : Group}
    {stage : Stage} (hg : group ∈ p.groups) (hs : stage ∈ group.stages) :
    ∃ x ∈ descriptors, x.enabled = true ∧ x.prepare = .ok stage := by
  obtain ⟨stages, hstages, rfl⟩ := ofDescriptors_eq_ok_iff.1 h
  have hmem : stage ∈ stages := by
    rw [← Group.stages_ofStages stages]
    exact List.mem_flatMap.2 ⟨group, hg, hs⟩
  obtain ⟨x, hx, hprepare⟩ := exists_of_mem_mapM hstages hmem
  obtain ⟨hx, henabled⟩ := List.mem_filter.1 hx
  exact ⟨x, hx, henabled, hprepare⟩

end Pipeline

/-! ## Configurations -/

namespace Config

variable {c : Config} {r : Registry} {entry : PluginEntry} {x : Descriptor}
  {descriptors : List Descriptor}

theorem resolveEntry_eq_ok_iff :
    resolveEntry r entry = .ok x ↔ ∃ plugin, r.get entry.name = .ok plugin ∧
      x = ⟨plugin.name, entry.enabled, entry.params, plugin⟩ := by
  rw [resolveEntry, bind_eq_ok_iff]
  exact exists_congr fun plugin => and_congr_right fun _ => pure_eq_ok_iff

theorem names_override {entries : List PluginEntry}
    (h : entry.name ∈ entries.map (·.name)) :
    (override entry entries).map (·.name) = entries.map (·.name) := by
  induction entries with
  | nil => exact absurd h List.not_mem_nil
  | cons other rest ih =>
    rw [override]
    split_ifs with hname
    · rw [List.map_cons, List.map_cons, hname]
    · rw [List.map_cons, List.mem_cons] at h
      rw [List.map_cons, List.map_cons, ih (h.resolve_left (Ne.symm hname))]

/-- Entries for plugins of the preset leave its order. -/
theorem names_effective (hfull : c.full = false)
    (h : ∀ entry ∈ c.plugins, entry.name ∈ presetNames) :
    c.effective.map (·.name) = presetNames := by
  have hfold : ∀ (overrides entries : List PluginEntry), entries.map (·.name) = presetNames →
      (∀ entry ∈ overrides, entry.name ∈ presetNames) →
      (overrides.foldl (fun entries entry => override entry entries) entries).map (·.name) =
        presetNames := by
    intro overrides
    induction overrides with
    | nil => exact fun entries hentries _ => hentries
    | cons first rest ih =>
      intro entries hentries hmem
      obtain ⟨hfirst, hrest⟩ := List.forall_mem_cons.1 hmem
      refine ih _ ?_ hrest
      rw [names_override (hentries ▸ hfirst), hentries]
  rw [effective, if_neg (by simp [hfull])]
  exact hfold c.plugins preset rfl h

/-- A configuration runs plugins of the registry only. -/
theorem plugin_mem_of_resolve (h : c.resolve r = .ok descriptors) (hx : x ∈ descriptors) :
    x.plugin ∈ r.plugins := by
  obtain ⟨entry, -, hentry⟩ := exists_of_mem_mapM h hx
  obtain ⟨plugin, hget, rfl⟩ := resolveEntry_eq_ok_iff.1 hentry
  exact (Registry.of_get hget).1

end Config

theorem Engine.ofConfig_eq_ok_iff {c : Config} {r : Registry} {e : Engine} :
    Engine.ofConfig c r = .ok e ↔ ∃ descriptors p, c.resolve r = .ok descriptors ∧
      Pipeline.ofDescriptors descriptors = .ok p ∧ e = ⟨p, c.style, passBudget c.multipass⟩ := by
  rw [ofConfig, bind_eq_ok_iff]
  refine exists_congr fun descriptors => ?_
  rw [mapError_eq_ok_iff, bind_eq_ok_iff, exists_and_left]
  exact and_congr_right fun _ => exists_congr fun p => and_congr_right fun _ => pure_eq_ok_iff

end SvgPress
