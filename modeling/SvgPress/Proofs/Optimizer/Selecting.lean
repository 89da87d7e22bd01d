import Mathlib.Data.List.Induction
import SvgPress.Proofs.Optimizer.Configured
import SvgPress.Proofs.Walk.Grouping

/-!
# Which plugins a configuration selects

A configuration decides which entries count, in which order, and what each of them says. An engine
can be built from it if the registry knows all of these entries and the plugins of the enabled ones
take their parameters; its groups then hold these plugins in the order of the entries.
-/

namespace SvgPress

open Outcome

/-! ## Entries that count -/

namespace Config

variable {c : Config} {entry : PluginEntry} {listed : List PluginEntry} {name : String}

/-- The last entry of a name in a list; without one, the enabled entry that has no parameters. -/
def lastEntry (listed : List PluginEntry) (name : String) : PluginEntry :=
  (listed.filter (·.name = name)).getLast?.getD { name }

/-- The names of the preset and, after them, all other names of a list as they are first
mentioned. -/
def countedNames (listed : List PluginEntry) : List String :=
  presetNames ++ ((listed.map (·.name)).filter (· ∉ presetNames)).eraseDups

theorem name_lastEntry (listed : List PluginEntry) (name : String) :
    (lastEntry listed name).name = name := by
  rw [lastEntry]
  cases h : (listed.filter (·.name = name)).getLast? with
  | none => rfl
  | some entry => simpa using (List.mem_filter.1 (List.mem_of_getLast? h)).2

theorem lastEntry_concat (listed : List PluginEntry) (entry : PluginEntry) :
    lastEntry (listed ++ [entry]) = Function.update (lastEntry listed) entry.name entry := by
  funext name
  rw [lastEntry, List.filter_append, List.filter_singleton, Function.update_apply]
  by_cases hname : name = entry.name
  · simp [hname]
  · simp [hname, Ne.symm hname, lastEntry]

theorem eraseDups_concat (names : List String) (name : String) :
    (names ++ [name]).eraseDups =
      if name ∈ names then names.eraseDups else names.eraseDups ++ [name] := by
  rw [List.eraseDups_append, List.removeAll, List.filter_singleton]
  by_cases h : name ∈ names <;> simp [h, List.eraseDups_cons]

theorem mem_countedNames_iff :
    name ∈ countedNames listed ↔ name ∈ presetNames ∨ name ∈ listed.map (·.name) := by
  rw [countedNames, List.mem_append, List.mem_eraseDups, List.mem_filter, decide_eq_true_eq]
  tauto

theorem countedNames_concat (listed : List PluginEntry) (entry : PluginEntry) :
    countedNames (listed ++ [entry]) =
      if entry.name ∈ countedNames listed then countedNames listed
      else countedNames listed ++ [entry.name] := by
  simp only [mem_countedNames_iff]
  rw [countedNames, List.map_append, List.filter_append, List.map_singleton, List.filter_singleton]
  by_cases hpreset : entry.name ∈ presetNames
  · simp [hpreset, countedNames]
  · simp only [hpreset, not_false_eq_true, decide_true, cond_true, eraseDups_concat,
      List.mem_filter, and_true, false_or, countedNames]
    split_ifs
    · rfl
    · rw [List.append_assoc]

theorem filter_eraseDups (p : String → Bool) (names : List String) :
    names.eraseDups.filter p = (names.filter p).eraseDups := by
  induction names using List.reverseRecOn with
  | nil => rfl
  | append_singleton names name ih =>
    rw [eraseDups_concat, List.filter_append, List.filter_singleton]
    cases hp : p name with
    | false => split_ifs <;> simp [List.filter_append, ih, hp]
    | true =>
      simp only [cond_true, eraseDups_concat, List.mem_filter, hp, and_true, ← ih]
      split_ifs <;> simp [List.filter_append, hp]

/-- Which of some names count, and in which order, depends on the entries of these names. -/
theorem filter_countedNames (p : String → Bool) (listed : List PluginEntry) :
    (countedNames listed).filter p = presetNames.filter p ++
      (((listed.filter (p ·.name)).map (·.name)).filter (· ∉ presetNames)).eraseDups := by
  rw [countedNames, List.filter_append, filter_eraseDups, List.filter_filter, List.filter_map,
    List.filter_map, List.filter_filter]
  simp only [Bool.and_comm, Function.comp_def]

theorem nodup_countedNames (listed : List PluginEntry) : (countedNames listed).Nodup := by
  induction listed using List.reverseRecOn with
  | nil => decide
  | append_singleton listed entry ih =>
    rw [countedNames_concat]
    split_ifs with hm
    · exact ih
    · exact List.nodup_append.2 ⟨ih, List.nodup_singleton _,
        fun a ha b hb => by rw [List.mem_singleton.1 hb]; exact fun h => hm (h ▸ ha)⟩

/-- Entries that are known by their names: overriding one of them changes what its name stands for,
and a new name goes last. -/
theorem override_map {names : List String} {f : String → PluginEntry} (entry : PluginEntry)
    (hf : ∀ name, (f name).name = name) (hn : names.Nodup) :
    override entry (names.map f) =
      (if entry.name ∈ names then names else names ++ [entry.name]).map
        (Function.update f entry.name entry) := by
  induction names with
  | nil => simp [override]
  | cons name rest ih =>
    obtain ⟨hname, hrest⟩ := List.nodup_cons.1 hn
    rw [List.map_cons, override, hf]
    by_cases heq : name = entry.name
    · subst heq
      have hsame : rest.map (Function.update f entry.name entry) = rest.map f :=
        List.map_congr_left fun x hx => Function.update_of_ne (ne_of_mem_of_not_mem hx hname) _ _
      rw [if_pos rfl, if_pos List.mem_cons_self, List.map_cons, hsame, Function.update_self]
    · have hhead : Function.update f entry.name entry name = f name :=
        Function.update_of_ne heq _ _
      have hmem : entry.name ∈ name :: rest ↔ entry.name ∈ rest := by
        simp [Ne.symm heq]
      simp only [if_neg heq, ih hrest, hmem]
      split_ifs <;> rw [← hhead] <;> rfl

/-- Unless all plugins are listed, the names that count are those of the preset and all others as
they are first mentioned, and the last listed entry of a name decides what it stands for. -/
theorem effective_eq (hfull : c.full = false) :
    c.effective = (countedNames c.plugins).map (lastEntry c.plugins) := by
  rw [effective, if_neg (by simp [hfull])]
  induction c.plugins using List.reverseRecOn with
  | nil => rfl
  | append_singleton listed entry ih =>
    rw [List.foldl_append, List.foldl_cons, List.foldl_nil, ih,
      override_map entry (name_lastEntry listed) (nodup_countedNames listed),
      ← countedNames_concat, ← lastEntry_concat]

example : ((Config.effective { plugins := [{ name := "removeAttrs" },
      { name := "sortAttrs", enabled := false }, { name := "addAttributesToSVGElement" },
      { name := "removeAttrs", enabled := false }] }).drop 12).map (fun e => (e.name, e.enabled)) =
    [("removeUnusedNS", true), ("sortAttrs", false), ("removeAttrs", false),
      ("addAttributesToSVGElement", true)] := by
  decide

theorem effective_of_full (hfull : c.full = true) : c.effective = c.plugins := by
  rw [effective, if_pos hfull]

theorem mem_effective_iff (hfull : c.full = false) :
    entry ∈ c.effective ↔
      entry.name ∈ countedNames c.plugins ∧ entry = lastEntry c.plugins entry.name := by
  rw [effective_eq hfull, List.mem_map]
  constructor
  · rintro ⟨name, hname, rfl⟩
    rw [name_lastEntry]
    exact ⟨hname, rfl⟩
  · rintro ⟨hname, hentry⟩
    exact ⟨_, hname, hentry.symm⟩

/-- What counts for some names depends on the entries of these names. -/
theorem effective_filter_congr {c' : Config} {p : String → Bool} (hfull : c'.full = c.full)
    (h : c'.plugins.filter (p ·.name) = c.plugins.filter (p ·.name)) :
    c'.effective.filter (p ·.name) = c.effective.filter (p ·.name) := by
  cases hc : c.full with
  | true => rw [effective_of_full hc, effective_of_full (hfull.trans hc), h]
  | false =>
    rw [effective_eq hc, effective_eq (hfull.trans hc), List.filter_map, List.filter_map]
    simp only [Function.comp_def, name_lastEntry]
    rw [filter_countedNames, filter_countedNames, h]
    refine List.map_congr_left fun name hname => ?_
    have hp : p name = true := by
      rw [← h, ← filter_countedNames] at hname
      exact (List.mem_filter.1 hname).2
    have hentries : ∀ listed : List PluginEntry, listed.filter (·.name = name) =
        (listed.filter (p ·.name)).filter (·.name = name) := fun listed => by
      rw [List.filter_filter]
      refine List.filter_congr fun entry _ => ?_
      by_cases hentry : entry.name = name <;> simp [hentry, hp]
    rw [lastEntry, lastEntry, hentries, hentries c.plugins, h]

end Config

/-! ## Plugins that take their parameters -/

variable {c : Config} {r : Registry} {entry : PluginEntry} {e : Error} {x : Descriptor}
  {descriptors : List Descriptor} {stage : Stage} {stages : List Stage} {engine : Engine}

namespace Registry

/-- The registry has a plugin of the name of an entry. -/
def Knows (r : Registry) (entry : PluginEntry) : Prop :=
  ∃ plugin, r.get entry.name = .ok plugin

/-- The plugin of an entry takes the parameters of the entry; this is the stage that it makes. -/
def Prepares (r : Registry) (entry : PluginEntry) (stage : Stage) : Prop :=
  ∃ plugin rewriter, r.get entry.name = .ok plugin ∧
    plugin.prepare entry.params = .ok rewriter ∧
    stage = ⟨entry.name, rewriter.traversal.getD plugin.traversal, rewriter⟩

/-- What is reported where a plugin gives an error for its parameters: its name with the reason, or
the error as it is. -/
def refusal (name : String) : Error → Error
  | .config cause => .config (.parameters name cause)
  | other => other

/-- The plugin of an entry does not take the parameters of the entry; this is reported. -/
def Refuses (r : Registry) (entry : PluginEntry) (e : Error) : Prop :=
  ∃ plugin cause, r.get entry.name = .ok plugin ∧ plugin.prepare entry.params = .error cause ∧
    e = refusal entry.name cause

/-- A registry knows the entries that have one of its names. -/
theorem knows_iff : r.Knows entry ↔ entry.name ∈ r.names :=
  exists_get_iff

end Registry

theorem Descriptor.prepare_eq_error_iff :
    x.prepare = .error e ↔ ∃ cause, x.plugin.prepare x.params = .error cause ∧
      e = Registry.refusal x.name cause := by
  rw [prepare]
  cases x.plugin.prepare x.params with
  | ok rewriter => simp
  | error cause => cases cause <;> simp [Registry.refusal, eq_comm]

namespace Config

/-- The descriptor is that of an entry. -/
def Describes (r : Registry) (entry : PluginEntry) (x : Descriptor) : Prop :=
  ∃ plugin, r.get entry.name = .ok plugin ∧ x = ⟨entry.name, entry.enabled, entry.params, plugin⟩

theorem describes_iff : resolveEntry r entry = .ok x ↔ Describes r entry x := by
  rw [resolveEntry_eq_ok_iff]
  refine exists_congr fun plugin => and_congr_right fun hplugin => ?_
  rw [(Registry.of_get hplugin).2]

theorem exists_describes_iff : (∃ x, Describes r entry x) ↔ r.Knows entry := by
  constructor
  · rintro ⟨x, plugin, hplugin, -⟩
    exact ⟨plugin, hplugin⟩
  · rintro ⟨plugin, hplugin⟩
    exact ⟨_, plugin, hplugin, rfl⟩

theorem Describes.prepares_iff (h : Describes r entry x) :
    x.prepare = .ok stage ↔ r.Prepares entry stage := by
  obtain ⟨plugin, hplugin, rfl⟩ := h
  rw [Descriptor.prepare_eq_ok_iff, Registry.Prepares]
  simp [hplugin]

theorem Describes.refuses_iff (h : Describes r entry x) :
    x.prepare = .error e ↔ r.Refuses entry e := by
  obtain ⟨plugin, hplugin, rfl⟩ := h
  rw [Descriptor.prepare_eq_error_iff, Registry.Refuses]
  simp [hplugin]

theorem resolve_eq_ok_iff :
    c.resolve r = .ok descriptors ↔ List.Forall₂ (Describes r) c.effective descriptors := by
  rw [resolve, mapM_eq_ok_iff]
  simp only [describes_iff]

theorem resolve_eq_error_iff {cause : ConfigError} :
    c.resolve r = .error cause ↔ FirstFault r.Knows
      (fun entry => ¬ r.Knows entry ∧ cause = .unknownPlugin entry.name) c.effective := by
  rw [resolve, mapM_eq_error_iff]
  have hfaulty : ∀ entry, resolveEntry r entry = .error cause ↔
      ¬ r.Knows entry ∧ cause = .unknownPlugin entry.name := fun entry => by
    rw [Registry.knows_iff, ← Registry.get_eq_error_iff, resolveEntry]
    cases r.get entry.name <;> simp [bind, Except.bind, pure, Except.pure]
  simp only [hfaulty, describes_iff, exists_describes_iff]

/-- The enabled entries describe what is prepared. -/
theorem describes_filter (h : List.Forall₂ (Describes r) c.effective descriptors) :
    List.Forall₂ (Describes r) (c.effective.filter (·.enabled))
      (descriptors.filter (·.enabled)) :=
  List.rel_filter (fun entry x ⟨_, _, hx⟩ => by rw [hx]) h

end Config

/-! ## Groups -/

/-- Groups hold the stages of a list, in order. All stages of a group are driven in one way, one
that rewrites whole documents is alone, and neighbours that visit nodes are driven differently. -/
structure Group.Cuts (stages : List Stage) (groups : List Group) : Prop where
  stages_eq : groups.flatMap (·.stages) = stages
  cutFrom : ∀ group ∈ groups, group.CutFrom stages
  apart : groups.IsChain fun a b => a.traversal = b.traversal → a.traversal = .full

theorem Group.apart_ofStages (stages : List Stage) :
    (ofStages stages).IsChain fun a b => a.traversal = b.traversal → a.traversal = .full := by
  induction stages with
  | nil => exact .nil
  | cons stage rest ih =>
    rw [ofStages]
    cases hrest : ofStages rest with
    | nil => exact .singleton _
    | cons group groups =>
      rw [hrest] at ih
      simp only
      split_ifs with hmerged
      · -- The group in front keeps its traversal.
        cases ih with
        | singleton => exact .singleton _
        | cons_cons hfirst hlater => exact .cons_cons hfirst hlater
      · refine .cons_cons (fun hsame => ?_) ih
        by_contra hfull
        exact hmerged (by simp [← hsame, hfull])

theorem Group.cuts_ofStages (stages : List Stage) : Cuts stages (ofStages stages) where
  stages_eq := stages_ofStages stages
  cutFrom _ := cutFrom_of_mem_ofStages
  apart := apart_ofStages stages

/-! ## Engines -/

theorem Pipeline.ofDescriptors_eq_error_iff :
    ofDescriptors descriptors = .error e ↔
      (descriptors.filter (·.enabled)).mapM Descriptor.prepare = .error e := by
  rw [ofDescriptors]
  cases (descriptors.filter (·.enabled)).mapM Descriptor.prepare <;>
    simp [bind, Except.bind, pure, Except.pure]

namespace Engine

/-- An engine has the stages of the enabled entries if all entries that count are known. -/
theorem ofConfig_eq_ok_iff_prepares :
    ofConfig c r = .ok engine ↔ (∀ entry ∈ c.effective, r.Knows entry) ∧
      ∃ stages, List.Forall₂ r.Prepares (c.effective.filter (·.enabled)) stages ∧
        engine = ⟨⟨Group.ofStages stages⟩, c.style, passBudget c.multipass⟩ := by
  have hknown : (∀ entry ∈ c.effective, r.Knows entry) ↔
      ∃ descriptors, List.Forall₂ (Config.Describes r) c.effective descriptors := by
    simp only [exists_forall₂_iff, Config.exists_describes_iff]
  have hstages : ∀ {descriptors}, List.Forall₂ (Config.Describes r) c.effective descriptors →
      ∀ stages, (descriptors.filter (·.enabled)).mapM Descriptor.prepare = .ok stages ↔
        List.Forall₂ r.Prepares (c.effective.filter (·.enabled)) stages := fun h stages =>
    mapM_eq_ok_iff.trans
      (forall₂_congr_left (Config.describes_filter h) fun _ _ _ hx => hx.prepares_iff)
  rw [ofConfig_eq_ok_iff, hknown]
  simp only [Config.resolve_eq_ok_iff, Pipeline.ofDescriptors_eq_ok_iff]
  constructor
  · rintro ⟨descriptors, _, h, ⟨stages, hprepared, rfl⟩, rfl⟩
    exact ⟨⟨descriptors, h⟩, stages, (hstages h stages).1 hprepared, rfl⟩
  · rintro ⟨⟨descriptors, h⟩, stages, hprepared, rfl⟩
    exact ⟨descriptors, _, h, ⟨stages, (hstages h stages).2 hprepared, rfl⟩, rfl⟩

/-- Engines can be built if all entries that count are known, and the plugins of the enabled ones
take their parameters. -/
theorem exists_ofConfig_iff :
    (∃ engine, ofConfig c r = .ok engine) ↔ ∀ entry ∈ c.effective,
      r.Knows entry ∧ (entry.enabled = true → ∃ stage, r.Prepares entry stage) := by
  have hprepared : (∃ stages, List.Forall₂ r.Prepares (c.effective.filter (·.enabled)) stages) ↔
      ∀ entry ∈ c.effective, entry.enabled = true → ∃ stage, r.Prepares entry stage := by
    simp only [exists_forall₂_iff, List.mem_filter, and_imp]
  simp only [ofConfig_eq_ok_iff_prepares, imp_and, forall_and, ← hprepared]
  constructor
  · rintro ⟨engine, hknown, stages, hstages, -⟩
    exact ⟨hknown, stages, hstages⟩
  · rintro ⟨hknown, stages, hstages⟩
    exact ⟨_, hknown, stages, hstages, rfl⟩

/-- The first of the enabled entries whose plugin does not take its parameters is reported. -/
theorem ofDescriptors_eq_error_iff
    (h : List.Forall₂ (Config.Describes r) c.effective descriptors) :
    Pipeline.ofDescriptors descriptors = .error e ↔
      FirstFault (fun entry => ∃ stage, r.Prepares entry stage) (r.Refuses · e)
        (c.effective.filter (·.enabled)) := by
  rw [Pipeline.ofDescriptors_eq_error_iff, mapM_eq_error_iff]
  exact (firstFault_congr (Config.describes_filter h)
    (fun _ x hx => exists_congr fun stage =>
      (hx.prepares_iff.symm : _ ↔ x.prepare = .ok stage))
    fun _ _ hx => hx.refuses_iff.symm).symm

/-- The first unknown name is reported; if there is none, the first refusal of parameters. -/
theorem ofConfig_eq_error_iff :
    ofConfig c r = .error e ↔
      FirstFault r.Knows
        (fun entry => ¬ r.Knows entry ∧ e = .config (.unknownPlugin entry.name)) c.effective ∨
      (∀ entry ∈ c.effective, r.Knows entry) ∧
        FirstFault (fun entry => ∃ stage, r.Prepares entry stage) (r.Refuses · e)
          (c.effective.filter (·.enabled)) := by
  cases hresolve : c.resolve r with
  | error cause =>
    have hfirst := Config.resolve_eq_error_iff.1 hresolve
    obtain ⟨unknown, hm, hunknown, -⟩ := hfirst.exists_mem
    have hofConfig : ofConfig c r = .error (.config cause) := by rw [ofConfig, hresolve]; rfl
    rw [hofConfig, Except.error.injEq]
    constructor
    · rintro rfl
      exact .inl (hfirst.imp fun _ => And.imp_right (congrArg Error.config))
    · rintro (hother | ⟨hknown, -⟩)
      · obtain ⟨other, -, -, rfl⟩ := hother.exists_mem
        have hother :=
          Config.resolve_eq_error_iff.2 (hother.imp fun _ => And.imp_right Error.config.inj)
        rw [hresolve] at hother
        exact congrArg Error.config (Except.error.inj hother)
      · exact absurd (hknown unknown hm) hunknown
  | ok descriptors =>
    have h := Config.resolve_eq_ok_iff.1 hresolve
    have hknown : ∀ entry ∈ c.effective, r.Knows entry := by
      simp only [← Config.exists_describes_iff, ← exists_forall₂_iff]
      exact ⟨descriptors, h⟩
    have hofConfig : ofConfig c r = .error e ↔ Pipeline.ofDescriptors descriptors = .error e := by
      rw [ofConfig, hresolve]
      cases hp : Pipeline.ofDescriptors descriptors <;>
        simp [Except.mapError, bind, Except.bind, pure, Except.pure, hp]
    rw [hofConfig, ofDescriptors_eq_error_iff h]
    refine ⟨fun hrefuses => .inr ⟨hknown, hrefuses⟩, ?_⟩
    rintro (hunknown | ⟨-, hrefuses⟩)
    · obtain ⟨entry, hm, hentry, -⟩ := hunknown.exists_mem
      exact absurd (hknown entry hm) hentry
    · exact hrefuses

theorem names_of_prepares {entries : List PluginEntry}
    (h : List.Forall₂ r.Prepares entries stages) :
    stages.map (·.name) = entries.map (·.name) := by
  induction h with
  | nil => rfl
  | cons hstage _ ih =>
    obtain ⟨plugin, rewriter, -, -, rfl⟩ := hstage
    rw [List.map_cons, List.map_cons, ih]

/-- Engines follow their configuration. One is built if the registry knows all entries that count
and the plugins of the enabled ones take their parameters; otherwise the first unknown name is
reported, or the first refusal of parameters if all names are known. The stages of an engine are the
enabled entries, in order, cut into groups. The entries that count are the listed ones where these
are all; elsewhere they are the last listed entry for each name of the preset, and then for each
other name in the order of first mention. -/
theorem ofConfig_follows_entries (c : Config) (r : Registry) :
    ((∃ engine, ofConfig c r = .ok engine) ↔ ∀ entry ∈ c.effective,
      r.Knows entry ∧ (entry.enabled = true → ∃ stage, r.Prepares entry stage)) ∧
    (∀ e, ofConfig c r = .error e ↔
      FirstFault r.Knows
        (fun entry => ¬ r.Knows entry ∧ e = .config (.unknownPlugin entry.name)) c.effective ∨
      (∀ entry ∈ c.effective, r.Knows entry) ∧
        FirstFault (fun entry => ∃ stage, r.Prepares entry stage) (r.Refuses · e)
          (c.effective.filter (·.enabled))) ∧
    (∀ engine, ofConfig c r = .ok engine →
      engine.pipeline.names = (c.effective.filter (·.enabled)).map (·.name) ∧
      List.Forall₂ r.Prepares (c.effective.filter (·.enabled)) engine.pipeline.stages ∧
      Group.Cuts engine.pipeline.stages engine.pipeline.groups) ∧
    (c.full = true → c.effective = c.plugins) ∧
    (c.full = false → (Config.countedNames c.plugins).Nodup ∧
      c.effective = (Config.countedNames c.plugins).map (Config.lastEntry c.plugins)) := by
  refine ⟨exists_ofConfig_iff, fun e => ofConfig_eq_error_iff, fun engine h => ?_,
    Config.effective_of_full,
    fun hfull => ⟨Config.nodup_countedNames c.plugins, Config.effective_eq hfull⟩⟩
  obtain ⟨-, stages, hstages, rfl⟩ := ofConfig_eq_ok_iff_prepares.1 h
  have heq : Pipeline.stages ⟨Group.ofStages stages⟩ = stages := Group.stages_ofStages stages
  simp only [Pipeline.names, heq]
  exact ⟨names_of_prepares hstages, hstages, Group.cuts_ofStages stages⟩

end Engine

end SvgPress
