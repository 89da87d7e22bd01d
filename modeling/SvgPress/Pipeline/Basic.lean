import SvgPress.Plugin.Basic

/-!
# Pipelines

A pipeline is the list of the enabled plugins of a configuration, prepared and in order. Neighbours
that visit nodes in the same order form a group, which shares one walk over the tree; a plugin that
rewrites whole documents is a group of its own.
-/

namespace SvgPress

/-- A plugin with its configuration. -/
structure Descriptor where
  /-- The name that the configuration uses. -/
  name : String
  /-- Whether the plugin runs. -/
  enabled : Bool
  /-- Its parameters. -/
  params : Params
  /-- The plugin itself. -/
  plugin : Plugin

/-- The enabled plugin without parameters. -/
def Descriptor.ofPlugin (plugin : Plugin) : Descriptor :=
  ⟨plugin.name, true, .empty, plugin⟩

/-- A prepared plugin of a pipeline. -/
structure Stage where
  /-- The name that the configuration uses. -/
  name : String
  /-- How the plugin is driven. -/
  traversal : Traversal
  /-- What it does. -/
  rewriter : Rewriter

/-- Let a plugin check its parameters. A refused parameter is reported with the plugin's name. -/
def Descriptor.prepare (d : Descriptor) : Except Error Stage :=
  match d.plugin.prepare d.params with
  | .ok rewriter => .ok ⟨d.name, rewriter.traversal.getD d.plugin.traversal, rewriter⟩
  | .error (.config cause) => .error (.config (.parameters d.name cause))
  | .error other => .error other

/-- The error of a plugin that fails. -/
def Stage.failure (s : Stage) (e : PluginError) : Error :=
  .plugin s.name e.message

/-- Neighbouring stages that share a walk. -/
structure Group where
  /-- How all of them are driven. -/
  traversal : Traversal
  /-- The stages, in order. -/
  stages : List Stage

/-- Cut a list of stages into groups. -/
def Group.ofStages : List Stage → List Group
  | [] => []
  | stage :: rest =>
    match ofStages rest with
    | [] => [⟨stage.traversal, [stage]⟩]
    | group :: groups =>
      if stage.traversal = group.traversal && stage.traversal != .full then
        ⟨group.traversal, stage :: group.stages⟩ :: groups
      else ⟨stage.traversal, [stage]⟩ :: group :: groups

/-- The prepared plugins of a configuration. -/
structure Pipeline where
  /-- The groups, in order. -/
  groups : List Group

namespace Pipeline

/-- Prepare the enabled plugins of a list. The first one that refuses its parameters decides. -/
def ofDescriptors (descriptors : List Descriptor) : Except Error Pipeline := do
  let stages ← (descriptors.filter (·.enabled)).mapM Descriptor.prepare
  return ⟨Group.ofStages stages⟩

/-- The stages, in order. -/
def stages (p : Pipeline) : List Stage :=
  p.groups.flatMap (·.stages)

/-- The names of the plugins, in order. -/
def names (p : Pipeline) : List String :=
  p.stages.map (·.name)

/-- The number of plugins. -/
def length (p : Pipeline) : Nat :=
  p.stages.length

/-- Whether there are no plugins. -/
def isEmpty (p : Pipeline) : Bool :=
  p.groups.isEmpty

end Pipeline

end SvgPress
