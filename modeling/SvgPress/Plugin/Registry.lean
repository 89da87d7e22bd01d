import SvgPress.Plugin.Basic

/-!
# Registries

A registry holds the plugins that configurations may name, one for each name, in the order in which
their names were first registered.
-/

namespace SvgPress

/-- The plugins that configurations may name. -/
structure Registry where
  /-- The plugins, in order. -/
  plugins : List Plugin

namespace Registry

/-- The registry without plugins. -/
def empty : Registry := ⟨[]⟩

/-- Put a plugin in the place of the one of its name, or last. -/
def replace (plugin : Plugin) : List Plugin → List Plugin
  | [] => [plugin]
  | other :: rest =>
    if other.name = plugin.name then plugin :: rest else other :: replace plugin rest

/-- Add a plugin; it replaces one of the same name. -/
def register (r : Registry) (plugin : Plugin) : Registry :=
  ⟨replace plugin r.plugins⟩

/-- The registry of a list of plugins. -/
def ofList (plugins : List Plugin) : Registry :=
  plugins.foldl register empty

/-- The plugin of a name. -/
def get (r : Registry) (name : String) : Except ConfigError Plugin :=
  match r.plugins.find? (·.name == name) with
  | some plugin => .ok plugin
  | none => .error (.unknownPlugin name)

/-- The names of the plugins, in order. -/
def names (r : Registry) : List String :=
  r.plugins.map (·.name)

end Registry

end SvgPress
