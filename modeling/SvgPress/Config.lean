import SvgPress.Markup.Writer
import SvgPress.Pipeline.Basic
import SvgPress.Plugin.Registry
import SvgPress.Toml.Printer
import SvgPress.Toml.Settled

/-!
# Configurations

A configuration lists plugins with their parameters, says whether to repeat passes, and fixes the
style of the output. Unless it is a full list, its entries adjust the preset: an entry for a plugin
of the preset takes that plugin's place, and any other entry goes last.
-/

namespace SvgPress

/-- The entry of a plugin in a configuration. -/
structure PluginEntry where
  /-- The name of the plugin. -/
  name : String
  /-- Whether the plugin runs. -/
  enabled : Bool := true
  /-- Its parameters. -/
  params : Params := .empty

/-- A configuration. -/
structure Config where
  /-- Whether to repeat passes while they make the text shorter. -/
  multipass : Bool := false
  /-- Whether the entries are all plugins that run. -/
  full : Bool := false
  /-- The entries. -/
  plugins : List PluginEntry := []
  /-- The style of the output. -/
  style : Markup.Style := {}

/-- The names of the plugins that run by default, in order. -/
def presetNames : List String :=
  ["removeDoctype", "removeXMLProcInst", "removeComments", "removeMetadata",
    "removeEditorsNSData", "removeHiddenElems", "convertStyleAttr", "convertColors",
    "removeDefaultAttrs", "convertPathData", "removeEmptyContainers", "collapseGroups",
    "removeUnusedNS", "sortAttrs"]

namespace Config

/-! ## What runs -/

/-- The entries of the plugins that run by default. -/
def preset : List PluginEntry :=
  presetNames.map fun name => { name }

/-- Put an entry in the place of the first one of its name, or last. -/
def override (entry : PluginEntry) : List PluginEntry → List PluginEntry
  | [] => [entry]
  | other :: rest =>
    if other.name = entry.name then entry :: rest else other :: override entry rest

/-- The entries that count, in order. -/
def effective (c : Config) : List PluginEntry :=
  if c.full then c.plugins
  else c.plugins.foldl (fun entries entry => override entry entries) preset

/-- Find the plugin of an entry. -/
def resolveEntry (r : Registry) (entry : PluginEntry) : Except ConfigError Descriptor := do
  let plugin ← r.get entry.name
  return { Descriptor.ofPlugin plugin with enabled := entry.enabled, params := entry.params }

/-- Find the plugins of all entries that count. The first unknown name decides. -/
def resolve (c : Config) (r : Registry) : Except ConfigError (List Descriptor) :=
  c.effective.mapM (resolveEntry r)

/-! ## Reading -/

/-- The table that a value stands for. A time stands for a table with its text as the only entry. -/
def tableOf? : Toml.Value → Option Toml.Table
  | .table entries => some entries
  | .datetime t => some [(Toml.datetimeKey, .string t.show)]
  | _ => none

/-- The fields of a structured value: those of a table, or the items of an array by their place. -/
def fields? (names : List String) : Toml.Value → Option (List (String × Toml.Value))
  | .array items => some (names.zip items)
  | other => tableOf? other

/-- Whether a choice without content is made by a value: by its name, or by a table with the name as
its only key and nothing as its content. -/
def chosen? : Toml.Value → Option String
  | .string s => some s
  | .table [(name, .table [])] => some name
  | .table [(name, .array [])] => some name
  | _ => none

/-- The quotes that a value chooses. -/
def quoteOf (v : Toml.Value) : Option Markup.Quote :=
  match chosen? v with
  | some "double" => some .double
  | some "single" => some .single
  | _ => none

/-- Take in a field of the style; unknown fields do not count. -/
def setStyleField (style : Markup.Style) (field : String × Toml.Value) : Option Markup.Style :=
  match field.1 with
  | "pretty" => field.2.boolean?.map fun pretty => { style with pretty }
  | "indent" =>
    (field.2.integer?.filter (0 ≤ ·)).map fun n => { style with indent := n.toNat }
  | "quote" => (quoteOf field.2).map fun quote => { style with quote }
  | "self-close" => field.2.boolean?.map fun selfClose => { style with selfClose }
  | "final-newline" => field.2.boolean?.map fun finalNewline => { style with finalNewline }
  | _ => some style

/-- The style that a value describes. -/
def styleOf (v : Toml.Value) : Option Markup.Style := do
  let fields ← fields? ["pretty", "indent", "quote", "self-close", "final-newline"] v
  fields.foldlM setStyleField {}

/-- Take in a field of an entry. -/
def setEntryField (entry : PluginEntry) (field : String × Toml.Value) : Option PluginEntry :=
  match field.1 with
  | "name" => field.2.string?.map fun name => { entry with name }
  | "enabled" => field.2.boolean?.map fun enabled => { entry with enabled }
  | "params" =>
    ((tableOf? field.2).bind Toml.Table.settle).map fun table => { entry with params := ⟨table⟩ }
  | _ => none

/-- The entry that a value describes; it needs a name. -/
def entryOf (v : Toml.Value) : Option PluginEntry := do
  let fields ← fields? ["name", "enabled", "params"] v
  if fields.any (·.1 == "name") then fields.foldlM setEntryField { name := "" } else none

/-- The entries that a value describes. -/
def entriesOf : Toml.Value → Option (List PluginEntry)
  | .array items => items.mapM entryOf
  | _ => none

/-- Take in a field of a configuration. -/
def setField (c : Config) (field : String × Toml.Value) : Option Config :=
  match field.1 with
  | "multipass" => field.2.boolean?.map fun multipass => { c with multipass }
  | "full" => field.2.boolean?.map fun full => { c with full }
  | "plugins" => (entriesOf field.2).map fun plugins => { c with plugins }
  | "serialize" => (styleOf field.2).map fun style => { c with style }
  | _ => none

/-- The configuration that a table describes. -/
def ofTable (table : Toml.Table) : Except ConfigError Config :=
  match table.foldlM setField {} with
  | some c => .ok c
  | none => .error .malformed

/-- The configuration that a text describes. -/
def ofString (s : String) : Except ConfigError Config :=
  match Toml.parse s with
  | some table => ofTable table
  | none => .error .malformed

end Config

end SvgPress
