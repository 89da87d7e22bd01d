import SvgPress.Builtin.Attributes
import SvgPress.Builtin.Defaults
import SvgPress.Builtin.Groups
import SvgPress.Builtin.Namespaces
import SvgPress.Builtin.Prolog
import SvgPress.Builtin.Removal
import SvgPress.Builtin.Values
import SvgPress.Plugin.Registry

/-!
# The plugins of the library

The list of all plugins that the library brings along, and the registry that holds them.
-/

namespace SvgPress.Builtin

/-- All plugins of the library. Those that run unless a configuration says otherwise come first, in
the order in which they run. -/
def plugins : List Plugin :=
  [removeDoctype, removeXmlDeclaration, removeComments, removeMetadata, removeEditorData,
    removeHiddenElements, convertStyles, convertColors, removeDefaults, convertPaths,
    removeEmptyContainers, collapseGroups, removeUnusedNamespaces, sortAttributes,
    removeAttributes, addAttributes]

/-- The registry of all plugins of the library. -/
def registry : Registry :=
  Registry.ofList plugins

end SvgPress.Builtin
