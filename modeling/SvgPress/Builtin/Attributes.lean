import SvgPress.Plugin.Basic
import SvgPress.Pattern.Parser
import SvgPress.Toml.Printer

/-!
# Attribute lists

Plugins that order, drop and add attributes.
-/

namespace SvgPress.Builtin

/-! ## Order -/

/-- Whether an attribute may stand before another: namespace declarations come first, then names
are ordered by their code points. -/
def mayPrecede (a b : Attribute) : Bool :=
  match a.name.isNamespaceDeclaration, b.name.isNamespaceDeclaration with
  | true, false => true
  | false, true => false
  | _, _ => !decide (b.name.full < a.name.full)

/-- Put the attributes of an element in order. -/
def sortElementAttributes (e : Element) : Element :=
  { e with attributes := e.attributes.mergeSort mayPrecede }

/-- Orders attributes. -/
def sortAttributes : Plugin where
  name := "sortAttrs"
  description := "sorts attributes for better compression"
  traversal := .perItem
  prepare _ := .ok { visit := Plugin.editing sortElementAttributes }

/-! ## Removal -/

/-- One pattern for full names that match one of several. -/
def anyPattern (patterns : List String) : String :=
  "^(?:" ++ "|".intercalate (patterns.map fun p => "(?:" ++ p ++ ")") ++ ")$"

/-- Drop the attributes of an element whose full name matches a pattern. -/
def dropMatching (p : Pattern) (e : Element) : Element :=
  e.keepAttrs fun a => !p.occursIn a.name.full

/-- Removes attributes whose names match one of the patterns in the parameter `attrs`. -/
def removeAttributes : Plugin where
  name := "removeAttrs"
  description := "removes attributes matching the `attrs` patterns"
  traversal := .perItem
  prepare params :=
    match params.strings "attrs" with
    | .error cause => .error (.config cause)
    | .ok [] => .ok {}
    | .ok patterns =>
      match Pattern.ofString? (anyPattern patterns) with
      | some p => .ok { visit := Plugin.editing (dropMatching p) }
      | none => .error (.config .badPattern)

/-! ## Addition -/

/-- The attribute value that a configuration value stands for. -/
def attributeText : Toml.Value → String
  | .string s => s
  | other => other.show

/-- Give an element the attributes that it does not have yet. -/
def addMissing (entries : Toml.Table) (e : Element) : Element :=
  entries.foldl (fun e (name, value) =>
    if e.hasAttr name then e else e.setAttr name (attributeText value)) e

/-- Add attributes to an element named `svg` directly under the root. -/
def visitOuterElement (entries : Toml.Table) (d : Document) (id : NodeId) :
    Report PluginError (Document × Visit) :=
  if d.parent? id = some .root && d.isElementNamed id "svg" then
    .ok (d.modifyElement id (addMissing entries), .keep)
  else .ok (d, .keep)

/-- Adds the attributes in the parameter `attributes` to the document element. -/
def addAttributes : Plugin where
  name := "addAttributesToSVGElement"
  description := "adds attributes to the outer <svg> element"
  traversal := .perItem
  prepare params :=
    match params.table? "attributes" with
    | .error cause => .error (.config cause)
    | .ok entries => .ok { visit := visitOuterElement (entries.getD []) }

end SvgPress.Builtin
