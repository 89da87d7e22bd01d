import SvgPress.Plugin.Basic

/-!
# Namespaces

Plugins that drop what drawing programs keep for themselves, and namespace declarations that nothing
uses.
-/

namespace SvgPress.Builtin

/-! ## Editor data -/

/-- The qualifiers of drawing programs. -/
def editorQualifiers : List String :=
  ["sodipodi", "inkscape"]

/-- Whether a name belongs to a drawing program. -/
def hasEditorQualifier (q : QName) : Bool :=
  q.qualifier.any editorQualifiers.contains

/-- Whether an attribute is of use to a drawing program only. -/
def isEditorAttribute (a : Attribute) : Bool :=
  hasEditorQualifier a.name ||
    (a.name.qualifier == some "xmlns" && editorQualifiers.contains a.name.localPart) ||
    a.name.localPart == "data-name"

/-- Elements of drawing programs go, and so do their attributes on other elements. The document
element stays. -/
def visitEditorData (d : Document) (id : NodeId) : Report PluginError (Document × Visit) :=
  if (d.element? id).any (fun e => hasEditorQualifier e.name) && d.documentElement? != some id then
    .ok (d, .remove)
  else .ok (d.modifyElement id (·.keepAttrs fun a => !isEditorAttribute a), .keep)

/-- Removes the data of drawing programs. -/
def removeEditorData : Plugin where
  name := "removeEditorsNSData"
  description := "removes Inkscape and Sodipodi data"
  traversal := .perItem
  prepare _ := .ok { visit := visitEditorData }

/-! ## Unused declarations -/

/-- The qualifiers in the names of an element and of its attributes, declarations apart. -/
def qualifiersOf (e : Element) : List String :=
  e.name.qualifier.toList ++
    (e.attributes.filter fun a => !a.name.isNamespaceDeclaration).filterMap (·.name.qualifier)

/-- The qualifiers that a document uses. -/
def usedQualifiers (d : Document) : List String :=
  (d.elements.filterMap d.element?).flatMap qualifiersOf

/-- Drop the declarations on the document element whose qualifier nothing uses. The default
namespace stays. -/
def dropUnusedDeclarations (d : Document) : Document :=
  match d.documentElement? with
  | none => d
  | some id =>
    let used := usedQualifiers d
    d.modifyElement id (·.keepAttrs fun a =>
      a.name.qualifier != some "xmlns" || used.contains a.name.localPart)

/-- Removes unused namespace declarations from the document element. -/
def removeUnusedNamespaces : Plugin where
  name := "removeUnusedNS"
  description := "removes unused namespace declarations from the root element"
  prepare := Plugin.rewriting dropUnusedDeclarations

end SvgPress.Builtin
