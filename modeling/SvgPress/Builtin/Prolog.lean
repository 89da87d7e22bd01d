import SvgPress.Plugin.Basic

/-!
# The parts before the tree

Plugins that drop what precedes the tree of a document.
-/

namespace SvgPress.Builtin

/-- Drops the document type declaration. -/
def removeDoctype : Plugin where
  name := "removeDoctype"
  description := "removes the DOCTYPE declaration"
  prepare := Plugin.rewriting fun d => { d with doctype := none }

/-- Drops the XML declaration. -/
def removeXmlDeclaration : Plugin where
  name := "removeXMLProcInst"
  description := "removes the XML declaration"
  prepare := Plugin.rewriting fun d => { d with declaration := none }

end SvgPress.Builtin
