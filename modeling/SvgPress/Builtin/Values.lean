import SvgPress.Plugin.Basic
import SvgPress.Css.Declaration
import SvgPress.Path.Parser
import SvgPress.Path.Printer

/-!
# Attribute values

Plugins that give attribute values a shorter notation: inline styles, colors and path data.
-/

namespace SvgPress.Builtin

/-! ## Styles -/

/-- Shorten the style of an element; a style without declarations goes. -/
def minifyElementStyle (e : Element) : Element :=
  match e.attr? "style" with
  | none => e
  | some style =>
    let minified := Css.minifyStyle style
    if minified.isEmpty then e.removeAttr "style" else e.setAttr "style" minified

/-- Shortens inline styles. -/
def convertStyles : Plugin where
  name := "convertStyleAttr"
  description := "minifies inline styles"
  traversal := .perItem
  prepare _ := .ok { visit := Plugin.editing minifyElementStyle }

/-! ## Colors -/

/-- Shorten the value of an attribute whose value is a color. -/
def shortenColorAttribute (a : Attribute) : Attribute :=
  if a.name.qualifier.isNone && Css.colorProperties.contains a.name.localPart then
    { a with value := Css.shorten a.value }
  else a

/-- Shorten the colors in the attributes and in the style of an element. -/
def shortenElementColors (e : Element) : Element :=
  let e := { e with attributes := e.attributes.map shortenColorAttribute }
  match e.attr? "style" with
  | none => e
  | some style => e.setAttr "style" (Css.shortenStyleColors style)

/-- Shortens colors. -/
def convertColors : Plugin where
  name := "convertColors"
  description := "shortens color values"
  traversal := .perItem
  prepare _ := .ok { visit := Plugin.editing shortenElementColors }

/-! ## Path data -/

/-- The number of decimal places of path data, unless said otherwise. -/
def defaultPrecision : Nat := 3

/-- Shorten the data of a path; data that cannot be read stays, with a warning. -/
def visitPath (precision : Nat) (d : Document) (id : NodeId) :
    Report PluginError (Document × Visit) :=
  match (d.element? id).filter (·.isNamed "path") with
  | none => .ok (d, .keep)
  | some e =>
    match e.attr? "d" with
    | none => .ok (d, .keep)
    | some data =>
      match Path.parse data with
      | .ok segments =>
        let e := e.setAttr "d" (Path.print precision segments)
        .ok (d.setKind id (.element e), .keep)
      | .error cause => do
        Report.note (.warning (.invalidPath cause))
        return (d, .keep)

/-- Shortens path data. -/
def convertPaths : Plugin where
  name := "convertPathData"
  description := "minifies path data"
  traversal := .perItem
  prepare params :=
    match params.byte "precision" defaultPrecision with
    | .ok precision => .ok { visit := visitPath precision }
    | .error cause => .error (.config cause)

end SvgPress.Builtin
