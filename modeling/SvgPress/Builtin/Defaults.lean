import SvgPress.Plugin.Basic
import SvgPress.Text.Blank

/-!
# Default values

An attribute that gives a property its initial value can go, unless an ancestor has given an
inherited property another value: then it is what resets that value.
-/

namespace SvgPress.Builtin

open Text

/-- The properties that descend from an element to the elements in it. -/
def inheritedProperties : List String :=
  ["fill-opacity", "stroke-opacity", "stroke-width", "stroke-linecap", "stroke-linejoin",
    "stroke-miterlimit", "fill-rule", "clip-rule", "font-style", "font-weight", "text-anchor",
    "visibility"]

/-- Initial values that are the same on every element. -/
def commonDefaults : List (String × String) :=
  [("preserveAspectRatio", "xMidYMid meet"), ("fill-opacity", "1"), ("stroke-opacity", "1"),
    ("opacity", "1"), ("stroke-width", "1"), ("stroke-linecap", "butt"),
    ("stroke-linejoin", "miter"), ("stroke-miterlimit", "4"), ("fill-rule", "nonzero"),
    ("clip-rule", "nonzero"), ("font-style", "normal"), ("font-weight", "normal"),
    ("font-weight", "400"), ("text-anchor", "start"), ("dominant-baseline", "auto"),
    ("visibility", "visible"), ("display", "inline"), ("overflow", "visible")]

/-- Initial values on elements of one name. -/
def elementDefaults : List (String × String × String) :=
  [("svg", "version", "1.1"), ("svg", "baseProfile", "full"), ("rect", "rx", "0"),
    ("rect", "ry", "0"), ("circle", "cx", "0"), ("circle", "cy", "0"), ("ellipse", "cx", "0"),
    ("ellipse", "cy", "0"), ("line", "x1", "0"), ("line", "y1", "0"), ("line", "x2", "0"),
    ("line", "y2", "0")]

/-- Whether a value is an initial value of an attribute on elements of a name. -/
def isDefaultValue (elementName attributeName value : String) : Bool :=
  commonDefaults.contains (attributeName, value) ||
    elementDefaults.contains (elementName, attributeName, value)

/-- Whether an element above a node has an attribute. -/
def ancestorSets (d : Document) (id : NodeId) (attributeName : String) : Bool :=
  (d.ancestors id).any fun above => (d.element? above).any (·.hasAttr attributeName)

/-- Whether an attribute of an element can go. -/
def isRedundant (d : Document) (id : NodeId) (e : Element) (a : Attribute) : Bool :=
  a.name.qualifier.isNone &&
    isDefaultValue e.name.localPart a.name.localPart (trimSpace a.value) &&
    !(inheritedProperties.contains a.name.localPart && ancestorSets d id a.name.localPart)

/-- Drop the redundant attributes of an element. -/
def dropDefaults (d : Document) (id : NodeId) : Document :=
  d.modifyElement id fun e =>
    let redundant := (e.attributes.filter (isRedundant d id e)).map (·.name.localPart)
    e.keepAttrs fun a => a.name.qualifier.isSome || !redundant.contains a.name.localPart

/-- Removes attributes with default values. -/
def removeDefaults : Plugin where
  name := "removeDefaultAttrs"
  description := "removes attributes with default values"
  traversal := .perItem
  prepare _ := .ok { visit := fun d id => .ok (dropDefaults d id, .keep) }

end SvgPress.Builtin
