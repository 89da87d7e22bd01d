import SvgPress.Plugin.Basic
import SvgPress.Css.Declaration
import SvgPress.Number.Decimal

/-!
# Nodes that do not render

Plugins that decide for each node whether it stays: comments, descriptive elements, hidden elements
and empty containers. None of them removes the document element.
-/

namespace SvgPress.Builtin

open Text

/-! ## Comments -/

/-- Comments go, except those that start with an exclamation mark. -/
def decideComment (d : Document) (id : NodeId) : Visit :=
  match d.kind? id with
  | some (.comment content) => if content.toList.head? = some '!' then .keep else .remove
  | _ => .keep

/-- Removes comments, except legal notices. -/
def removeComments : Plugin where
  name := "removeComments"
  description := "removes comments"
  traversal := .perItem
  prepare _ := .ok { visit := Plugin.deciding decideComment }

/-! ## Descriptions -/

/-- Elements that describe the drawing go, in any namespace. -/
def decideMetadata (d : Document) (id : NodeId) : Visit :=
  if d.documentElement? = some id then .keep
  else if (d.element? id).any fun e => ["metadata", "title", "desc"].any e.isNamed then .remove
  else .keep

/-- Removes the elements that describe the drawing. -/
def removeMetadata : Plugin where
  name := "removeMetadata"
  description := "removes <metadata>, <title> and <desc>"
  traversal := .perItem
  prepare _ := .ok { visit := Plugin.deciding decideMetadata }

/-! ## Hidden elements -/

/-- Whether the opacity of an element is written as zero. -/
def isTransparent (e : Element) : Bool :=
  (e.attr? "opacity").any fun opacity =>
    (Binary64.ofString? (trimBlanks opacity)).any (·.isZero)

/-- Whether a declaration of the style of an element keeps it from being displayed. -/
def styleHides (e : Element) : Bool :=
  (e.attr? "style").any fun style =>
    (Css.declarations style).contains (.pair "display" "none")

/-- Whether an element never renders. A hidden group may hold visible elements, and an element
named `svg` always stays. -/
def isHidden (e : Element) : Bool :=
  !e.isNamed "svg" &&
    (e.attr? "display" == some "none" ||
      (e.attr? "visibility" == some "hidden" && !e.isNamed "g") ||
      isTransparent e || styleHides e)

/-- Hidden elements go, except inside `defs`, where they may be referenced. -/
def decideHidden (d : Document) (id : NodeId) : Visit :=
  if d.documentElement? = some id || (d.closestElement? id "defs").isSome then .keep
  else if (d.element? id).any isHidden then .remove
  else .keep

/-- Removes elements that never render. -/
def removeHiddenElements : Plugin where
  name := "removeHiddenElems"
  description := "removes elements that never render"
  traversal := .perItem
  prepare _ := .ok { visit := Plugin.deciding decideHidden }

/-! ## Empty containers -/

/-- Local names of the elements that render nothing but their children. -/
def containerNames : List String :=
  ["g", "defs", "symbol", "marker", "clipPath", "mask", "pattern"]

/-- Containers without children go, unless they have an identity that may be referenced. -/
def decideEmptyContainer (d : Document) (id : NodeId) : Visit :=
  if d.documentElement? = some id then .keep
  else if (d.element? id).any fun e =>
      containerNames.contains e.name.localPart && (d.children id).isEmpty &&
        (e.attr? "id").isNone then .remove
  else .keep

/-- Removes containers without children. -/
def removeEmptyContainers : Plugin where
  name := "removeEmptyContainers"
  description := "removes containers without children"
  traversal := .perItemReverse
  prepare _ := .ok { visit := Plugin.deciding decideEmptyContainer }

end SvgPress.Builtin
