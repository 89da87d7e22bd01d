import SvgPress.Plugin.Basic

/-!
# Groups

A group whose only child is an element can hand its attributes to that child, if nothing conflicts,
and a group without attributes can be replaced by its children.
-/

namespace SvgPress.Builtin

/-- Local names of the attributes that mean something else on the child of a group. -/
def groupBoundNames : List String :=
  ["id", "class", "style", "filter", "clip-path", "mask"]

/-- Whether a group can hand its attributes to its only child. -/
def canHandDown (group child : Element) : Bool :=
  !group.attributes.isEmpty && !child.hasAttr "id" &&
    (group.attributes.all fun a =>
      !groupBoundNames.contains a.name.localPart && !a.name.isNamespaceDeclaration) &&
    group.attributes.all fun a => !child.attributes.any (·.name == a.name)

/-- Move the attributes of a group to its only child, after the child's own, if that can be. -/
def handDown (d : Document) (group : NodeId) : Document :=
  match d.children group with
  | [child] =>
    match d.element? group, d.element? child with
    | some g, some c =>
      if canHandDown g c then
        let emptied := d.setKind group (.element { g with attributes := [] })
        emptied.setKind child (.element { c with attributes := c.attributes ++ g.attributes })
      else d
    | _, _ => d
  | _ => d

/-- Collapse a group that is not the document element. -/
def visitGroup (d : Document) (id : NodeId) : Report PluginError (Document × Visit) :=
  if !d.isElementNamed id "g" || d.parent? id = some .root then .ok (d, .keep)
  else
    let d := handDown d id
    if (d.element? id).any (·.attributes.isEmpty) then
      match d.unwrap id with
      | .ok d => .ok (d, .keep)
      | .error cause => .error (.ofError (.tree cause))
    else .ok (d, .keep)

/-- Unwraps groups that carry no meaning. -/
def collapseGroups : Plugin where
  name := "collapseGroups"
  description := "unwraps groups that carry no meaning"
  traversal := .perItemReverse
  prepare _ := .ok { visit := visitGroup }

end SvgPress.Builtin
