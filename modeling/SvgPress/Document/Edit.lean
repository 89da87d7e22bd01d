import SvgPress.Document.Basic
import SvgPress.Error

/-!
# Editing documents

Every edit either gives the changed document or the reason why it is refused, in which case nothing
has changed. The links of a store stay consistent under all of them: a node stands in the child list
of its parent and in no other, and no node stands below itself.
-/

namespace SvgPress.Document

/-! ## Single nodes -/

/-- Change one node of the store. -/
def modifyNode (d : Document) (id : NodeId) (f : Node → Node) : Document :=
  { d with nodes := d.nodes.modify id.index f }

/-- Put another payload into a node; its place in the tree stays. -/
def setKind (d : Document) (id : NodeId) (kind : NodeKind) : Document :=
  d.modifyNode id fun node => { node with kind }

/-- Change the payload of an element; any other node stays as it is. -/
def modifyElement (d : Document) (id : NodeId) (f : Element → Element) : Document :=
  match d.element? id with
  | some e => d.setKind id (.element (f e))
  | none => d

/-- Record the node that a node stands under. -/
def setParent (d : Document) (id : NodeId) (parent : Option NodeId) : Document :=
  d.modifyNode id fun node => { node with parent }

/-- Change the list of the nodes that stand under a node. -/
def modifyChildren (d : Document) (id : NodeId) (f : List NodeId → List NodeId) : Document :=
  d.modifyNode id fun node => { node with children := f node.children }

/-- Add a node that stands under no other; it is the last of the store. -/
def create (d : Document) (kind : NodeKind) : Document × NodeId :=
  ({ d with nodes := d.nodes.push ⟨kind, none, []⟩ }, ⟨d.nodes.size⟩)

/-! ## What is found after a change -/

section

variable (d : Document) (id other : NodeId)

/-- A node that is changed is found changed, and every other node as it was. -/
theorem node?_modifyNode (f : Node → Node) :
    (d.modifyNode id f).node? other =
      if other = id then (d.node? other).map f else d.node? other := by
  obtain ⟨i⟩ := id
  obtain ⟨j⟩ := other
  simp only [node?, modifyNode, Array.getElem?_modify, NodeId.mk.injEq, eq_comm (a := i)]

/-- Changing a node leaves the number of nodes. -/
@[simp] theorem size_modifyNode (f : Node → Node) :
    (d.modifyNode id f).nodes.size = d.nodes.size := by
  simp [modifyNode]

/-- The payload that is put into a node is the one that is found there. -/
theorem kind?_setKind (kind : NodeKind) :
    (d.setKind id kind).kind? other =
      if other = id then (d.kind? other).map fun _ => kind else d.kind? other := by
  simp only [kind?, setKind, node?_modifyNode]
  split <;> simp [Function.comp_def]

/-- A payload says nothing about the parent of a node. -/
@[simp] theorem parent?_setKind (kind : NodeKind) :
    (d.setKind id kind).parent? other = d.parent? other := by
  simp only [parent?, setKind, node?_modifyNode]
  split <;> cases d.node? other <;> rfl

/-- A payload says nothing about the children of a node. -/
@[simp] theorem children_setKind (kind : NodeKind) :
    (d.setKind id kind).children other = d.children other := by
  simp only [children, setKind, node?_modifyNode]
  split <;> cases d.node? other <;> rfl

/-- The parent that is recorded for a node is the one that is found. -/
theorem parent?_setParent (parent : Option NodeId) :
    (d.setParent id parent).parent? other =
      if other = id then (d.node? other).bind fun _ => parent else d.parent? other := by
  simp only [parent?, setParent, node?_modifyNode]
  split <;> cases d.node? other <;> rfl

/-- The place of a node says nothing about its payload. -/
@[simp] theorem kind?_setParent (parent : Option NodeId) :
    (d.setParent id parent).kind? other = d.kind? other := by
  simp only [kind?, setParent, node?_modifyNode]
  split <;> cases d.node? other <;> rfl

/-- The parent of a node says nothing about its children. -/
@[simp] theorem children_setParent (parent : Option NodeId) :
    (d.setParent id parent).children other = d.children other := by
  simp only [children, setParent, node?_modifyNode]
  split <;> cases d.node? other <;> rfl

/-- A changed child list is found changed, and every other one as it was. -/
theorem children_modifyChildren (f : List NodeId → List NodeId) :
    (d.modifyChildren id f).children other =
      if other = id ∧ (d.node? other).isSome then f (d.children other) else d.children other := by
  simp only [children, modifyChildren, node?_modifyNode]
  by_cases h : other = id <;> cases d.node? other <;> simp [h]

/-- The children of a node say nothing about its payload. -/
@[simp] theorem kind?_modifyChildren (f : List NodeId → List NodeId) :
    (d.modifyChildren id f).kind? other = d.kind? other := by
  simp only [kind?, modifyChildren, node?_modifyNode]
  split <;> cases d.node? other <;> rfl

/-- The children of a node say nothing about its parent. -/
@[simp] theorem parent?_modifyChildren (f : List NodeId → List NodeId) :
    (d.modifyChildren id f).parent? other = d.parent? other := by
  simp only [parent?, modifyChildren, node?_modifyNode]
  split <;> cases d.node? other <;> rfl

/-- A new node is found with its payload only, and every other node as it was. -/
theorem node?_create (kind : NodeKind) :
    (d.create kind).1.node? other =
      if other = (d.create kind).2 then some ⟨kind, none, []⟩ else d.node? other := by
  obtain ⟨j⟩ := other
  simp only [node?, create, Array.getElem?_push, NodeId.mk.injEq]

end

/-! ## Moving nodes -/

/-- Take a node, with all that stands under it, from its parent. -/
def detach (d : Document) (id : NodeId) : Document :=
  match d.parent? id with
  | none => d
  | some parent => (d.setParent id none).modifyChildren parent (·.filter (· != id))

/-- Put a node without a parent at a place among the children of another. -/
def attach (d : Document) (parent : NodeId) (index : Nat) (child : NodeId) : Document :=
  (d.modifyChildren parent (·.insertIdx index child)).setParent child (some parent)

/-- The number of children a parent has, not counting one that is about to move. -/
def placesUnder (d : Document) (parent child : NodeId) : Nat :=
  (d.children parent).length - if d.parent? child = some parent then 1 else 0

/-- Whether a child would give the root a second element. -/
def addsDocumentElement (d : Document) (parent child : NodeId) : Bool :=
  parent == .root && d.isElement child && (d.childElements parent).any (· != child)

/-- Move a node to a place among the children of another, counted without the node itself. -/
def insertChild (d : Document) (parent : NodeId) (index : Nat) (child : NodeId) :
    Except TreeError Document :=
  if child = .root then .error .rootMoved
  else if !d.isContainer parent then .error .notContainer
  else if d.isAncestorOrSelf child parent then .error .ownSubtree
  else if d.addsDocumentElement parent child then .error .secondDocumentElement
  else if d.placesUnder parent child < index then
    .error (.indexOutOfRange index (d.placesUnder parent child))
  else .ok ((d.detach child).attach parent index child)

/-- Move a node to the end of the children of another. -/
def appendChild (d : Document) (parent child : NodeId) : Except TreeError Document :=
  d.insertChild parent (d.placesUnder parent child) child

/-- Put the children of an element in its place; the element is left without parent and children. -/
def unwrap (d : Document) (id : NodeId) : Except TreeError Document :=
  match d.parent? id with
  | none => .error .unwrapDetached
  | some parent =>
    if !d.isElement id then .error .unwrapNonElement
    else if parent = .root && (d.childElements id).length != 1 then
      .error .unwrapDocumentElement
    else
      let index := (d.indexInParent? id).getD 0
      let children := d.children id
      let adopted := children.foldl (fun d child => d.setParent child (some parent)) d
      let emptied := adopted.modifyNode id fun node => { node with parent := none, children := [] }
      .ok (emptied.modifyChildren parent fun siblings =>
        siblings.take index ++ children ++ siblings.drop (index + 1))

/-- Give an element another name. -/
def rename (d : Document) (id : NodeId) (name : String) : Except TreeError Document :=
  match d.element? id with
  | some e => .ok (d.setKind id (.element { e with name := QName.ofString name }))
  | none => .error .renameNonElement

/-! ## Copying subtrees -/

/-- The payloads of the pending nodes and of all below them in document order, each with the place
of its parent in this plan; `next` is the place of the first of them. -/
def planFrom (d : Document) : (bound : Nat) → (pending : List (NodeId × Option Nat)) →
    (next : Nat) → List (NodeKind × Option Nat)
  | _, [], _ => []
  | 0, _ :: _, _ => []
  | bound + 1, (id, parent) :: pending, next =>
    match d.kind? id with
    | some kind =>
      (kind, parent) ::
        planFrom d bound ((d.children id).map (·, some next) ++ pending) (next + 1)
    | none => planFrom d bound pending next

/-- The plan of a node and all below it. -/
def subtreePlan (d : Document) (id : NodeId) : List (NodeKind × Option Nat) :=
  d.planFrom d.nodes.size [(id, none)] 0

/-- Add a node as a plan says, below the node that has been made for the place of its parent. -/
def follow (made : Document × Array NodeId) (planned : NodeKind × Option Nat) :
    Document × Array NodeId :=
  let (d, ids) := made
  let (kind, parent) := planned
  let (d, id) := d.create kind
  match parent.bind (ids[·]?) with
  | some parent =>
    ((d.setParent id (some parent)).modifyChildren parent (· ++ [id]), ids.push id)
  | none => (d, ids.push id)

/-- Add a copy of a subtree of `source`, whose nodes are new and follow each other in document
order; the copy of the top stands under no node. -/
def graft (d source : Document) (top : NodeId) : Document × NodeId :=
  let (d', ids) := (source.subtreePlan top).foldl follow (d, #[])
  (d', ids[0]?.getD ⟨d.nodes.size⟩)

/-- Copy a subtree within a document. -/
def deepClone (d : Document) (id : NodeId) : Except TreeError (Document × NodeId) :=
  if id = .root then .error .rootCopied else .ok (d.graft d id)

/-- Copy a subtree of another document. -/
def importFrom (d source : Document) (id : NodeId) : Except TreeError (Document × NodeId) :=
  if id = .root then .error .rootCopied else .ok (d.graft source id)

end SvgPress.Document
