import SvgPress.Element

/-!
# Documents

A document is a store of nodes linked into a tree. Nodes are addressed by `NodeId` handles, which
stay valid for the life of the document: taking a node out of the tree only removes the links
between it and its parent. The first node is the root, which stands for the document itself.

The functions that follow links carry an explicit bound, the number of nodes in the store. In a
store whose links form a forest no path and no subtree is longer than that, so the bound is never
what ends them.
-/

namespace SvgPress

/-- The handle of a node. -/
structure NodeId where
  /-- The place of the node in the store. -/
  index : Nat
deriving DecidableEq

/-- The handle of the root. -/
def NodeId.root : NodeId := ⟨0⟩

/-- The content of a node, apart from its place in the tree. -/
inductive NodeKind where
  /-- The document itself. -/
  | root
  /-- An element with its attributes. -/
  | element (e : Element)
  /-- Character data, with all references resolved. -/
  | text (content : String)
  /-- Character data kept in a CDATA section. -/
  | cdata (content : String)
  /-- A comment. -/
  | comment (content : String)
  /-- A processing instruction. -/
  | instruction (target : String) (content : Option String)
deriving DecidableEq

/-- Whether nodes of this kind may have children. -/
def NodeKind.isContainer : NodeKind → Bool
  | root | element _ => true
  | _ => false

/-- The element that a node is, if it is one. -/
def NodeKind.element? : NodeKind → Option Element
  | element e => some e
  | _ => none

/-- Whether a node holds character data. -/
def NodeKind.isCharacterData : NodeKind → Bool
  | text _ | cdata _ => true
  | _ => false

/-- A node of the store. -/
structure Node where
  /-- What the node is. -/
  kind : NodeKind
  /-- The node that it stands under. -/
  parent : Option NodeId
  /-- The nodes that stand under it, in document order. -/
  children : List NodeId

/-- The XML declaration. -/
structure XmlDeclaration where
  /-- The version of XML. -/
  version : String
  /-- The declared encoding. -/
  encoding : Option String
  /-- Whether the document declares that it needs no other file. -/
  standalone : Option Bool
deriving DecidableEq

/-- A document: what precedes the tree, and the store of its nodes. -/
structure Document where
  /-- The XML declaration. -/
  declaration : Option XmlDeclaration
  /-- The document type declaration, without its delimiters. -/
  doctype : Option String
  /-- The nodes, in the order of their creation. -/
  nodes : Array Node

namespace Document

/-- The document that holds only its root. -/
def empty : Document :=
  ⟨none, none, #[⟨.root, none, []⟩]⟩

/-! ## Reading the store -/

/-- The node behind a handle. -/
def node? (d : Document) (id : NodeId) : Option Node :=
  d.nodes[id.index]?

/-- What a node is. -/
def kind? (d : Document) (id : NodeId) : Option NodeKind :=
  (d.node? id).map (·.kind)

/-- The node that a node stands under. -/
def parent? (d : Document) (id : NodeId) : Option NodeId :=
  (d.node? id).bind (·.parent)

/-- The nodes that stand under a node. -/
def children (d : Document) (id : NodeId) : List NodeId :=
  ((d.node? id).map (·.children)).getD []

/-- The element that a node is, if it is one. -/
def element? (d : Document) (id : NodeId) : Option Element :=
  (d.kind? id).bind (·.element?)

/-- Whether a node is an element. -/
def isElement (d : Document) (id : NodeId) : Bool :=
  (d.element? id).isSome

/-- Whether a node is an element with the given local name. -/
def isElementNamed (d : Document) (id : NodeId) (localPart : String) : Bool :=
  (d.element? id).any (·.isNamed localPart)

/-- Whether a node may have children. -/
def isContainer (d : Document) (id : NodeId) : Bool :=
  (d.kind? id).any (·.isContainer)

/-- The elements directly under a node. -/
def childElements (d : Document) (id : NodeId) : List NodeId :=
  (d.children id).filter d.isElement

/-- The first element directly under the root. -/
def documentElement? (d : Document) : Option NodeId :=
  (d.childElements .root).head?

/-- The place of a node among its siblings. -/
def indexInParent? (d : Document) (id : NodeId) : Option Nat :=
  (d.parent? id).bind fun parent => (d.children parent).idxOf? id

/-! ## Following links -/

/-- At most `bound` nodes above a node, the nearest first. -/
def ancestorsUpTo (d : Document) : (bound : Nat) → NodeId → List NodeId
  | 0, _ => []
  | bound + 1, id =>
    match d.parent? id with
    | none => []
    | some parent => parent :: ancestorsUpTo d bound parent

/-- The nodes above a node, the nearest first. -/
def ancestors (d : Document) (id : NodeId) : List NodeId :=
  d.ancestorsUpTo d.nodes.size id

/-- Whether `above` is a node or one of the nodes above it. -/
def isAncestorOrSelf (d : Document) (above id : NodeId) : Bool :=
  id == above || (d.ancestors id).contains above

/-- Whether a node can be reached from the root. -/
def isAttached (d : Document) (id : NodeId) : Bool :=
  d.isAncestorOrSelf .root id

/-- The nearest element above a node with the given local name. -/
def closestElement? (d : Document) (id : NodeId) (localPart : String) : Option NodeId :=
  (d.ancestors id).find? (d.isElementNamed · localPart)

/-- The first `bound` nodes that a depth-first walk from a list of pending nodes meets. -/
def preorderFrom (d : Document) : (bound : Nat) → (pending : List NodeId) → List NodeId
  | _, [] => []
  | 0, _ :: _ => []
  | bound + 1, id :: pending => id :: preorderFrom d bound (d.children id ++ pending)

/-- The nodes below a node in document order. -/
def descendants (d : Document) (id : NodeId) : List NodeId :=
  d.preorderFrom d.nodes.size (d.children id)

/-- The elements below the root in document order. -/
def elements (d : Document) : List NodeId :=
  (d.descendants .root).filter d.isElement

/-! ## Comparing documents -/

/-- Whether the subtrees below pairs of pending nodes agree, looking at `bound` pairs at most. -/
def sameFrom (a b : Document) : (bound : Nat) → (pending : List (NodeId × NodeId)) → Bool
  | _, [] => true
  | 0, _ :: _ => false
  | bound + 1, (m, n) :: pending =>
    a.kind? m == b.kind? n && (a.children m).length == (b.children n).length &&
      sameFrom a b bound ((a.children m).zip (b.children n) ++ pending)

/-- Whether two documents have the same declarations and the same tree, whatever their stores. -/
def same (a b : Document) : Bool :=
  a.declaration == b.declaration && a.doctype == b.doctype &&
    sameFrom a b a.nodes.size [(.root, .root)]

instance : BEq Document := ⟨same⟩

end Document

end SvgPress
