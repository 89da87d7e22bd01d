import SvgPress.Content

/-!
# Requests to a document

A program that holds a document changes it in place, by requests that may be refused. A request is
carried out step by step: a step looks at the document as it stands then, refuses to go on, or
writes. What was written before a refusal stays written, so a refused request leaves the document as
it was only if it has looked at everything before it writes.
-/

namespace SvgPress

/-- Work on a document in place. It ends with a result or with the cause of a refusal, and in both
cases with the document as the work has left it. -/
abbrev InPlace := ExceptT TreeError (StateM Document)

namespace InPlace

variable {α : Type}

/-- The outcome of work on a document, and the document afterwards. -/
def on (work : InPlace α) (d : Document) : Except TreeError α × Document :=
  work.run.run d

/-- Refuse to go on if the document satisfies a condition. -/
def refuseIf (condition : Document → Bool) (cause : Document → TreeError) : InPlace Unit := do
  let d ← get
  if condition d then throw (cause d)

/-- Move a node to a place among the children of another, counted without the node itself. -/
def insertChild (parent : NodeId) (index : Nat) (child : NodeId) : InPlace Unit := do
  refuseIf (fun _ => child == .root) fun _ => .rootMoved
  refuseIf (!·.isContainer parent) fun _ => .notContainer
  refuseIf (·.isAncestorOrSelf child parent) fun _ => .ownSubtree
  refuseIf (·.addsDocumentElement parent child) fun _ => .secondDocumentElement
  refuseIf (·.placesUnder parent child < index) fun d =>
    .indexOutOfRange index (d.placesUnder parent child)
  modify (·.detach child)
  modify (·.modifyChildren parent (·.insertIdx index child))
  modify (·.setParent child (some parent))

/-- Move a node to the end of the children of another. -/
def appendChild (parent child : NodeId) : InPlace Unit := do
  let d ← get
  insertChild parent (d.placesUnder parent child) child

/-- Put the children of an element in its place. -/
def unwrap (id : NodeId) : InPlace Unit := do
  let d ← get
  match d.parent? id with
  | none => throw .unwrapDetached
  | some parent =>
    refuseIf (!·.isElement id) fun _ => .unwrapNonElement
    refuseIf (fun d => parent = .root && (d.childElements id).length != 1) fun _ =>
      .unwrapDocumentElement
    let index := (d.indexInParent? id).getD 0
    let children := d.children id
    modify (·.modifyChildren id fun _ => [])
    for child in children do
      modify (·.setParent child (some parent))
    modify (·.setParent id none)
    modify (·.modifyChildren parent fun siblings =>
      siblings.take index ++ children ++ siblings.drop (index + 1))

/-- Give an element another name. -/
def rename (id : NodeId) (name : String) : InPlace Unit := do
  let d ← get
  match d.element? id with
  | none => throw .renameNonElement
  | some e => modify (·.setKind id (.element { e with name := QName.ofString name }))

/-- Copy a subtree of a document, which may be the same one; gives the top of the copy. -/
def importFrom (source : Document) (id : NodeId) : InPlace NodeId := do
  refuseIf (fun _ => id == .root) fun _ => .rootCopied
  modifyGet fun d => let (copied, copy) := d.graft source id; (copy, copied)

/-- Copy a subtree within the document; gives the top of the copy. -/
def deepClone (id : NodeId) : InPlace NodeId := do
  importFrom (← get) id

/-- Put a copy of a fragment at a place among the children of a node; gives the top of the copy. -/
def insertItem (parent : NodeId) (index : Nat) (item : ContentItem) : InPlace NodeId := do
  let id ← importFrom item.document item.top
  insertChild parent index id
  return id

end InPlace

/-- What a program may ask of a document and be refused. -/
inductive Request where
  /-- Move a node to the end of a child list. -/
  | appendChild (parent child : NodeId)
  /-- Move a node to a place in a child list. -/
  | insertChild (parent : NodeId) (index : Nat) (child : NodeId)
  /-- Put the children of an element in its place. -/
  | unwrap (id : NodeId)
  | rename (id : NodeId) (name : String)
  /-- Copy a subtree within the document. -/
  | deepClone (id : NodeId)
  /-- Copy a subtree of another document. -/
  | importFrom (source : Document) (id : NodeId)
  /-- Put a copy of a fragment at a place in a child list. -/
  | insertItem (parent : NodeId) (index : Nat) (item : ContentItem)

/-- Carry out a request; gives the top of the copy if there is one. -/
def Request.perform : Request → InPlace (Option NodeId)
  | appendChild parent child => do InPlace.appendChild parent child; return none
  | insertChild parent index child => do InPlace.insertChild parent index child; return none
  | unwrap id => do InPlace.unwrap id; return none
  | rename id name => do InPlace.rename id name; return none
  | deepClone id => some <$> InPlace.deepClone id
  | importFrom source id => some <$> InPlace.importFrom source id
  | insertItem parent index item => some <$> InPlace.insertItem parent index item

/-- The fragment that a request wants to place. -/
def Request.fragment? : Request → Option ContentItem
  | insertItem _ _ item => some item
  | _ => none

/-- Put a copy of a fragment last among the children of the top of another, in place; gives the top
of the copy. -/
def ContentItem.appendInPlace (item child : ContentItem) :
    Except TreeError NodeId × ContentItem :=
  let index := (item.document.children item.top).length
  let (outcome, document) := (InPlace.insertItem item.top index child).on item.document
  (outcome, { item with document })

end SvgPress
