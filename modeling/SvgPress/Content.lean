import SvgPress.Document.Edit
import SvgPress.Text.Blank

/-!
# New content

New nodes are described as `ContentData`, checked for well-formedness, and built as a
`ContentItem`: a fragment in a store of its own that can be copied into any document. The checks
refuse what could not be read back after writing: names that are no names, repeated attributes, and
end markers inside comments, CDATA sections and processing instructions.
-/

namespace SvgPress

/-- The description of a new node. -/
inductive ContentData where
  /-- An element with its attributes and children. -/
  | element (name : String) (attributes : List (String × String)) (children : List ContentData)
  /-- Character data. -/
  | text (content : String)
  /-- Character data in a CDATA section. -/
  | cdata (content : String)
  /-- A comment. -/
  | comment (content : String)
  /-- A processing instruction. -/
  | instruction (target : String) (content : Option String)

/-- A fragment that stands under no node of its store. -/
structure ContentItem where
  /-- The store. -/
  document : Document
  /-- The top of the fragment. -/
  top : NodeId

namespace Content

open Text

/-- Whether a character cannot be part of a name. -/
def breaksName (c : Char) : Bool :=
  isSpace c || "<>&\"'/=?!".toList.contains c

/-- Whether a text can be a name with at most one colon, which stands inside. -/
def isName (name : List Char) : Bool :=
  match name with
  | [] => false
  | first :: _ =>
    !(isDigit first || first == '-' || first == '.' || first == ':') &&
      name.getLast? != some ':' && name.count ':' ≤ 1 && !name.any breaksName

/-- Refuse a text that is no name. -/
def checkName (name : String) : Except ContentError Unit :=
  if isName name.toList then .ok () else .error (.badName name)

/-- Add described attributes to an element; each needs a name of its own. -/
def addAttributes (elementName : String) :
    Element → List (String × String) → Except ContentError Element
  | e, [] => .ok e
  | e, (name, value) :: rest => do
    checkName name
    if e.hasAttr name then .error (.duplicateAttribute name elementName)
    else
      let added := { e with attributes := e.attributes ++ [Attribute.ofStrings name value] }
      addAttributes elementName added rest

/-- The element with a described name and described attributes. -/
def elementOf (name : String) (attributes : List (String × String)) :
    Except ContentError Element := do
  checkName name
  addAttributes name (Element.named name) attributes

/-- The CDATA section of a text. -/
def cdataOf (content : String) : Except ContentError NodeKind :=
  if contains "]]>".toList content.toList then .error .cdataEnd else .ok (.cdata content)

/-- The comment of a text. -/
def commentOf (content : String) : Except ContentError NodeKind :=
  if contains "--".toList content.toList || content.toList.getLast? == some '-' then
    .error .commentHyphens
  else .ok (.comment content)

/-- The processing instruction of a target and a text. -/
def instructionOf (target : String) (content : Option String) : Except ContentError NodeKind := do
  checkName target
  if lowerAscii target.toList == "xml".toList then .error .reservedTarget
  else if content.any fun c => contains "?>".toList c.toList then .error .instructionEnd
  else return .instruction target content

/-- Put a new node under an element of the same store. -/
def place (d : Document) (parent child : NodeId) : Except Error Document :=
  (d.appendChild parent child).mapError .tree

mutual

/-- Add a described node, with everything below it, to a store. -/
def build (d : Document) : ContentData → Except Error (Document × NodeId)
  | .element name attributes children => do
    let e ← (elementOf name attributes).mapError .invalidContent
    let (d, id) := d.create (.element e)
    let d ← buildChildren d id children
    return (d, id)
  | .text content => .ok (d.create (.text content))
  | .cdata content => do
    let kind ← (cdataOf content).mapError .invalidContent
    return d.create kind
  | .comment content => do
    let kind ← (commentOf content).mapError .invalidContent
    return d.create kind
  | .instruction target content => do
    let kind ← (instructionOf target content).mapError .invalidContent
    return d.create kind

/-- Add described nodes under an element of a store. -/
def buildChildren (d : Document) (parent : NodeId) : List ContentData → Except Error Document
  | [] => .ok d
  | child :: rest => do
    let (d, id) ← build d child
    let d ← place d parent id
    buildChildren d parent rest

end

end Content

namespace ContentItem

/-- Build a described node in a store of its own. -/
def ofData (data : ContentData) : Except Error ContentItem := do
  let (document, top) ← Content.build .empty data
  return ⟨document, top⟩

/-- The element that the top of the fragment is, if it is one. -/
def element? (item : ContentItem) : Option Element :=
  item.document.element? item.top

/-- The value of an attribute at the top of the fragment. -/
def attr? (item : ContentItem) (name : String) : Option String :=
  item.element?.bind (·.attr? name)

/-- Set an attribute at the top of the fragment. -/
def setAttr (item : ContentItem) (name value : String) : Except TreeError ContentItem :=
  match item.element? with
  | some e =>
    .ok { item with document := item.document.setKind item.top (.element (e.setAttr name value)) }
  | none => .error .attributesOfNonElement

end ContentItem

/-- Put a copy of a fragment at a place among the children of a node. A copy that is refused its
place stays in the store, where it stands under no node. -/
def Document.placeItem (d : Document) (parent : NodeId) (index : Nat) (item : ContentItem) :
    Document × Except TreeError NodeId :=
  match d.importFrom item.document item.top with
  | .error cause => (d, .error cause)
  | .ok (copied, id) =>
    match copied.insertChild parent index id with
    | .error cause => (copied, .error cause)
    | .ok placed => (placed, .ok id)

/-- Put a copy of a fragment at a place among the children of a node, for callers that go on only
with a copy that has found its place. -/
def Document.insertItem (d : Document) (parent : NodeId) (index : Nat) (item : ContentItem) :
    Except TreeError (Document × NodeId) :=
  let (placed, outcome) := d.placeItem parent index item
  outcome.map (placed, ·)

/-- Put a copy of a fragment last among the children of the top of another. -/
def ContentItem.append (item child : ContentItem) : Except TreeError (ContentItem × NodeId) := do
  let index := (item.document.children item.top).length
  let (document, id) ← item.document.insertItem item.top index child
  return ({ item with document }, id)

end SvgPress
