import SvgPress.Markup.Token
import SvgPress.Document.Edit

/-!
# From tokens to a tree

A `Builder` holds the document that the tokens so far describe and the elements that are still open.
Start tags open an element, end tags close the innermost one, and everything else goes below the
innermost open element. Blank text is dropped unless the element it stands in preserves blanks.
-/

namespace SvgPress.Markup

open SvgPress.Text

/-- Local names of the elements in which blank text counts. -/
def blankPreserving : List String :=
  ["text", "tspan", "textPath", "tref", "altGlyph", "title", "desc", "style", "script"]

/-- Whether blanks count inside an element, given whether they count around it. The attribute
`xml:space` decides; otherwise they count where they counted before, and in the elements above. -/
def preservesBlanks (around : Bool) (e : Element) : Bool :=
  match e.attr? "xml:space" with
  | some "preserve" => true
  | some "default" => false
  | _ => around || blankPreserving.contains e.name.localPart

/-- An element whose end tag is still to come. -/
structure OpenElement where
  /-- Its node. -/
  id : NodeId
  /-- Whether blank text in it counts. -/
  preserving : Bool

/-- A document under construction. -/
structure Builder where
  /-- What has been built. -/
  document : Document
  /-- The open elements, the innermost first. -/
  opened : List OpenElement

namespace Builder

/-- The builder that has seen no token. -/
def empty : Builder :=
  ⟨.empty, []⟩

/-- The node that new nodes go under. -/
def current (b : Builder) : NodeId :=
  match b.opened with
  | [] => .root
  | innermost :: _ => innermost.id

/-- Whether blank text counts at this place. -/
def preserving (b : Builder) : Bool :=
  match b.opened with
  | [] => false
  | innermost :: _ => innermost.preserving

/-- Add a node at this place. -/
def append (b : Builder) (kind : NodeKind) : Except SyntaxError (Builder × NodeId) :=
  let (document, id) := b.document.create kind
  match document.appendChild b.current id with
  | .ok document => .ok ({ b with document }, id)
  | .error cause => .error (.tree cause)

/-- The version that an XML declaration states, which has to be its first attribute. -/
def declaredVersion (tag : Tag) : Except SyntaxError String :=
  match tag.rawAttributes false with
  | (first :: _, _) =>
    if first.key = "version" then .ok first.value else .error (.versionNotFirst first.key)
  | ([], some fault) => .error (.declarationAttribute fault)
  | ([], none) => .error .versionMissing

/-- The XML declaration that a tag states. -/
def declarationOf (tag : Tag) : Except SyntaxError XmlDeclaration := do
  let version ← declaredVersion tag
  let stated (key : String) : Option String :=
    ((tag.rawAttributes false).1.find? (·.key == key)).map (·.value)
  return ⟨version, stated "encoding", (stated "standalone").map (· == "yes")⟩

/-- The processing instruction with the given content: the target ends at the first white space. -/
def instructionOf (content : String) : NodeKind :=
  let (target, rest) := content.toList.span (!isSpace ·)
  match rest with
  | [] => .instruction content none
  | _ :: rest =>
    match strip isSpace rest with
    | [] => .instruction (String.ofList target) none
    | rest => .instruction (String.ofList target) (some (String.ofList rest))

/-- Take in one token other than the end of the input. -/
def feed (b : Builder) : Token → Except SyntaxError Builder
  | .declaration tag => do
    let declaration ← declarationOf tag
    return { b with document := { b.document with declaration } }
  | .doctype content =>
    .ok { b with document := { b.document with doctype := some (trimSpace content) } }
  | .start tag => do
    let e ← tag.element
    let preserving := preservesBlanks b.preserving e
    let (b, id) ← b.append (.element e)
    return { b with opened := ⟨id, preserving⟩ :: b.opened }
  | .empty tag => do
    let e ← tag.element
    let (b, _) ← b.append (.element e)
    return b
  | .close name =>
    match b.opened with
    | [] => .error (.unexpectedEnd name)
    | _ :: opened => .ok { b with opened }
  | .text raw => do
    let content ← (expand raw).mapError .entity
    if b.opened.isEmpty then
      if allBlank content then return b else .error .textOutsideRoot
    else if !allBlank content || b.preserving then
      let (b, _) ← b.append (.text content)
      return b
    else return b
  | .cdata content =>
    if b.opened.isEmpty then .error .cdataOutsideRoot
    else (b.append (.cdata content)).map (·.1)
  | .comment content => (b.append (.comment content)).map (·.1)
  | .instruction content => (b.append (instructionOf content)).map (·.1)
  | .endOfInput => .ok b

/-- The document at the end of the input. -/
def finish (b : Builder) : Except SyntaxError Document :=
  match b.opened with
  | innermost :: _ =>
    .error (.unclosedElement (((b.document.element? innermost.id).map (·.name.full)).getD ""))
  | [] =>
    match b.document.documentElement? with
    | some _ => .ok b.document
    | none => .error .noDocumentElement

end Builder

end SvgPress.Markup
