import SvgPress.Markup.Builder

/-!
# Writing documents

`write` gives the text of a document in a chosen style. The writer keeps the output it still owes on
a list of pending pieces, so that its depth does not grow with the tree. Line breaks go only where
they cannot be mistaken for content: not into elements that preserve blanks, and not into elements
that hold character data.
-/

namespace SvgPress.Markup

/-- The quotes around attribute values. -/
inductive Quote where
  | double
  | single
deriving DecidableEq

/-- The character of a quote. -/
def Quote.char : Quote → Char
  | double => '"'
  | single => '\''

/-- The style of a written document. -/
structure Style where
  /-- Whether elements stand on lines of their own. -/
  pretty : Bool := false
  /-- The number of spaces for each level of nesting. -/
  indent : Nat := 4
  /-- The quotes around attribute values. -/
  quote : Quote := .double
  /-- Whether an element without children is one tag instead of two. -/
  selfClose : Bool := true
  /-- Whether the text ends with a line break. -/
  finalNewline : Bool := false
deriving DecidableEq

/-- A line break with the indentation of a level of nesting, if the style has any. -/
def Style.lineBreak (style : Style) (depth : Nat) : String :=
  if style.pretty then "\n" ++ String.ofList (List.replicate (depth * style.indent) ' ') else ""

/-- The written form of an attribute, with the space before it. -/
def Style.attribute (style : Style) (a : Attribute) : String :=
  let quote := style.quote.char
  " " ++ a.name.full ++ "=" ++ quote.toString ++ escapeValue quote a.value ++ quote.toString

/-- A start tag without its end. -/
def Style.openTag (style : Style) (e : Element) : String :=
  e.attributes.foldl (fun out a => out ++ style.attribute a) ("<" ++ e.name.full)

/-- The written form of an element without children. -/
def Style.childless (style : Style) (e : Element) : String :=
  style.openTag e ++ if style.selfClose then "/>" else "></" ++ e.name.full ++ ">"

/-- The written form of a processing instruction. -/
def writeInstruction (target : String) (content : Option String) : String :=
  match content with
  | none => "<?" ++ target ++ "?>"
  | some content => "<?" ++ target ++ " " ++ content ++ "?>"

/-- The written form of an XML declaration. -/
def writeDeclaration (declaration : XmlDeclaration) : String :=
  let encoding := match declaration.encoding with
    | some encoding => " encoding=\"" ++ encoding ++ "\""
    | none => ""
  let standalone := match declaration.standalone with
    | some true => " standalone=\"yes\""
    | some false => " standalone=\"no\""
    | none => ""
  "<?xml version=\"" ++ declaration.version ++ "\"" ++ encoding ++ standalone ++ "?>"

/-- A piece of output that is still owed. -/
inductive Pending where
  /-- A node with everything below it, at a level of nesting. -/
  | node (id : NodeId) (depth : Nat) (preserving : Bool)
  /-- A line break before a level of nesting. -/
  | lineBreak (depth : Nat)
  /-- The end tag of an element. -/
  | endTag (name : String)

/-- Whether the children of an element stand on lines of their own. -/
def breaksLines (style : Style) (d : Document) (id : NodeId) (preserving : Bool) : Bool :=
  style.pretty && !preserving &&
    !(d.children id).any fun child => (d.kind? child).any (·.isCharacterData)

/-- What an element with children owes after its start tag. -/
def owedBelow (style : Style) (d : Document) (id : NodeId) (e : Element) (depth : Nat)
    (around : Bool) : List Pending :=
  let preserving := preservesBlanks around e
  let breaks := breaksLines style d id preserving
  let below := (d.children id).flatMap fun child =>
    let node := Pending.node child (depth + 1) preserving
    if breaks then [.lineBreak (depth + 1), node] else [node]
  below ++ (if breaks then [.lineBreak depth, .endTag e.name.full] else [.endTag e.name.full])

/-- Write at most `bound` pending pieces after what has been written. -/
def writePending (style : Style) (d : Document) :
    (bound : Nat) → List Pending → (written : String) → Except WriteError String
  | _, [], written => .ok written
  | 0, _ :: _, written => .ok written
  | bound + 1, .lineBreak depth :: pending, written =>
    writePending style d bound pending (written ++ style.lineBreak depth)
  | bound + 1, .endTag name :: pending, written =>
    writePending style d bound pending (written ++ "</" ++ name ++ ">")
  | bound + 1, .node id depth preserving :: pending, written =>
    match d.kind? id with
    | some .root => .error .nestedRoot
    | some (.element e) =>
      if (d.children id).isEmpty then
        writePending style d bound pending (written ++ style.childless e)
      else
        writePending style d bound (owedBelow style d id e depth preserving ++ pending)
          (written ++ style.openTag e ++ ">")
    | some (.text content) =>
      writePending style d bound pending (written ++ escapeText content)
    | some (.cdata content) =>
      writePending style d bound pending (written ++ "<![CDATA[" ++ content ++ "]]>")
    | some (.comment content) =>
      writePending style d bound pending (written ++ "<!--" ++ content ++ "-->")
    | some (.instruction target content) =>
      writePending style d bound pending (written ++ writeInstruction target content)
    | none => writePending style d bound pending written

/-- Write a node and everything below it. Each node owes at most a line break, its end tag, and a
line break before that, so the bound is never reached. -/
def writeNode (style : Style) (d : Document) (id : NodeId) (written : String) :
    Except WriteError String :=
  writePending style d (4 * d.nodes.size + 1) [.node id 0 false] written

/-- Write the nodes directly under the root, with line breaks between them. -/
def writeTopLevel (style : Style) (d : Document) :
    (first : Bool) → List NodeId → (written : String) → Except WriteError String
  | _, [], written => .ok written
  | first, id :: rest, written => do
    let written := if first then written else written ++ style.lineBreak 0
    if (d.kind? id).any (·.isCharacterData) then .error .strayCharacterData
    else
      let written ← writeNode style d id written
      writeTopLevel style d false rest written

/-- The text of a document. -/
def write (style : Style) (d : Document) : Except WriteError String :=
  if d.documentElement?.isNone then .error .noDocumentElement
  else do
    let declaration := match d.declaration with
      | some declaration => writeDeclaration declaration ++ style.lineBreak 0
      | none => ""
    let doctype := match d.doctype with
      | some doctype => "<!DOCTYPE " ++ doctype ++ ">" ++ style.lineBreak 0
      | none => ""
    let written ← writeTopLevel style d true (d.children .root) (declaration ++ doctype)
    return if style.finalNewline then written ++ "\n" else written

end SvgPress.Markup
