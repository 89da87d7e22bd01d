import SvgPress.Markup.Tag

/-!
# Tokens

A text is a sequence of tokens: runs of character data, and pieces of markup that start with `<`.
`Scanner.next` takes the first token off and keeps account of the position in bytes and of the
elements that are open, because an end tag that closes the wrong element is a fault of the text. A
fault carries the position it is reported at, which is nearly always the `<` of its markup.

Names and characters are not validated, and line ends are not normalised.
-/

namespace SvgPress.Markup

open SvgPress.Text

/-- A piece of a document's text. -/
inductive Token where
  /-- The XML declaration. -/
  | declaration (tag : Tag)
  /-- A document type declaration. -/
  | doctype (content : String)
  /-- A start tag. -/
  | start (tag : Tag)
  /-- A tag that is start and end at once. -/
  | empty (tag : Tag)
  /-- An end tag. -/
  | close (name : String)
  /-- Character data, with its references. -/
  | text (raw : String)
  /-- A CDATA section. -/
  | cdata (content : String)
  /-- A comment. -/
  | comment (content : String)
  /-- A processing instruction. -/
  | instruction (content : String)
  /-- The end of the input. -/
  | endOfInput
deriving DecidableEq

/-- A fault of a text, with the position it is reported at. -/
structure Fault where
  /-- What is wrong. -/
  cause : SyntaxError
  /-- Where, in bytes. -/
  position : Nat
deriving DecidableEq

/-- The part of a text that is still to be read. -/
structure Scanner where
  /-- The characters. -/
  rest : List Char
  /-- The number of bytes before them. -/
  position : Nat
  /-- The names of the open elements, the innermost first. -/
  openNames : List String

/-- The scanner at the start of a text; a byte order mark there is no part of the text. -/
def Scanner.ofString (s : String) : Scanner :=
  match s.toList with
  | '\uFEFF' :: rest => ⟨rest, 0, []⟩
  | rest => ⟨rest, 0, []⟩

/-! ## Where markup ends -/

/-- The text before and after the first `>` that stands in no quotes; `quote` is the quote that is
open. -/
def cutTag (quote : Option Char) : List Char → Option (List Char × List Char)
  | [] => none
  | c :: rest =>
    match quote with
    | none =>
      if c = '>' then some ([], rest)
      else
        let quote := if c = '"' || c = '\'' then some c else none
        (cutTag quote rest).map fun (before, after) => (c :: before, after)
    | some q =>
      (cutTag (if c = q then none else some q) rest).map fun (before, after) =>
        (c :: before, after)

/-- The text before and after the first `>` that closes no `<`; `depth` many are open. -/
def cutBalanced (depth : Nat) : List Char → Option (List Char × List Char)
  | [] => none
  | c :: rest =>
    if c = '>' && depth = 0 then some ([], rest)
    else
      let depth := if c = '<' then depth + 1 else if c = '>' then depth - 1 else depth
      (cutBalanced depth rest).map fun (before, after) => (c :: before, after)

/-! ## Pieces of markup -/

/-- A piece of markup together with what follows it, or why there is none. -/
abbrev Piece := Except SyntaxError (Token × List Char)

/-- What starts with `<!-`; `text` starts after `<!`. -/
def readComment (text : List Char) : Piece :=
  match (after? ['-', '-'] text).bind (cutAt ['-', '-', '>']) with
  | some (content, rest) => .ok (.comment (String.ofList content), rest)
  | none => .error .unclosedComment

/-- What starts with `<![`; `text` starts after `<!`. -/
def readCData (text : List Char) : Piece :=
  match (after? "[CDATA[".toList text).bind (cutAt [']', ']', '>']) with
  | some (content, rest) => .ok (.cdata (String.ofList content), rest)
  | none => .error .unclosedCData

/-- What starts with `<!D`; `text` starts after `<!`. -/
def readDoctype (text : List Char) : Piece :=
  let keyword := "doctype".toList
  if lowerAscii (text.take keyword.length) != keyword then .error .unclosedDoctype
  else match cutBalanced 0 (text.drop keyword.length) with
    | none => .error .unclosedDoctype
    | some (content, rest) =>
      match content.dropWhile isBlank with
      | [] => .error .unnamedDoctype
      | content => .ok (.doctype (String.ofList content), rest)

/-- What starts with `<?`; `text` starts after it. The question mark that opens the instruction
does not close it. -/
def readInstruction (text : List Char) : Piece :=
  match text with
  | '>' :: _ => .error .unclosedInstruction
  | _ =>
    match cutAt ['?', '>'] text with
    | none => .error .unclosedInstruction
    | some (content, rest) =>
      match after? "xml".toList content with
      | some afterName =>
        if afterName.head?.all isBlank then .ok (.declaration ⟨"xml", afterName⟩, rest)
        else .ok (.instruction (String.ofList content), rest)
      | none => .ok (.instruction (String.ofList content), rest)

/-- An end tag; `text` starts after `</`. Blanks after the name do not count. -/
def readClose (text : List Char) : Piece :=
  match cutTag none text with
  | none => .error .unclosedTag
  | some (content, rest) =>
    let name := if content.all isBlank then content else dropTail isBlank content
    .ok (.close (String.ofList name), rest)

/-- A start tag; `text` starts after `<`. A slash at its end makes the element empty. -/
def readStart (text : List Char) : Piece :=
  match cutTag none text with
  | none => .error .unclosedTag
  | some (content, rest) =>
    match content.getLast? with
    | some '/' => .ok (.empty (Tag.ofContent content.dropLast), rest)
    | _ => .ok (.start (Tag.ofContent content), rest)

/-- A piece of markup; `text` starts after its `<`. -/
def readMarkup (text : List Char) : Piece :=
  match text with
  | '!' :: rest =>
    match rest with
    | '[' :: _ => readCData rest
    | '-' :: _ => readComment rest
    | 'D' :: _ | 'd' :: _ => readDoctype rest
    | _ => .error .unknownMarkup
  | '?' :: rest => readInstruction rest
  | '/' :: rest => readClose rest
  | _ => readStart text

/-! ## The scanner -/

/-- The names of the open elements after a token, if the token may stand there. -/
def track (openNames : List String) : Token → Except SyntaxError (List String)
  | .start tag => .ok (tag.name :: openNames)
  | .close name =>
    match openNames with
    | [] => .error (.unmatchedEnd name)
    | innermost :: others =>
      if innermost = name then .ok others else .error (.mismatchedEnd innermost name)
  | _ => .ok openNames

/-- Where a fault in the markup that starts at a position is reported: at its `<`, but a missing
name of a document type at the `>`. -/
def faultPosition (start : Nat) (text : List Char) : SyntaxError → Nat
  | .unnamedDoctype =>
    match cutBalanced 0 text with
    | some (content, _) => start + 1 + byteLength content
    | none => start
  | _ => start

/-- Take the next token off a text. -/
def Scanner.next (s : Scanner) : Except Fault (Token × Scanner) :=
  match s.rest with
  | [] => .ok (.endOfInput, s)
  | '<' :: text =>
    let result : Except SyntaxError (Token × Scanner) := do
      let (token, rest) ← readMarkup text
      let openNames ← track s.openNames token
      let position := s.position + 1 + (byteLength text - byteLength rest)
      return (token, ⟨rest, position, openNames⟩)
    result.mapError fun cause => ⟨cause, faultPosition s.position text cause⟩
  | text =>
    let (content, rest) := text.span (· != '<')
    .ok (.text (String.ofList content),
      { s with rest, position := s.position + byteLength content })

end SvgPress.Markup
