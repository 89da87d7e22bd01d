import SvgPress.Text.Quoted

/-!
# Errors

Every failure of the library is a value of `Error`: one constructor for each part of the library
that can fail, holding the cause. The causes are inductive types; their wording lives in one
`message` function each, so that code and proofs speak of causes and only the outermost layer of
text. A cause `stated` carries the words of a plugin that failed for a reason of its own.
-/

namespace SvgPress

/-! ## Causes -/

/-- Why an edit of the tree is refused. -/
inductive TreeError where
  /-- The root would be put below another node. -/
  | rootMoved
  /-- The new parent is neither the root nor an element. -/
  | notContainer
  /-- The node would be put below itself. -/
  | ownSubtree
  /-- The root would hold two elements. -/
  | secondDocumentElement
  /-- The place in the child list does not exist. -/
  | indexOutOfRange (index available : Nat)
  /-- A node without a parent has no place to leave its children in. -/
  | unwrapDetached
  /-- Only elements have children to leave behind. -/
  | unwrapNonElement
  /-- Unwrapping would leave the root without an element, or with several. -/
  | unwrapDocumentElement
  /-- Only elements have a name. -/
  | renameNonElement
  /-- The root is not part of any subtree. -/
  | rootCopied
  /-- Only elements have attributes. -/
  | attributesOfNonElement
  /-- A reason given by a plugin. -/
  | stated (text : String)
deriving DecidableEq

/-- What is wrong with the list of attributes in a tag; offsets count bytes from the tag's `<`,
which itself is not counted. -/
inductive AttributeError where
  /-- A key is followed by something else than `=`. -/
  | expectedEquals (offset : Nat)
  /-- The key has been used before in the same tag. -/
  | duplicated (offset previous : Nat)
  /-- The tag ends after `=`. -/
  | expectedValue (offset : Nat)
  /-- The value has no quotes. -/
  | unquotedValue (offset : Nat)
  /-- The quote that opens the value is never closed. -/
  | expectedQuote (offset : Nat) (quote : Char)
deriving DecidableEq

/-- What is wrong with a numeric character reference. -/
inductive CharacterError where
  /-- The number starts with a sign. -/
  | sign
  /-- There are no digits. -/
  | empty
  /-- A character is no digit of the base. -/
  | digit
  /-- The number has more than 32 bits. -/
  | tooLarge
  /-- Zero names no character. -/
  | zero
  /-- The number is no Unicode scalar value. -/
  | notScalar (code : Nat)
deriving DecidableEq

/-- What is wrong with a reference that starts with `&`; offsets count bytes of the text. -/
inductive EntityError where
  /-- No `;` follows the `&`. -/
  | unterminated (start stop : Nat)
  /-- The name is none of the five that markup defines. -/
  | unrecognized (start stop : Nat) (name : String)
  /-- The reference is numeric and names no character. -/
  | character (cause : CharacterError)
deriving DecidableEq

/-- Why a text is no document. -/
inductive SyntaxError where
  /-- What follows `<!` opens no known construct. -/
  | unknownMarkup
  /-- A comment without `-->`. -/
  | unclosedComment
  /-- A CDATA section without its end. -/
  | unclosedCData
  /-- A document type declaration without `>`. -/
  | unclosedDoctype
  /-- A processing instruction without `?>`. -/
  | unclosedInstruction
  /-- A tag without `>`. -/
  | unclosedTag
  /-- A document type declaration without a name. -/
  | unnamedDoctype
  /-- An end tag where nothing is open. -/
  | unmatchedEnd (found : String)
  /-- An end tag for another element than the innermost open one. -/
  | mismatchedEnd (expected found : String)
  /-- The attributes of a tag are malformed. -/
  | badAttribute (cause : AttributeError)
  /-- The first attribute of the XML declaration is malformed. -/
  | declarationAttribute (cause : AttributeError)
  /-- The XML declaration has no attribute at all. -/
  | versionMissing
  /-- The XML declaration starts with another attribute than the version. -/
  | versionNotFirst (key : String)
  /-- A reference in text or in an attribute value is malformed. -/
  | entity (cause : EntityError)
  /-- Text that is not blank, outside the document element. -/
  | textOutsideRoot
  /-- A CDATA section outside the document element. -/
  | cdataOutsideRoot
  /-- An end event without an open element. -/
  | unexpectedEnd (name : String)
  /-- The input ends inside an element. -/
  | unclosedElement (name : String)
  /-- The input has no element. -/
  | noDocumentElement
  /-- The tree refuses the node. -/
  | tree (cause : TreeError)
  /-- The outcome has been handed out before. -/
  | finished
  /-- A reason given by a plugin. -/
  | stated (text : String)
deriving DecidableEq

/-- Why a document has no text. -/
inductive WriteError where
  /-- The root has no element child. -/
  | noDocumentElement
  /-- Text or a CDATA section stands directly under the root. -/
  | strayCharacterData
  /-- A root node stands below the root. -/
  | nestedRoot
  /-- A reason given by a plugin. -/
  | stated (text : String)
deriving DecidableEq

/-- Why a description of new content is refused. -/
inductive ContentError where
  /-- A name could not be read back. -/
  | badName (name : String)
  /-- Two attributes share a name. -/
  | duplicateAttribute (name element : String)
  /-- A CDATA section holds its own end marker. -/
  | cdataEnd
  /-- A comment holds two hyphens, or ends with one. -/
  | commentHyphens
  /-- The target names the XML declaration. -/
  | reservedTarget
  /-- A processing instruction holds its own end marker. -/
  | instructionEnd
  /-- A reason given by a plugin. -/
  | stated (text : String)
deriving DecidableEq

/-- Why a text is no path data; offsets count bytes. -/
inductive PathError where
  /-- The data starts with a number. -/
  | noCommand
  /-- Arguments follow a closed subpath without a command. -/
  | afterClosePath
  /-- A letter that names no command. -/
  | unknownCommand (letter : Char)
  /-- A number should stand here. -/
  | expectedNumber (offset : Nat)
  /-- The number is larger than every finite one. -/
  | outOfRange (token : String)
  /-- A `0` or `1` should stand here. -/
  | expectedFlag (offset : Nat)
  /-- A reason given by a plugin. -/
  | stated (text : String)
deriving DecidableEq

/-- Why a configuration is refused. -/
inductive ConfigError where
  /-- The text is no TOML, or has not the shape of a configuration. -/
  | malformed
  /-- No plugin of this name is registered. -/
  | unknownPlugin (name : String)
  /-- A parameter has the wrong type. -/
  | wrongType (key expected found : String)
  /-- A number does not fit into a byte. -/
  | tooLarge (key : String)
  /-- A pattern for attribute names is malformed. -/
  | badPattern
  /-- A plugin rejects its parameters. -/
  | parameters (plugin : String) (cause : ConfigError)
  /-- A reason given by a plugin. -/
  | stated (text : String)
deriving DecidableEq

/-- A failure of the library. -/
inductive Error where
  /-- The text is no document; the position counts bytes. -/
  | parse (cause : SyntaxError) (position : Option Nat)
  /-- The document has no text. -/
  | serialize (cause : WriteError)
  /-- A plugin failed on a document. -/
  | plugin (name message : String)
  /-- New content is malformed. -/
  | invalidContent (cause : ContentError)
  /-- An edit of the tree is refused. -/
  | tree (cause : TreeError)
  /-- Path data is malformed. -/
  | invalidPath (cause : PathError)
  /-- The configuration is refused. -/
  | config (cause : ConfigError)
  /-- A file cannot be read or written. -/
  | io (message : String)
deriving DecidableEq

/-- The category of a failure. -/
inductive ErrorKind where
  | parse | serialize | plugin | invalidContent | tree | invalidPath | config | io
deriving DecidableEq

/-! ## Wording -/

/-- The wording of a refused edit. -/
def TreeError.message : TreeError → String
  | rootMoved => "the root node cannot be moved"
  | notContainer => "only elements and the root can hold children"
  | ownSubtree => "cannot insert a node into its own subtree"
  | secondDocumentElement => "the document already has a root element"
  | indexOutOfRange index available =>
    "insert index " ++ toString index ++ " out of range (" ++ toString available ++ " children)"
  | unwrapDetached => "cannot unwrap a detached node"
  | unwrapNonElement => "only elements can be unwrapped"
  | unwrapDocumentElement => "unwrapping the root element must leave exactly one element"
  | renameNonElement => "only elements can be renamed"
  | rootCopied => "the root node cannot be copied"
  | attributesOfNonElement => "only elements carry attributes"
  | stated text => text

/-- The wording of a malformed list of attributes. -/
def AttributeError.message : AttributeError → String
  | expectedEquals offset =>
    "position " ++ toString offset ++
      ": attribute key must be directly followed by `=` or space"
  | duplicated offset previous =>
    "position " ++ toString offset ++
      ": duplicated attribute, previous declaration at position " ++ toString previous
  | expectedValue offset =>
    "position " ++ toString offset ++ ": `=` must be followed by an attribute value"
  | unquotedValue offset =>
    "position " ++ toString offset ++
      ": attribute value must be enclosed in `\"` or `'`"
  | expectedQuote offset quote =>
    "position " ++ toString offset ++ ": missing closing quote `" ++ quote.toString ++
      "` in attribute value"

/-- The wording of a malformed character reference. -/
def CharacterError.message : CharacterError → String
  | sign => "unexpected number sign"
  | empty => "cannot parse integer from empty string"
  | digit => "invalid digit found in string"
  | tooLarge => "number too large to fit in target type"
  | zero => "0x0 character is not permitted in XML"
  | notScalar code => "`" ++ toString code ++ "` is not a valid codepoint"

/-- The wording of a malformed reference. -/
def EntityError.message : EntityError → String
  | unterminated start stop =>
    "Error while escaping character at range " ++ toString start ++ ".." ++ toString stop ++
      ": Cannot find ';' after '&'"
  | unrecognized start stop name =>
    "at " ++ toString start ++ ".." ++ toString stop ++ ": unrecognized entity `" ++ name ++
      "`"
  | character cause => "invalid character reference: " ++ cause.message

/-- The text of the error as a refused edit of the tree. -/
def TreeError.text (cause : TreeError) : String :=
  "Invalid tree operation: " ++ cause.message

/-- The wording of a text that is no document. -/
def SyntaxError.message : SyntaxError → String
  | unknownMarkup => "syntax error: unknown or missed symbol in markup"
  | unclosedComment =>
    "syntax error: comment not closed: `-->` not found before end of input"
  | unclosedCData => "syntax error: CDATA not closed: `]]>` not found before end of input"
  | unclosedDoctype =>
    "syntax error: DOCTYPE not closed: `>` not found before end of input"
  | unclosedInstruction =>
    "syntax error: processing instruction or xml declaration not closed: " ++
      "`?>` not found before end of input"
  | unclosedTag => "syntax error: tag not closed: `>` not found before end of input"
  | unnamedDoctype =>
    "ill-formed document: `<!DOCTYPE>` declaration does not contain a name of a document type"
  | unmatchedEnd found =>
    "ill-formed document: close tag `</" ++ found ++ ">` does not match any open tag"
  | mismatchedEnd expected found =>
    "ill-formed document: expected `</" ++ expected ++ ">`, but `</" ++ found ++
      ">` was found"
  | badAttribute cause => "Invalid attribute: " ++ cause.message
  | declarationAttribute cause => "error while parsing attribute: " ++ cause.message
  | versionMissing =>
    "ill-formed document: an XML declaration does not contain `version` attribute"
  | versionNotFirst key =>
    "ill-formed document: an XML declaration must start with `version` attribute, " ++
      "but in starts with `" ++ key ++ "`"
  | entity cause => cause.message
  | textOutsideRoot => "text outside of the root element"
  | cdataOutsideRoot => "CDATA outside of the root element"
  | unexpectedEnd name => "unexpected closing tag </" ++ name ++ ">"
  | unclosedElement name => "unclosed element <" ++ name ++ ">"
  | noDocumentElement => "No root element found"
  | tree cause => cause.text
  | finished => "parser already finished"
  | stated text => text

/-- The wording of a document without a text. -/
def WriteError.message : WriteError → String
  | noDocumentElement => "document has no root element"
  | strayCharacterData => "character data outside of the root element"
  | nestedRoot => "root node nested inside the tree"
  | stated text => text

/-- The wording of malformed new content. -/
def ContentError.message : ContentError → String
  | badName name => "invalid XML name " ++ Text.quoted name
  | duplicateAttribute name element =>
    "duplicate attribute " ++ Text.quoted name ++ " on <" ++ element ++ ">"
  | cdataEnd => "CDATA may not contain \"]]>\""
  | commentHyphens => "comments may not contain \"--\""
  | reservedTarget => "processing instruction target \"xml\" is reserved"
  | instructionEnd => "processing instructions may not contain \"?>\""
  | stated text => text

/-- The wording of malformed path data. -/
def PathError.message : PathError → String
  | noCommand => "path data must start with a command"
  | afterClosePath => "expected a command after closepath"
  | unknownCommand letter => "unknown command " ++ Text.quotedChar letter
  | expectedNumber offset => "expected a number at offset " ++ toString offset
  | outOfRange token => "number " ++ Text.quoted token ++ " is out of range"
  | expectedFlag offset => "expected an arc flag at offset " ++ toString offset
  | stated text => text

/-- The wording of a refused configuration. -/
def ConfigError.message : ConfigError → String
  | malformed => "malformed configuration"
  | unknownPlugin name => "unknown plugin " ++ Text.quoted name
  | wrongType key expected found =>
    "parameter " ++ Text.quoted key ++ " must be " ++ expected ++ ", got " ++ found
  | tooLarge key => "parameter " ++ Text.quoted key ++ " is too large"
  | badPattern => "invalid attribute pattern:"
  | parameters plugin cause => "plugin " ++ plugin ++ ": " ++ cause.message
  | stated text => text

/-- The text of a failure, as it is shown. -/
def Error.message : Error → String
  | parse cause none => "XML parsing error: " ++ cause.message
  | parse cause (some position) =>
    "XML parsing error: " ++ cause.message ++ " at byte " ++ toString position
  | serialize cause => "Serialization error: " ++ cause.message
  | plugin name message => "Plugin " ++ name ++ " failed: " ++ message
  | invalidContent cause => "Invalid content item: " ++ cause.message
  | tree cause => cause.text
  | invalidPath cause => "Invalid path data: " ++ cause.message
  | config cause => "Configuration error: " ++ cause.message
  | io message => "IO error: " ++ message

/-- The category of a failure. -/
def Error.kind : Error → ErrorKind
  | parse .. => .parse
  | serialize _ => .serialize
  | plugin .. => .plugin
  | invalidContent _ => .invalidContent
  | tree _ => .tree
  | invalidPath _ => .invalidPath
  | config _ => .config
  | io _ => .io

/-- The name of a category. -/
def ErrorKind.name : ErrorKind → String
  | parse => "Parse"
  | serialize => "Serialize"
  | plugin => "Plugin"
  | invalidContent => "InvalidContent"
  | tree => "Tree"
  | invalidPath => "InvalidPath"
  | config => "Config"
  | io => "Io"

end SvgPress
