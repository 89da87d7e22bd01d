import SvgPress.Markup.Entity
import SvgPress.Text.Blank
import SvgPress.Element

/-!
# Tags

What stands between the delimiters of a start tag is a name followed by attributes. Attributes are
read in order up to the first fault, so that a reader can decide whether an earlier attribute or the
fault counts. Offsets count bytes and start at the tag's name.
-/

namespace SvgPress.Markup

open SvgPress.Text

/-- A tag as it is written: its name, and everything that follows the name. -/
structure Tag where
  /-- The name; it may be empty. -/
  name : String
  /-- The rest, which is empty or starts with a blank. -/
  rest : List Char
deriving DecidableEq

/-- The tag with the given content: the name ends at the first blank. -/
def Tag.ofContent (content : List Char) : Tag :=
  let (name, rest) := content.span (!isBlank ·)
  ⟨String.ofList name, rest⟩

/-- An attribute as it is written: its value holds references still. -/
structure RawAttribute where
  /-- The key. -/
  key : String
  /-- The offset of the key. -/
  offset : Nat
  /-- What stands between the quotes. -/
  value : String
deriving DecidableEq

/-- Read one attribute. With `unique`, a key of the list `seen` is a fault. Gives the attribute with
what follows it and the offset there, or nothing at the end of the tag. -/
def readAttribute (unique : Bool) (seen : List RawAttribute) (offset : Nat) (text : List Char) :
    Except AttributeError (Option (RawAttribute × Nat × List Char)) :=
  let (blanks, text) := text.span isBlank
  let keyOffset := offset + byteLength blanks
  match text with
  | [] => .ok none
  | first :: text =>
    let (others, text) := text.span fun c => c != '=' && !isBlank c
    let key := String.ofList (first :: others)
    let (blanks, text) := text.span isBlank
    let offset := keyOffset + byteLength (first :: others) + byteLength blanks
    match text with
    | '=' :: text =>
      match if unique then seen.find? (·.key == key) else none with
      | some earlier => .error (.duplicated keyOffset earlier.offset)
      | none =>
        let (blanks, text) := text.span isBlank
        let offset := offset + 1 + byteLength blanks
        match text with
        | [] => .error (.expectedValue offset)
        | quote :: text =>
          if quote == '"' || quote == '\'' then
            let (value, text) := text.span (· != quote)
            let offset := offset + 1 + byteLength value
            match text with
            | [] => .error (.expectedQuote offset quote)
            | _ :: text => .ok (some (⟨key, keyOffset, String.ofList value⟩, offset + 1, text))
          else .error (.unquotedValue offset)
    | _ => .error (.expectedEquals offset)

/-- Read at most `bound` attributes; gives those before the first fault, and the fault. -/
def readAttributes (unique : Bool) :
    (bound : Nat) → (seen : List RawAttribute) → (offset : Nat) → List Char →
      List RawAttribute × Option AttributeError
  | 0, seen, _, _ => (seen.reverse, none)
  | bound + 1, seen, offset, text =>
    match readAttribute unique seen offset text with
    | .error fault => (seen.reverse, some fault)
    | .ok none => (seen.reverse, none)
    | .ok (some (raw, offset, text)) => readAttributes unique bound (raw :: seen) offset text

/-- The attributes of a tag before the first fault, and the fault. An attribute takes at least one
character, so the bound is never reached. -/
def Tag.rawAttributes (tag : Tag) (unique : Bool) : List RawAttribute × Option AttributeError :=
  readAttributes unique (tag.rest.length + 1) [] tag.name.utf8ByteSize tag.rest

/-- The attribute with its references replaced. -/
def RawAttribute.resolve (raw : RawAttribute) : Except SyntaxError Attribute :=
  match expand raw.value with
  | .ok value => .ok (Attribute.ofStrings raw.key value)
  | .error cause => .error (.entity cause)

/-- The element that a start tag opens, or its first fault. -/
def Tag.element (tag : Tag) : Except SyntaxError Element := do
  let (raws, fault) := tag.rawAttributes true
  let attributes ← raws.mapM RawAttribute.resolve
  match fault with
  | some cause => .error (.badAttribute cause)
  | none => .ok ⟨QName.ofString tag.name, attributes⟩

end SvgPress.Markup
