import SvgPress.Pattern.Basic
import SvgPress.Pattern.Flags
import SvgPress.Unicode.Lookup

/-!
# Escapes in patterns

What a backslash and the text after it stand for: a character, a set of characters or an assertion.
References to groups are no part of the language.
-/

namespace SvgPress.Pattern

open Text Unicode

/-- What an escape stands for. -/
inductive Escape where
  /-- A character. -/
  | literal (c : Char)
  /-- A character of a set. -/
  | set (s : CharSet)
  /-- A place between two characters. -/
  | assertion (a : Assertion)

/-! ## Characters by number -/

/-- The value of a hexadecimal digit. -/
def hexValue? (c : Char) : Option Nat :=
  if isDigit c then some (c.toNat - '0'.toNat)
  else if 'a' ≤ c && c ≤ 'f' then some (c.toNat - 'a'.toNat + 10)
  else if 'A' ≤ c && c ≤ 'F' then some (c.toNat - 'A'.toNat + 10)
  else none

/-- The character of a number in hexadecimal digits. -/
def charOfHex (digits : List Char) : Option Char := do
  if digits.isEmpty then none
  let values ← digits.mapM hexValue?
  let code := values.foldl (fun n d => n * 16 + d) 0
  if h : code.isValidChar then some (Char.ofNatAux code h) else none

/-- The next characters, as many as `count`, and the rest of the text. -/
def readExactly (f : Flags) : (count : Nat) → List Char → Option (List Char × List Char)
  | 0, cs => some ([], cs)
  | _ + 1, [] => none
  | count + 1, c :: rest => do
    let (cs, rest) ← readExactly f count (f.skip rest)
    return (c :: cs, rest)

/-- The text up to a closing brace, and what follows the brace. -/
def readBraced (f : Flags) (cs : List Char) : Option (List Char × List Char) :=
  match f.takeWhile (· != '\x7d') false cs with
  | (name, '\x7d' :: rest) => some (name, rest)
  | _ => none

/-- A character by its number, in braces or with a fixed number of digits. Two digits stand for a
byte, which has to be a character of ASCII without Unicode. -/
def readHex (f : Flags) (count : Nat) (cs : List Char) : Option (Escape × List Char) :=
  match f.skip cs with
  | '\x7b' :: rest => do
    let (digits, rest) ← readBraced f rest
    let c ← charOfHex digits
    return (.literal c, rest)
  | cs => do
    let (digits, rest) ← readExactly f count cs
    let c ← charOfHex digits
    if count = 2 && !f.allows c then none else return (.literal c, rest)

/-! ## Sets -/

/-- The decimal digits of ASCII or of Unicode. -/
def digitSet (f : Flags) : CharSet :=
  if f.unicode then decimalDigits else .range '0' '9'

/-- The white space of ASCII or of Unicode. -/
def spaceSet (f : Flags) : CharSet :=
  if f.unicode then whiteSpace else .ofRanges [⟨'\t', '\r'⟩, .single ' ']

/-- The word characters of ASCII or of Unicode. -/
def wordSet (f : Flags) : CharSet :=
  if f.unicode then wordChars else asciiWord

/-- The class of a name, or of a property and its value with `!=`, `:` or `=` between them, the
first of these that occurs. All three signs mean the same. -/
def classOfName? (name : List Char) : Option CharSet :=
  match (cutAt ['!', '='] name) <|> (splitFirst ':' name) <|> (splitFirst '=' name) with
  | some (property, value) => classOf? (String.ofList property) (String.ofList value)
  | none => class? (String.ofList name)

/-- A class by its name in braces, or by one letter. -/
def readClassName (f : Flags) (negated : Bool) (cs : List Char) :
    Option (Escape × List Char) := do
  let (name, rest) ← match f.skip cs with
    | [] => none
    | '\x7b' :: rest => readBraced f rest
    | c :: rest => if c = '\\' then none else some ([c], rest)
  let s ← classOfName? name
  if f.unicode then (f.resolve negated s).map (.set ·, rest) else none

/-! ## Boundaries -/

/-- The boundary of a name. -/
def boundary? : String → Option Boundary
  | "start" => some .start
  | "end" => some .finish
  | "start-half" => some .noneBefore
  | "end-half" => some .noneAfter
  | _ => none

/-- What follows `\b`: the name of a boundary in braces, if it does not look like a repetition. -/
def readBoundary (f : Flags) (cs : List Char) : Option (Escape × List Char) :=
  let isNameChar (c : Char) : Bool := c.isAlpha || c == '-'
  match cs with
  | '\x7b' :: rest =>
    match f.takeWhile isNameChar false rest with
    | (_, []) => none
    | ([], _) => some (.assertion (.word f.unicode .edge), cs)
    | (name, '\x7d' :: rest) =>
      (boundary? (String.ofList name)).map fun b => (.assertion (.word f.unicode b), rest)
    | _ => none
  | _ => some (.assertion (.word f.unicode .edge), cs)

/-! ## Escapes -/

/-- Whether a backslash before a character makes a literal of it. -/
def isEscapable (c : Char) : Bool :=
  c.toNat < 0x80 && !c.isAlphanum && c != '<' && c != '>'

/-- Read what follows a backslash. -/
def readEscape (f : Flags) (cs : List Char) : Option (Escape × List Char) :=
  match cs with
  | [] => none
  | c :: rest =>
    match c with
    | 'd' => some (.set (digitSet f), rest)
    | 's' => some (.set (spaceSet f), rest)
    | 'w' => some (.set (wordSet f), rest)
    | 'D' => (f.compl? (digitSet f)).map (.set ·, rest)
    | 'S' => (f.compl? (spaceSet f)).map (.set ·, rest)
    | 'W' => (f.compl? (wordSet f)).map (.set ·, rest)
    | 'p' => readClassName f false rest
    | 'P' => readClassName f true rest
    | 'a' => some (.literal '\x07', rest)
    | 'f' => some (.literal '\x0c', rest)
    | 't' => some (.literal '\t', rest)
    | 'n' => some (.literal '\n', rest)
    | 'r' => some (.literal '\r', rest)
    | 'v' => some (.literal '\x0b', rest)
    | 'x' => readHex f 2 rest
    | 'u' => readHex f 4 rest
    | 'U' => readHex f 8 rest
    | 'A' => some (.assertion .textStart, rest)
    | 'z' => some (.assertion .textEnd, rest)
    | 'b' => readBoundary f rest
    | 'B' => some (.assertion (.word f.unicode .noEdge), rest)
    | '<' => some (.assertion (.word f.unicode .start), rest)
    | '>' => some (.assertion (.word f.unicode .finish), rest)
    | _ => if isEscapable c then some (.literal c, rest) else none

end SvgPress.Pattern
