import SvgPress.Text.Split
import SvgPress.Error

/-!
# References in text

Markup writes a character as a reference `&name;` where the character itself would be read as
something else. Five names are known; every character also has the numeric forms `&#…;` and `&#x…;`.
`expand` replaces the references of a text; `escapeText` and `escapeValue` write a text so that
`expand` gives it back.
-/

namespace SvgPress.Markup

/-! ## Reading -/

/-- The character that one of the five known names stands for. -/
def namedCharacter? (name : List Char) : Option Char :=
  match String.ofList name with
  | "lt" => some '<'
  | "gt" => some '>'
  | "amp" => some '&'
  | "apos" => some '\''
  | "quot" => some '"'
  | _ => none

/-- The value of a digit in a base of at most sixteen. -/
def digitValue? (base : Nat) (c : Char) : Option Nat :=
  let value? :=
    if '0' ≤ c && c ≤ '9' then some (c.toNat - '0'.toNat)
    else if 'a' ≤ c && c ≤ 'f' then some (c.toNat - 'a'.toNat + 10)
    else if 'A' ≤ c && c ≤ 'F' then some (c.toNat - 'A'.toNat + 10)
    else none
  value?.filter (· < base)

/-- The number that digits continue, if it stays within 32 bits. -/
def readCode (base : Nat) : (soFar : Nat) → List Char → Except CharacterError Nat
  | soFar, [] => .ok soFar
  | soFar, c :: rest =>
    match digitValue? base c with
    | none => .error .digit
    | some digit =>
      let next := soFar * base + digit
      if next < Nat.pow 2 32 then readCode base next rest else .error .tooLarge

/-- The character that a number names. -/
def scalar (code : Nat) : Except CharacterError Char :=
  if code = 0 then .error .zero
  else if h : code.isValidChar then .ok (Char.ofNatAux code h)
  else .error (.notScalar code)

/-- The character that a numeric reference names; `digits` is what follows the `#`. -/
def numberedCharacter (digits : List Char) : Except CharacterError Char :=
  let (base, digits) := match digits with
    | 'x' :: rest => (16, rest)
    | _ => (10, digits)
  match digits with
  | [] => .error .empty
  | '+' :: _ | '-' :: _ => .error .sign
  | _ => (readCode base 0 digits).bind scalar

/-- The character that a reference stands for; `name` is what stands between `&` and `;`, and
`start` and `stop` are its bounds. -/
def resolve (start stop : Nat) (name : List Char) : Except EntityError Char :=
  match name with
  | '#' :: digits => (numberedCharacter digits).mapError .character
  | _ =>
    match namedCharacter? name with
    | some c => .ok c
    | none => .error (.unrecognized start stop (String.ofList name))

/-- Replace the references of a text of `total` bytes from a position on. Inside a reference,
`inside` holds the position of its `&` and what has been read of its name, the last character
first. -/
def expandFrom (total : Nat) :
    (position : Nat) → (inside : Option (Nat × List Char)) → List Char →
      Except EntityError (List Char)
  | _, none, [] => .ok []
  | _, some (start, _), [] => .error (.unterminated start total)
  | position, none, c :: rest =>
    if c = '&' then expandFrom total (position + c.utf8Size) (some (position, [])) rest
    else do
      let expanded ← expandFrom total (position + c.utf8Size) none rest
      return c :: expanded
  | position, some (start, name), c :: rest =>
    if c = ';' then do
      let resolved ← resolve (start + 1) position name.reverse
      let expanded ← expandFrom total (position + c.utf8Size) none rest
      return resolved :: expanded
    else if c = '&' then .error (.unterminated start total)
    else expandFrom total (position + c.utf8Size) (some (start, c :: name)) rest

/-- Replace all references of a text by the characters they stand for. -/
def expand (text : String) : Except EntityError String :=
  (expandFrom text.utf8ByteSize 0 none text.toList).map String.ofList

/-! ## Writing -/

/-- The written form of a character in text. -/
def escapeTextChar (c : Char) : String :=
  if c = '&' then "&amp;"
  else if c = '<' then "&lt;"
  else if c = '>' then "&gt;"
  else c.toString

/-- The written form of a character in an attribute value between two quotes `quote`. -/
def escapeValueChar (quote c : Char) : String :=
  if c = quote then (if c = '"' then "&quot;" else "&apos;")
  else escapeTextChar c

/-- The written form of character data. -/
def escapeText (s : String) : String :=
  s.toList.foldl (fun out c => out ++ escapeTextChar c) ""

/-- The written form of an attribute value between two quotes `quote`. -/
def escapeValue (quote : Char) (s : String) : String :=
  s.toList.foldl (fun out c => out ++ escapeValueChar quote c) ""

end SvgPress.Markup
