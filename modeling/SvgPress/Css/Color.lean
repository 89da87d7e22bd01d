import SvgPress.Text.Blank
import SvgPress.Text.Split

/-!
# Colors

A color is written as a keyword or in hexadecimal. `shorten` gives a color its shortest notation
among the ones it knows, and only drops white space around any other text.
-/

namespace SvgPress.Css

open Text

/-- The properties whose values are colors. -/
def colorProperties : List String :=
  ["fill", "stroke", "stop-color", "flood-color", "lighting-color", "color"]

/-- The lower case of a character, where it is a character of ASCII: that of an ASCII letter and of
the Kelvin sign. -/
def lowerToAscii (c : Char) : Char :=
  if c = '\u212A' then 'k' else c.toLower

/-- Whether a character is a hexadecimal digit in lower case. -/
def isLowerHex (c : Char) : Bool :=
  isDigit c || ('a' ≤ c && c ≤ 'f')

/-- The short notation of colors with a name of their own, given in lower case. -/
def named? : String → Option String
  | "white" | "#ffffff" | "#fff" => some "#fff"
  | "black" | "#000000" | "#000" => some "#000"
  | "#ff0000" | "#f00" | "red" => some "red"
  | "#0000ff" | "#00f" | "blue" => some "blue"
  | _ => none

/-- The notation of a color in hexadecimal digits, given in lower case: one digit for each component
if its two digits agree. -/
def hex? : List Char → Option (List Char)
  | ['#', r, r', g, g', b, b'] =>
    if [r, r', g, g', b, b'].all isLowerHex then
      some (if r = r' && g = g' && b = b' then ['#', r, g, b] else ['#', r, r', g, g', b, b'])
    else none
  | _ => none

/-- The short notation of a color. -/
def shorten (color : String) : String :=
  let trimmed := strip isSpace color.toList
  let lower := trimmed.map lowerToAscii
  match named? (String.ofList lower) with
  | some short => short
  | none =>
    match hex? lower with
    | some short => String.ofList short
    | none => String.ofList trimmed

end SvgPress.Css
