import SvgPress.Css.Color

/-!
# Inline styles

An inline style is a list of declarations `property:value` with semicolons between them. White space
around a declaration, a property or a value does not count, and neither do empty declarations.
-/

namespace SvgPress.Css

open Text

/-- A part of an inline style between two semicolons. -/
inductive Declaration where
  /-- A property with its value. -/
  | pair (property value : String)
  /-- A part without a colon. -/
  | incomplete (text : String)
deriving DecidableEq

/-- The declaration that a part of a style spells, unless it is blank. -/
def Declaration.ofPart? (part : List Char) : Option Declaration :=
  match splitFirst ':' part with
  | some (property, value) =>
    some (.pair (String.ofList (strip isSpace property)) (String.ofList (strip isSpace value)))
  | none =>
    match strip isSpace part with
    | [] => none
    | text => some (.incomplete (String.ofList text))

/-- The declarations of an inline style. -/
def declarations (style : String) : List Declaration :=
  (pieces ';' style.toList).filterMap Declaration.ofPart?

/-- The written form of a declaration. -/
def Declaration.show : Declaration → String
  | pair property value => property ++ ":" ++ value
  | incomplete text => text

/-- The written form of an inline style. -/
def showDeclarations (ds : List Declaration) : String :=
  ";".intercalate (ds.map Declaration.show)

/-- Whether a declaration gives a property the value that it has anyway. -/
def isDefault (property value : String) : Bool :=
  match property, value with
  | "fill-opacity", "1" => true
  | "stroke-opacity", "1" => true
  | "opacity", "1" => true
  | "font-style", "normal" => true
  | "font-weight", "normal" => true
  | "font-weight", "400" => true
  | _, _ => false

/-- Whether a declaration is complete and not a default. -/
def Declaration.isNeeded : Declaration → Bool
  | pair property value => property != "" && value != "" && !isDefault property value
  | incomplete _ => false

/-- An inline style without the declarations that are not needed. -/
def minifyStyle (style : String) : String :=
  showDeclarations ((declarations style).filter Declaration.isNeeded)

/-- A declaration with its color, if it has one, in short notation. -/
def Declaration.shortenColor : Declaration → Declaration
  | pair property value =>
    .pair property (if colorProperties.contains property then shorten value else value)
  | incomplete text => .incomplete text

/-- An inline style with all colors in short notation. -/
def shortenStyleColors (style : String) : String :=
  showDeclarations ((declarations style).map Declaration.shortenColor)

end SvgPress.Css
