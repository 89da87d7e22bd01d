import SvgPress.Text.Hidden

/-!
# Quoted text

Messages quote the names and keys they speak of. Inside the quotes the delimiter and the backslash
are escaped by a backslash, four controls have short names, and every other character that would
not show is written by its number in braces.
-/

namespace SvgPress.Text

/-- The lower-case hexadecimal digits of a number. -/
def hexDigits (n : Nat) : String :=
  String.ofList (Nat.toDigits 16 n)

/-- The written form of one character between two delimiters `delimiter`. -/
def escapeQuoted (delimiter c : Char) : String :=
  if c = '\t' then "\\t"
  else if c = '\n' then "\\n"
  else if c = '\r' then "\\r"
  else if c.toNat = 0 then "\\0"
  else if c = '\\' || c = delimiter then "\\" ++ c.toString
  else if isHidden c then "\\u" ++ "\x7b" ++ hexDigits c.toNat ++ "\x7d"
  else c.toString

/-- A string between double quotes, in the form messages use. -/
def quoted (s : String) : String :=
  "\"" ++ s.toList.foldl (fun out c => out ++ escapeQuoted '"' c) "" ++ "\""

/-- A character between single quotes, in the form messages use. -/
def quotedChar (c : Char) : String :=
  "'" ++ escapeQuoted '\'' c ++ "'"

end SvgPress.Text
