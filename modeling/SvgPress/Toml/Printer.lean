import SvgPress.Toml.Value
import SvgPress.Number.Decimal

/-!
# Writing configuration values

The written form of values on one line. Strings take the plainest quotes that need no escapes, and
quotes with escapes where none do.
-/

namespace SvgPress.Toml

/-! ## Numbers and times -/

/-- The digits of a number, with zeros in front up to a width. -/
def padded (width n : Nat) : String :=
  let digits := Decimal.digitsOfNat n
  String.ofList (List.replicate (width - digits.length) '0' ++ digits)

/-- The notation of a positive decimal, with a point and without an exponent. -/
def showDecimal (d : Decimal) : String :=
  let digits := Decimal.digitsOfNat d.digits
  let places := digits.length + d.exponent
  let chars :=
    if 0 ≤ d.exponent then digits ++ List.replicate d.exponent.toNat '0' ++ ['.', '0']
    else if 0 < places then digits.take places.toNat ++ '.' :: digits.drop places.toNat
    else '0' :: '.' :: List.replicate (-places).toNat '0' ++ digits
  String.ofList chars

/-- The written form of a floating-point number. -/
def showFloat : Binary64 → String
  | .finite negative significand exponent =>
    let text :=
      if significand = 0 then "0.0" else showDecimal (Binary64.shortest .up significand exponent)
    if negative then "-" ++ text else text
  | .infinite negative => if negative then "-inf" else "inf"
  | .nan _ => "nan"

/-- The written form of a date. -/
def Date.show (d : Date) : String :=
  padded 4 d.year ++ "-" ++ padded 2 d.month ++ "-" ++ padded 2 d.day

/-- The written form of a time, with no more digits of a second than it has. -/
def Time.show (t : Time) : String :=
  let fraction :=
    if t.nanosecond = 0 then ""
    else
      let digits := (padded 9 t.nanosecond).toList
      "." ++ String.ofList (digits.reverse.dropWhile (· == '0')).reverse
  padded 2 t.hour ++ ":" ++ padded 2 t.minute ++ ":" ++ padded 2 t.second ++ fraction

/-- The written form of an offset. -/
def Offset.show : Offset → String
  | universal => "Z"
  | minutes n =>
    (if n < 0 then "-" else "+") ++ padded 2 (n.natAbs / 60) ++ ":" ++ padded 2 (n.natAbs % 60)

/-- The written form of a date, a time, or both. -/
def DateTime.show (t : DateTime) : String :=
  let date := (t.date.map Date.show).getD ""
  let time := (t.time.map Time.show).getD ""
  let between := if t.date.isSome && t.time.isSome then "T" else ""
  date ++ between ++ time ++ (t.offset.map Offset.show).getD ""

/-! ## Strings -/

/-- The length of the longest run of a character in a text; `run` is the run before it. -/
def longestRun (c : Char) : (run longest : Nat) → List Char → Nat
  | run, longest, [] => max run longest
  | run, longest, d :: rest =>
    if d = c then longestRun c (run + 1) longest rest else longestRun c 0 (max run longest) rest

/-- Whether a character can only be written as an escape. -/
def needsCode (c : Char) : Bool :=
  (c.toNat ≤ 0x1F && c != '\t' && c != '\n') || c.toNat == 0x7F

/-- The escape of a character by its number. -/
def codeEscape (c : Char) : String :=
  let digits := (Nat.toDigits 16 c.toNat).map Char.toUpper
  "\\u" ++ String.ofList (List.replicate (4 - digits.length) '0' ++ digits)

/-- The written form of a character between double quotes; `quotes` double quotes stand directly
before it, and `allowed` may stand in a row. -/
def escapeBasic (multiline : Bool) (allowed quotes : Nat) (c : Char) : String :=
  if c = '"' then (if allowed ≤ quotes then "\\\"" else "\"")
  else if c = '\\' then "\\\\"
  else if c = '\x08' then "\\b"
  else if c = '\t' then "\\t"
  else if c = '\n' then (if multiline then "\n" else "\\n")
  else if c = '\x0c' then "\\f"
  else if c = '\r' then "\\r"
  else if needsCode c then codeEscape c
  else c.toString

/-- A text between double quotes, `quotes` of which stand directly before it. -/
def escapeAll (multiline : Bool) (allowed : Nat) : (quotes : Nat) → List Char → String
  | _, [] => ""
  | quotes, c :: rest =>
    let written := escapeBasic multiline allowed quotes c
    let quotes := if c = '"' then (if allowed ≤ quotes then 0 else quotes + 1) else 0
    written ++ escapeAll multiline allowed quotes rest

/-- The written form of a string. -/
def showString (s : String) : String :=
  let cs := s.toList
  let coded := cs.any needsCode
  let backslash := cs.contains '\\'
  let newline := cs.contains '\n'
  let singles := longestRun '\'' 0 0 cs
  let doubles := longestRun '"' 0 0 cs
  let lead := if newline then "\n" else ""
  let multilineBasic := "\"\"\"" ++ lead ++ escapeAll true 2 0 cs ++ "\"\"\""
  if !coded && !backslash && doubles == 0 && !newline then "\"" ++ escapeAll false 0 0 cs ++ "\""
  else if !coded && singles == 0 && !newline then "'" ++ s ++ "'"
  else if !coded && !backslash && doubles ≤ 2 then multilineBasic
  else if !coded && singles ≤ 2 then "'''" ++ lead ++ s ++ "'''"
  else if newline then multilineBasic
  else "\"" ++ escapeAll false 0 0 cs ++ "\""

/-- Whether a character can stand in a key without quotes. -/
def isBareKeyChar (c : Char) : Bool :=
  c.isAlphanum || c == '_' || c == '-'

/-- The written form of a key. -/
def showKey (key : String) : String :=
  let cs := key.toList
  if !cs.isEmpty && cs.all isBareKeyChar then key
  else if !cs.any (fun c => needsCode c || c == '\n' || c == '\\' || c == '"') then
    "\"" ++ escapeAll false 0 0 cs ++ "\""
  else if !cs.any (fun c => needsCode c || c == '\n' || c == '\'') then "'" ++ key ++ "'"
  else "\"" ++ escapeAll false 0 0 cs ++ "\""

/-! ## Values -/

mutual

/-- The written form of a value inside an array or a table. -/
def Value.showInner : Value → String
  | .string s => showString s
  | .integer n => toString n
  | .float x => showFloat x
  | .boolean b => if b then "true" else "false"
  | .datetime t => t.show
  | .array items => "[" ++ showItems items ++ "]"
  | .table [] => "\x7b\x7d"
  | .table (entry :: rest) => "\x7b " ++ showEntries (entry :: rest) ++ " \x7d"

/-- The written form of the items of an array. -/
def showItems : List Value → String
  | [] => ""
  | [item] => item.showInner
  | item :: next :: rest => item.showInner ++ ", " ++ showItems (next :: rest)

/-- The written form of the entries of a table. -/
def showEntries : List (String × Value) → String
  | [] => ""
  | [(key, value)] => showKey key ++ " = " ++ value.showInner
  | (key, value) :: next :: rest =>
    showKey key ++ " = " ++ value.showInner ++ ", " ++ showEntries (next :: rest)

end

/-- The written form of a value standing alone. A time is written as a table of one entry, as the
format has no place for a time outside arrays and tables. -/
def Value.show : Value → String
  | .datetime t => (Value.table [(datetimeKey, .string t.show)]).showInner
  | value => value.showInner

end SvgPress.Toml
