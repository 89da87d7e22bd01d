import SvgPress.Toml.Draft
import SvgPress.Number.Decimal

/-!
# Reading configuration text

The grammar of TOML 1.0. Every reader takes what it knows off the start of a text and gives the
rest; a text that is malformed anywhere has no reading. Values may be nested 79 levels deep.
-/

namespace SvgPress.Toml

open Text

/-! ## Blanks and comments -/

/-- The white space of a line. -/
def isLineSpace (c : Char) : Bool :=
  c == ' ' || c == '\t'

/-- Drop white space. -/
def skipSpace (cs : List Char) : List Char :=
  cs.dropWhile isLineSpace

/-- Whether a character may stand in a comment, or in a string apart from quotes. -/
def isPlain (c : Char) : Bool :=
  c == '\t' || (0x20 ≤ c.toNat && c.toNat ≤ 0x7E) || 0x80 ≤ c.toNat

/-- Drop a comment. -/
def skipComment (cs : List Char) : List Char :=
  match cs with
  | '#' :: rest => rest.dropWhile isPlain
  | _ => cs

/-- Take a line break. -/
def newline? (cs : List Char) : Option (List Char) :=
  match cs with
  | '\n' :: rest => some rest
  | '\r' :: '\n' :: rest => some rest
  | _ => none

/-- Take the rest of a line that holds nothing of meaning. -/
def endOfLine? (cs : List Char) : Option (List Char) :=
  match skipComment (skipSpace cs) with
  | [] => some []
  | rest => newline? rest

/-- Drop white space, comments and line breaks, at most `bound` of each. -/
def skipLines : (bound : Nat) → List Char → List Char
  | 0, cs => cs
  | bound + 1, cs =>
    let rest := skipComment (skipSpace cs)
    match newline? rest with
    | some rest => skipLines bound rest
    | none => rest

/-- Drop white space, comments and line breaks. -/
def skipBlankLines (cs : List Char) : List Char :=
  skipLines cs.length cs

/-- Drop white space and line breaks, at most `bound` of each. -/
def skipBreaks : (bound : Nat) → List Char → List Char
  | 0, cs => cs
  | bound + 1, cs =>
    match newline? (skipSpace cs) with
    | some rest => skipBreaks bound rest
    | none => skipSpace cs

/-! ## Strings -/

/-- The character of a number of hexadecimal digits. -/
def readCodePoint (count : Nat) (cs : List Char) : Option (Char × List Char) := do
  let digits := cs.take count
  if digits.length < count then none
  let values ← digits.mapM fun c =>
    if isDigit c then some (c.toNat - '0'.toNat)
    else if 'a' ≤ c && c ≤ 'f' then some (c.toNat - 'a'.toNat + 10)
    else if 'A' ≤ c && c ≤ 'F' then some (c.toNat - 'A'.toNat + 10)
    else none
  let code := values.foldl (fun n d => n * 16 + d) 0
  if h : code.isValidChar then some (Char.ofNatAux code h, cs.drop count) else none

/-- The character of an escape; `cs` starts after the backslash. -/
def readEscape (cs : List Char) : Option (Char × List Char) :=
  match cs with
  | 'b' :: rest => some ('\x08', rest)
  | 't' :: rest => some ('\t', rest)
  | 'n' :: rest => some ('\n', rest)
  | 'f' :: rest => some ('\x0c', rest)
  | 'r' :: rest => some ('\r', rest)
  | '"' :: rest => some ('"', rest)
  | '\\' :: rest => some ('\\', rest)
  | 'u' :: rest => readCodePoint 4 rest
  | 'U' :: rest => readCodePoint 8 rest
  | _ => none

/-- A string between double quotes on one line; `read` is what has been read, last first. -/
def readBasic : (bound : Nat) → (read : List Char) → List Char → Option (List Char × List Char)
  | 0, _, _ => none
  | bound + 1, read, cs =>
    match cs with
    | '"' :: rest => some (read.reverse, rest)
    | '\\' :: rest => (readEscape rest).bind fun (c, rest) => readBasic bound (c :: read) rest
    | c :: rest => if isPlain c then readBasic bound (c :: read) rest else none
    | [] => none

/-- A string between single quotes on one line. -/
def readLiteral (cs : List Char) : Option (List Char × List Char) :=
  let (text, rest) := cs.span fun c => isPlain c && c != '\''
  match rest with
  | '\'' :: rest => some (text, rest)
  | _ => none

/-- The end of a string between three quotes, and the quotes before it that belong to the string;
there are at most two of them. -/
def readTripleEnd (quote : Char) (cs : List Char) : Option (List Char × List Char) :=
  let (quotes, rest) := cs.span (· == quote)
  if 3 ≤ quotes.length && quotes.length ≤ 5 then some (quotes.drop 3, rest)
  else if 5 < quotes.length then some ([quote, quote], cs.drop 5)
  else none

/-- A string between three double quotes. -/
def readMultilineBasic :
    (bound : Nat) → (read : List Char) → List Char → Option (List Char × List Char)
  | 0, _, _ => none
  | bound + 1, read, cs =>
    match cs with
    | [] => none
    | '"' :: rest =>
      match readTripleEnd '"' cs with
      | some (quotes, rest) => some (read.reverse ++ quotes, rest)
      | none => readMultilineBasic bound ('"' :: read) rest
    | '\\' :: rest =>
      match newline? (skipSpace rest) with
      | some below => readMultilineBasic bound read (skipBreaks below.length below)
      | none => (readEscape rest).bind fun (c, rest) => readMultilineBasic bound (c :: read) rest
    | c :: rest =>
      match newline? cs with
      | some below => readMultilineBasic bound ('\n' :: read) below
      | none => if isPlain c then readMultilineBasic bound (c :: read) rest else none

/-- A string between three single quotes. -/
def readMultilineLiteral :
    (bound : Nat) → (read : List Char) → List Char → Option (List Char × List Char)
  | 0, _, _ => none
  | bound + 1, read, cs =>
    match cs with
    | [] => none
    | '\'' :: rest =>
      match readTripleEnd '\'' cs with
      | some (quotes, rest) => some (read.reverse ++ quotes, rest)
      | none => readMultilineLiteral bound ('\'' :: read) rest
    | c :: rest =>
      match newline? cs with
      | some below => readMultilineLiteral bound ('\n' :: read) below
      | none => if isPlain c then readMultilineLiteral bound (c :: read) rest else none

/-- A string in any quotes. -/
def readString (cs : List Char) : Option (String × List Char) :=
  let result := match cs with
    | '"' :: '"' :: '"' :: rest =>
      readMultilineBasic (rest.length + 1) [] ((newline? rest).getD rest)
    | '\'' :: '\'' :: '\'' :: rest =>
      readMultilineLiteral (rest.length + 1) [] ((newline? rest).getD rest)
    | '"' :: rest => readBasic (rest.length + 1) [] rest
    | '\'' :: rest => readLiteral rest
    | _ => none
  result.map fun (text, rest) => (String.ofList text, rest)

/-! ## Keys -/

/-- A key without dots. -/
def readSimpleKey (cs : List Char) : Option (String × List Char) :=
  match cs with
  | '"' :: rest =>
    (readBasic (rest.length + 1) [] rest).map fun (text, rest) => (String.ofList text, rest)
  | '\'' :: rest => (readLiteral rest).map fun (text, rest) => (String.ofList text, rest)
  | _ =>
    let (key, rest) := cs.span fun c => c.isAlphanum || c == '_' || c == '-'
    if key.isEmpty then none else some (String.ofList key, rest)

/-- A dotted key with white space around its parts; `read` are its parts so far, last first. -/
def readKeyParts :
    (bound : Nat) → (read : List String) → List Char → Option (List String × List Char)
  | 0, _, _ => none
  | bound + 1, read, cs => do
    let (key, rest) ← readSimpleKey (skipSpace cs)
    match skipSpace rest with
    | '.' :: rest => readKeyParts bound (key :: read) rest
    | rest => return ((key :: read).reverse, rest)

/-- The number of levels of nesting, and of parts of a key. -/
def depthLimit : Nat := 79

/-- A dotted key: the path to its table, and its last part. -/
def readKey (cs : List Char) : Option ((List String × String) × List Char) := do
  let (parts, rest) ← readKeyParts depthLimit [] cs
  let last ← parts.getLast?
  return ((parts.dropLast, last), rest)

/-! ## Numbers -/

/-- Digits with single underscores between them. -/
def readDigits (isDigit : Char → Bool) (cs : List Char) : Option (List Char × List Char) :=
  let rec go : (bound : Nat) → List Char → List Char × List Char
    | 0, cs => ([], cs)
    | bound + 1, cs =>
      let (digits, rest) := cs.span isDigit
      match rest with
      | '_' :: next :: rest' =>
        if isDigit next then
          let (more, rest) := go bound (next :: rest')
          (digits ++ more, rest)
        else (digits, rest)
      | _ => (digits, rest)
  match cs with
  | [] => none
  | c :: _ => if isDigit c then some (go cs.length cs) else none

/-- The digits of an integer without leading zeros. -/
def readWhole (cs : List Char) : Option (List Char × List Char) :=
  match cs with
  | '0' :: rest => some (['0'], rest)
  | _ => readDigits isDigit cs

/-- An integer that fits into 64 bits with a sign. -/
def integerOf (n : Int) : Option Value :=
  if -Int.pow 2 63 ≤ n && n < Int.pow 2 63 then some (.integer n) else none

/-- The value of a digit in hexadecimal. -/
def digitValue (c : Char) : Nat :=
  if isDigit c then c.toNat - '0'.toNat else c.toLower.toNat - 'a'.toNat + 10

/-- An integer in a base of two, eight or sixteen; `cs` starts after its mark. -/
def readBased (base : Nat) (cs : List Char) : Option (Value × List Char) := do
  let isBaseDigit (c : Char) : Bool :=
    (isDigit c || ('a' ≤ c && c ≤ 'f') || ('A' ≤ c && c ≤ 'F')) && digitValue c < base
  let (digits, rest) ← readDigits isBaseDigit cs
  let v ← integerOf (digits.foldl (fun n c => n * base + digitValue c) 0 : Nat)
  return (v, rest)

/-- A decimal integer. -/
def readInteger (cs : List Char) : Option (Value × List Char) := do
  let (negative, rest) := Binary64.takeSign cs
  let (digits, rest) ← readWhole rest
  let n : Int := Decimal.natOfDigits digits
  let v ← integerOf (if negative then -n else n)
  return (v, rest)

/-- The exponent of a float, if there is one. -/
def readExponent (cs : List Char) : Option (Int × List Char) :=
  match cs with
  | [] => none
  | marker :: rest =>
    if marker = 'e' || marker = 'E' then do
      let (negative, rest) := Binary64.takeSign rest
      let (digits, rest) ← readDigits isDigit rest
      let n : Int := Decimal.natOfDigits digits
      return (if negative then -n else n, rest)
    else none

/-- The fraction of a float, if there is one. -/
def readFraction (cs : List Char) : Option (List Char × List Char) :=
  match cs with
  | '.' :: rest => readDigits isDigit rest
  | _ => none

/-- The names of the infinite and undefined values. -/
def readSpecialFloat (negative : Bool) (cs : List Char) : Option (Value × List Char) :=
  match cs with
  | 'i' :: 'n' :: 'f' :: rest => some (.float (.infinite negative), rest)
  | 'n' :: 'a' :: 'n' :: rest => some (.float (.nan negative), rest)
  | _ => none

/-- A float: an integer with a fraction or an exponent, or a name. One too large is malformed if it
is positive. Gives nothing if there is no float, and nothing inside if it is malformed. -/
def readFloat (cs : List Char) : Option (Option (Value × List Char)) :=
  let (negative, rest) := Binary64.takeSign cs
  match readSpecialFloat negative rest with
  | some result => some (some result)
  | none => do
    let (whole, rest) ← readWhole rest
    let fraction := readFraction rest
    let (part, rest) := fraction.getD ([], rest)
    let exponent := readExponent rest
    if fraction.isNone && exponent.isNone then none
    let (power, rest) := exponent.getD (0, rest)
    let d : Decimal := ⟨Decimal.natOfDigits (whole ++ part), power - (part.length : Int)⟩
    match Binary64.ofDecimal negative d with
    | .infinite false => some none
    | x => some (some (.float x, rest))

/-! ## Dates and times -/

/-- A number of exactly `count` digits. -/
def readFixed (count : Nat) (cs : List Char) : Option (Nat × List Char) :=
  let digits := cs.take count
  if digits.length = count && digits.all isDigit then
    some (Decimal.natOfDigits digits, cs.drop count)
  else none

/-- A given character. -/
def expect (c : Char) (cs : List Char) : Option (List Char) :=
  match cs with
  | d :: rest => if d = c then some rest else none
  | [] => none

/-- The number of days of a month. -/
def daysIn (year month : Nat) : Nat :=
  if month = 2 then
    if (year % 4 = 0 && year % 100 != 0) || year % 400 = 0 then 29 else 28
  else if [4, 6, 9, 11].contains month then 30
  else 31

/-- A date. -/
def readDate (cs : List Char) : Option (Date × List Char) := do
  let (year, rest) ← readFixed 4 cs
  let (month, rest) ← readFixed 2 (← expect '-' rest)
  let (day, rest) ← readFixed 2 (← expect '-' rest)
  if 1 ≤ month && month ≤ 12 && 1 ≤ day && day ≤ daysIn year month then
    return (⟨year, month, day⟩, rest)
  else none

/-- The fraction of a second in nanoseconds; further digits are dropped. -/
def readNanoseconds (cs : List Char) : Nat × List Char :=
  match cs with
  | '.' :: rest =>
    let (digits, after) := rest.span isDigit
    if digits.isEmpty then (0, cs)
    else
      let kept := digits.take 9
      (Decimal.natOfDigits (kept ++ List.replicate (9 - kept.length) '0'), after)
  | _ => (0, cs)

/-- A time of day. -/
def readTime (cs : List Char) : Option (Time × List Char) := do
  let (hour, rest) ← readFixed 2 cs
  let (minute, rest) ← readFixed 2 (← expect ':' rest)
  let (second, rest) ← readFixed 2 (← expect ':' rest)
  if hour ≤ 23 && minute ≤ 59 && second ≤ 60 then
    let (nanosecond, rest) := readNanoseconds rest
    return (⟨hour, minute, second, nanosecond⟩, rest)
  else none

/-- An offset from universal time. -/
def readOffset (cs : List Char) : Option (Offset × List Char) := do
  match cs with
  | [] => none
  | c :: rest =>
    if c = 'Z' || c = 'z' then return (.universal, rest)
    else if c = '+' || c = '-' then
      let (hours, rest) ← readFixed 2 rest
      let (minutes, rest) ← readFixed 2 (← expect ':' rest)
      if 23 < hours || 59 < minutes then none
      let total : Int := hours * 60 + minutes
      return (.minutes (if c = '-' then -total else total), rest)
    else none

/-- A date, a time, or both with an optional offset. -/
def readDateTime (cs : List Char) : Option (DateTime × List Char) :=
  match readDate cs with
  | none => (readTime cs).map fun (time, rest) => (⟨none, some time, none⟩, rest)
  | some (date, rest) =>
    let time? : Option (Time × List Char) :=
      match rest with
      | [] => none
      | between :: after =>
        if between = 'T' || between = 't' || between = ' ' then readTime after else none
    match time? with
    | none => some (⟨some date, none, none⟩, rest)
    | some (time, rest) =>
      match readOffset rest with
      | none => some (⟨some date, some time, none⟩, rest)
      | some (offset, rest) => some (⟨some date, some time, some offset⟩, rest)

/-- Anything that starts with a sign or a digit. -/
def readNumber (cs : List Char) : Option (Value × List Char) :=
  match readDateTime cs with
  | some (t, rest) => some (.datetime t, rest)
  | none =>
    match readFloat cs with
    | some result => result
    | none =>
      match cs with
      | '0' :: 'x' :: rest => readBased 16 rest
      | '0' :: 'o' :: rest => readBased 8 rest
      | '0' :: 'b' :: rest => readBased 2 rest
      | _ => readInteger cs

/-! ## Values -/

/-- A value that holds no others. -/
def readScalar (cs : List Char) : Option (Value × List Char) :=
  match cs with
  | [] => none
  | c :: _ =>
    if c = '"' || c = '\'' then (readString cs).map fun (s, rest) => (.string s, rest)
    else if c = '+' || c = '-' || isDigit c then readNumber cs
    else
      match after? "true".toList cs with
      | some rest => some (.boolean true, rest)
      | none =>
        match after? "false".toList cs with
        | some rest => some (.boolean false, rest)
        | none => readSpecialFloat false cs

mutual

/-- A value with at most `depth` levels of nesting. -/
def readValue : (bound depth : Nat) → List Char → Option (Value × List Char)
  | 0, _, _ => none
  | bound + 1, depth, cs =>
    match cs with
    | '[' :: rest => if depth = 0 then none else readItems bound (depth - 1) [] rest
    | '\x7b' :: rest =>
      if depth = 0 then none
      else
        match skipSpace rest with
        | '\x7d' :: rest => some (.table [], rest)
        | rest => readPairs bound (depth - 1) [] rest
    | _ => readScalar cs

/-- The items of an array after `read`, last first. -/
def readItems : (bound depth : Nat) → (read : List Value) → List Char → Option (Value × List Char)
  | 0, _, _, _ => none
  | bound + 1, depth, read, cs =>
    match skipBlankLines cs with
    | ']' :: rest => some (.array read.reverse, rest)
    | cs => do
      let (item, rest) ← readValue bound depth cs
      match skipBlankLines rest with
      | ']' :: rest => return (.array (item :: read).reverse, rest)
      | ',' :: rest => readItems bound depth (item :: read) rest
      | _ => none

/-- The entries of a table in braces after `entries`. -/
def readPairs :
    (bound depth : Nat) → (entries : Draft.Entries) → List Char → Option (Value × List Char)
  | 0, _, _, _ => none
  | bound + 1, depth, entries, cs => do
    let ((path, key), rest) ← readKey cs
    let (v, rest) ← readValue bound depth (skipSpace (← expect '=' rest))
    let entries ← Draft.put key v path entries
    match skipSpace rest with
    | '\x7d' :: rest => return ((Draft.table false false entries).finish, rest)
    | ',' :: rest => readPairs bound depth entries rest
    | _ => none

end

/-! ## Documents -/

/-- Read the lines of a document. `opened` is the path of the last header. -/
def readLines : (bound : Nat) → (opened : List String) → Draft.Entries → List Char →
    Option Draft.Entries
  | 0, _, _, _ => none
  | bound + 1, opened, entries, cs =>
    match skipSpace cs with
    | [] => some entries
    | '#' :: rest => do
      let rest ← endOfLine? ('#' :: rest)
      readLines bound opened entries rest
    | '[' :: '[' :: rest => do
      let ((path, key), rest) ← readKey rest
      let rest ← expect ']' (← expect ']' rest)
      let entries ← Draft.openNext (path ++ [key]) entries
      let rest ← endOfLine? rest
      readLines bound (path ++ [key]) entries rest
    | '[' :: rest => do
      let ((path, key), rest) ← readKey rest
      let rest ← expect ']' rest
      let entries ← Draft.openTable (path ++ [key]) entries
      let rest ← endOfLine? rest
      readLines bound (path ++ [key]) entries rest
    | cs =>
      match newline? cs with
      | some rest => readLines bound opened entries rest
      | none => do
        let ((path, key), rest) ← readKey cs
        let (v, rest) ← readValue (cs.length + 1) depthLimit (skipSpace (← expect '=' rest))
        let entries ← Draft.putUnder opened path key v entries
        let rest ← endOfLine? rest
        readLines bound opened entries rest

/-- The table that a text spells, in the order of the text; a byte order mark at its start does not
count. -/
def parse (s : String) : Option Table :=
  let cs := match s.toList with
    | '\uFEFF' :: rest => rest
    | cs => cs
  (readLines (cs.length + 1) [] [] cs).bind fun entries =>
    (Draft.table false false entries).finish.table?

end SvgPress.Toml
