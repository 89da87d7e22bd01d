import SvgPress.Path.Segment

/-!
# Writing path data

Path data is written as a sequence of pieces: command letters and arguments. A letter is left out
where the reader supplies it, and a space stands only between two pieces that would otherwise read
as one number.

A number is rounded to a number of decimal places, a half away from zero, and written in the
shortest decimal notation that reads back as the rounded value: without a zero before the point,
without a point after an integer, and with an exponent from `1e16` up and from `1e-6` down.
-/

namespace SvgPress.Path

/-! ## Numbers -/

/-- A number rounded to a number of decimal places. Where scaling leaves no fraction to drop, the
number stays as it is. -/
def roundTo (places : Nat) (x : Binary64) : Binary64 :=
  let factor := Binary64.tenTo places
  let scaled := x.mul factor
  if scaled.isBelow (Nat.pow 2 52) then scaled.round.div factor else x

/-- The notation of a positive decimal without trailing zeros. -/
def layout (d : Decimal) : List Char :=
  let digits := Decimal.digitsOfNat d.digits
  let places := digits.length + d.exponent
  if 0 ≤ d.exponent && places ≤ 16 then digits ++ List.replicate d.exponent.toNat '0'
  else if 0 < places && places ≤ 16 then
    digits.take places.toNat ++ '.' :: digits.drop places.toNat
  else if -5 < places && places ≤ 0 then
    '.' :: List.replicate (-places).toNat '0' ++ digits
  else
    let fraction := match digits.tail with
      | [] => []
      | fraction => '.' :: fraction
    let exponent := places - 1
    let sign := if exponent < 0 then ['-'] else []
    digits.take 1 ++ fraction ++ 'e' :: sign ++ Decimal.digitsOfNat exponent.natAbs

/-- The notation of a number rounded to a number of decimal places; zero has no sign. -/
def formatNumber (places : Nat) (x : Binary64) : List Char :=
  match roundTo places x with
  | .finite negative significand exponent =>
    if significand = 0 then ['0']
    else
      let text := layout (Binary64.shortest .toEven significand exponent)
      if negative then '-' :: text else text
  | _ => ['0']

/-! ## Pieces -/

/-- The written form of an argument. -/
def formatArgument (places : Nat) : Argument → List Char
  | .number x => formatNumber places x
  | .flag false => ['0']
  | .flag true => ['1']

/-- The letter that a command is written as. -/
def commandLetter (command : Command) (relative : Bool) : Char :=
  if relative || command = .closePath then command.letter else command.letter.toUpper

/-- Whether the reader supplies a command after another one. -/
def isImplied (previous : Option (Command × Bool)) (command : Command) (relative : Bool) : Bool :=
  match previous with
  | none => false
  | some (earlier, wasRelative) =>
    relative == wasRelative &&
      ((earlier == .moveTo && command == .lineTo) ||
        (earlier == command && command != .moveTo && command != .closePath))

/-- The pieces of path data after a command. -/
def pieces (places : Nat) : (previous : Option (Command × Bool)) → List Segment → List (List Char)
  | _, [] => []
  | previous, segment :: rest =>
    let letter :=
      if isImplied previous segment.command segment.relative then []
      else [[commandLetter segment.command segment.relative]]
    letter ++ segment.arguments.map (formatArgument places) ++
      pieces places (some (segment.command, segment.relative)) rest

/-- Whether a character can be part of an unsigned number. -/
def isNumeric (c : Char) : Bool :=
  Text.isDigit c || c == '.'

/-- Whether two pieces would read as one number. -/
def merges (first second : List Char) : Bool :=
  first.getLast?.any isNumeric && second.head?.any isNumeric

/-- Pieces one after the other, with a space where two would merge. -/
def join : List (List Char) → List Char
  | [] => []
  | [piece] => piece
  | first :: second :: rest =>
    if merges first second then first ++ ' ' :: join (second :: rest)
    else first ++ join (second :: rest)

/-- The shortest text of segments, with numbers rounded to a number of decimal places. -/
def print (places : Nat) (segments : List Segment) : String :=
  String.ofList (join (pieces places none segments))

end SvgPress.Path
