import SvgPress.Number.Decimal

/-!
# Path segments

Path data is a list of segments: a drawing command, absolute or relative, with its arguments. Each
command fixes the number and the kinds of its arguments.
-/

namespace SvgPress.Path

/-- A drawing command. -/
inductive Command where
  | closePath
  | horizontal
  | vertical
  | moveTo
  | lineTo
  | smoothQuadratic
  | smoothCubic
  | quadratic
  | cubic
  | arc
deriving DecidableEq

/-- What an argument stands for. -/
inductive ArgumentKind where
  /-- A coordinate, a length or an angle. -/
  | number
  /-- A choice between two arcs. -/
  | flag
deriving DecidableEq

/-- An argument of a command. -/
inductive Argument where
  | number (x : Binary64)
  | flag (b : Bool)
deriving DecidableEq

/-- A command with its arguments. -/
structure Segment where
  /-- What is drawn. -/
  command : Command
  /-- Whether coordinates count from the current point. -/
  relative : Bool
  /-- The arguments, in order. -/
  arguments : List Argument
deriving DecidableEq

/-- The lower-case letter of a command. -/
def Command.letter : Command → Char
  | closePath => 'z'
  | horizontal => 'h'
  | vertical => 'v'
  | moveTo => 'm'
  | lineTo => 'l'
  | smoothQuadratic => 't'
  | smoothCubic => 's'
  | quadratic => 'q'
  | cubic => 'c'
  | arc => 'a'

/-- The command of a lower-case letter. -/
def Command.ofLetter? : Char → Option Command
  | 'z' => some closePath
  | 'h' => some horizontal
  | 'v' => some vertical
  | 'm' => some moveTo
  | 'l' => some lineTo
  | 't' => some smoothQuadratic
  | 's' => some smoothCubic
  | 'q' => some quadratic
  | 'c' => some cubic
  | 'a' => some arc
  | _ => none

/-- The kinds of a command's arguments. -/
def Command.signature : Command → List ArgumentKind
  | closePath => []
  | horizontal | vertical => [.number]
  | moveTo | lineTo | smoothQuadratic => List.replicate 2 .number
  | smoothCubic | quadratic => List.replicate 4 .number
  | cubic => List.replicate 6 .number
  | arc => [.number, .number, .number, .flag, .flag, .number, .number]

/-- The kind of an argument. -/
def Argument.kind : Argument → ArgumentKind
  | number _ => .number
  | flag _ => .flag

end SvgPress.Path
