import SvgPress.Path.Segment
import SvgPress.Error

/-!
# Reading path data

A command letter may be left out where the previous command repeats; after a moveto the repeated
command is a lineto, and after a closepath nothing repeats. Arguments are separated by white space
with at most one comma in it, and by nothing where the text is clear without. Only ASCII characters
are ever consumed, so the number of characters before an error is its offset in bytes.
-/

namespace SvgPress.Path

open Text

/-- The white space of path data. -/
def isPathSpace (c : Char) : Bool :=
  c == ' ' || c == '\t' || c == '\n' || c == '\r' || c == '\x0c'

/-- Drop white space. -/
def skipSpace (cs : List Char) : List Char :=
  cs.dropWhile isPathSpace

/-- Drop white space with at most one comma in it. -/
def skipSeparator (cs : List Char) : List Char :=
  match skipSpace cs with
  | ',' :: rest => skipSpace rest
  | rest => rest

/-- Read a number. The data has `total` characters. -/
def readNumber (total : Nat) (cs : List Char) : Except PathError (Binary64 × List Char) :=
  let cs := skipSeparator cs
  match Binary64.take cs with
  | none => .error (.expectedNumber (total - cs.length))
  | some (x, rest) =>
    if x.isFinite then .ok (x, rest)
    else .error (.outOfRange (String.ofList (cs.take (cs.length - rest.length))))

/-- Read an arc flag, which is one digit. The data has `total` characters. -/
def readFlag (total : Nat) (cs : List Char) : Except PathError (Bool × List Char) :=
  match skipSeparator cs with
  | '0' :: rest => .ok (false, rest)
  | '1' :: rest => .ok (true, rest)
  | cs => .error (.expectedFlag (total - cs.length))

/-- Read one argument. -/
def readArgument (total : Nat) (kind : ArgumentKind) (cs : List Char) :
    Except PathError (Argument × List Char) :=
  match kind with
  | .number => (readNumber total cs).map fun (x, rest) => (.number x, rest)
  | .flag => (readFlag total cs).map fun (b, rest) => (.flag b, rest)

/-- Read the arguments of a command. -/
def readArguments (total : Nat) :
    List ArgumentKind → List Char → Except PathError (List Argument × List Char)
  | [], cs => .ok ([], cs)
  | kind :: kinds, cs => do
    let (argument, rest) ← readArgument total kind cs
    let (others, rest) ← readArguments total kinds rest
    return (argument :: others, rest)

/-- The command that repeats where a letter is left out. -/
def impliedCommand : Option (Command × Bool) → Except PathError (Command × Bool)
  | none => .error .noCommand
  | some (.closePath, _) => .error .afterClosePath
  | some (.moveTo, relative) => .ok (.lineTo, relative)
  | some other => .ok other

/-- Read a command letter, or the command that repeats; a lower-case letter is relative. -/
def readCommand (previous : Option (Command × Bool)) (cs : List Char) :
    Except PathError ((Command × Bool) × List Char) :=
  match cs with
  | [] => (impliedCommand previous).map (·, [])
  | c :: rest =>
    if c.isAlpha then
      match Command.ofLetter? c.toLower with
      | some command => .ok ((command, c.isLower), rest)
      | none => .error (.unknownCommand c)
    else (impliedCommand previous).map (·, cs)

/-- Read at most `bound` segments. -/
def readSegments (total : Nat) :
    (bound : Nat) → (previous : Option (Command × Bool)) → List Char →
      Except PathError (List Segment)
  | _, _, [] => .ok []
  | 0, _, _ :: _ => .ok []
  | bound + 1, previous, cs => do
    let ((command, relative), rest) ← readCommand previous cs
    let (arguments, rest) ← readArguments total command.signature rest
    let others ← readSegments total bound (some (command, relative)) (skipSeparator rest)
    return ⟨command, relative, arguments⟩ :: others

/-- The segments of path data. A segment takes at least one character, so the bound is never
reached. -/
def parse (data : String) : Except PathError (List Segment) :=
  let cs := data.toList
  readSegments cs.length cs.length none (skipSpace cs)

end SvgPress.Path
