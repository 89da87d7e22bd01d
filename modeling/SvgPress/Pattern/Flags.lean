import SvgPress.Text.Blank
import SvgPress.Unicode.CaseFolding

/-!
# Flags of patterns

Flags say how the text of a pattern is read. They hold from where they are set to the end of the
group they stand in. What does not count under the flags, white space and comments, may stand
between any two parts of a pattern and within most of them.
-/

namespace SvgPress.Pattern

open Text Unicode

/-- How the text of a pattern is read. -/
structure Flags where
  /-- Letters match in either case. -/
  ignoreCase : Bool := false
  /-- `^` and `$` match at lines. -/
  multiLine : Bool := false
  /-- `.` matches the end of a line. -/
  dotAll : Bool := false
  /-- Repetitions are lazy, and greedy with a `?`. -/
  swapGreed : Bool := false
  /-- Classes follow Unicode, not ASCII. -/
  unicode : Bool := true
  /-- Lines may end in a carriage return. -/
  returns : Bool := false
  /-- White space and comments in the pattern do not count. -/
  verbose : Bool := false

namespace Flags

/-! ## Reading -/

/-- Set the flag of a letter. -/
def set (f : Flags) (letter : Char) (on : Bool) : Option Flags :=
  match letter with
  | 'i' => some { f with ignoreCase := on }
  | 'm' => some { f with multiLine := on }
  | 's' => some { f with dotAll := on }
  | 'U' => some { f with swapGreed := on }
  | 'u' => some { f with unicode := on }
  | 'R' => some { f with returns := on }
  | 'x' => some { f with verbose := on }
  | _ => none

/-- Read flag letters up to `)` or `:`. No letter may stand twice, and one has to follow a minus. -/
def read (f : Flags) (on : Bool) (seen : List Char) : List Char → Option (Flags × List Char)
  | [] => none
  | c :: rest =>
    if c = ')' || c = ':' then
      if seen.head? = some '-' then none else some (f, c :: rest)
    else if seen.contains c then none
    else if c = '-' then read f false (c :: seen) rest
    else (f.set c on).bind fun f => read f on (c :: seen) rest

/-! ## What does not count -/

/-- Whether a character does not count, or starts a comment. -/
def ignores (f : Flags) (c : Char) : Bool :=
  f.verbose && (isSpace c || c == '#')

/-- The characters of a kind that stand next, without what does not count around each, and the rest
of the text. `comment` tells whether the text starts within a comment. -/
def takeWhile (f : Flags) (p : Char → Bool) : (comment : Bool) → List Char → List Char × List Char
  | _, [] => ([], [])
  | true, c :: rest => takeWhile f p (c != '\n') rest
  | false, c :: rest =>
    if f.ignores c then takeWhile f p (c == '#') rest
    else if p c then
      let (cs, rest) := takeWhile f p false rest
      (c :: cs, rest)
    else ([], c :: rest)

/-- What is left after some characters is no longer than the text. -/
theorem length_takeWhile_le (f : Flags) (p : Char → Bool) (comment : Bool) (cs : List Char) :
    (f.takeWhile p comment cs).2.length ≤ cs.length := by
  induction cs generalizing comment with
  | nil => simp [takeWhile]
  | cons c rest ih =>
    have h (comment : Bool) : (f.takeWhile p comment rest).2.length ≤ rest.length + 1 :=
      Nat.le_succ_of_le (ih comment)
    cases comment with
    | true => exact h _
    | false =>
      simp only [takeWhile]
      split
      · exact h _
      · split
        · exact h _
        · exact Nat.le_refl _

/-- The text from the next character that counts on. -/
def skip (f : Flags) (cs : List Char) : List Char :=
  (f.takeWhile (fun _ => false) false cs).2

/-- What is left from the next character that counts on is no longer than the text. -/
theorem length_skip_le (f : Flags) (cs : List Char) : (f.skip cs).length ≤ cs.length :=
  f.length_takeWhile_le _ false cs

/-! ## Sets -/

/-- Whether a character may stand in a class. -/
def allows (f : Flags) (c : Char) : Bool :=
  f.unicode || c.toNat < 0x80

/-- The characters of a set, and those that differ from one of them in case only if case does not
count. -/
def fold (f : Flags) (s : CharSet) : CharSet :=
  if !f.ignoreCase then s
  else if f.unicode then s.foldCase
  else s.foldAsciiCase

/-- The characters that are not in a set. Those of ASCII alone cannot be told. -/
def compl? (f : Flags) (s : CharSet) : Option CharSet :=
  if f.unicode then some s.compl else none

/-- The characters of a set or, if `negated`, those that are not in it. Case is folded first. -/
def resolve (f : Flags) (negated : Bool) (s : CharSet) : Option CharSet :=
  if negated then f.compl? (f.fold s) else some (f.fold s)

end Flags

end SvgPress.Pattern
