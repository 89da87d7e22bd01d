import SvgPress.Pattern.Bracket
import SvgPress.Pattern.Memory

/-!
# Reading patterns

The written form of patterns: literals and escapes, `.`, classes in brackets, groups, alternatives,
repetitions, assertions and flags. A text that is no pattern has no reading, and neither has one
that is nested too deep or would take too much memory. Conditions on what follows or precedes are no
part of the language.
-/

namespace SvgPress.Pattern

open Text Unicode

/-- A pattern as it was read, with how deep it is nested. -/
structure Reading where
  pattern : Pattern
  depth : Nat

/-! ## Repetitions -/

/-- A number with white space around it. -/
def readCount (f : Flags) (cs : List Char) : Option (Nat × List Char) :=
  let (digits, rest) := f.takeWhile isDigit false (cs.dropWhile isSpace)
  let n := digits.foldl (fun n c => n * 10 + (c.toNat - '0'.toNat)) 0
  if digits.isEmpty || Nat.pow 2 32 ≤ n then none else some (n, rest.dropWhile isSpace)

/-- The bounds of a counted repetition; `cs` starts after the brace. -/
def readCounts (f : Flags) (cs : List Char) : Option ((Nat × Option Nat) × List Char) := do
  let (least, rest) ← readCount f (f.skip cs)
  match rest with
  | '\x7d' :: rest => return ((least, some least), rest)
  | ',' :: rest =>
    match f.skip rest with
    | '\x7d' :: rest => return ((least, none), rest)
    | rest =>
      let (most, rest) ← readCount f rest
      match rest with
      | '\x7d' :: rest => if least ≤ most then return ((least, some most), rest) else none
      | _ => none
  | _ => none

/-- A way to repeat. -/
structure Repetition where
  least : Nat
  most : Option Nat
  greedy : Bool

/-- A repetition by its bounds; a `?` after them turns its greed round. -/
def endRepetition (f : Flags) (bounds : Nat × Option Nat) (cs : List Char) :
    Repetition × List Char :=
  let (least, most) := bounds
  match cs with
  | '?' :: rest => (⟨least, most, f.swapGreed⟩, rest)
  | _ => (⟨least, most, !f.swapGreed⟩, cs)

/-- The repetition that starts here, if one does; nothing at all if it is malformed. -/
def readRepetition (f : Flags) (cs : List Char) : Option (Option Repetition × List Char) :=
  let ended (bounds : Nat × Option Nat) (cs : List Char) : Option Repetition × List Char :=
    let (repetition, rest) := endRepetition f bounds cs
    (some repetition, rest)
  match cs with
  | '*' :: rest => some (ended (0, none) rest)
  | '+' :: rest => some (ended (1, none) rest)
  | '?' :: rest => some (ended (0, some 1) rest)
  | '\x7b' :: rest => (readCounts f rest).map fun (bounds, rest) => ended bounds (f.skip rest)
  | _ => some (none, cs)

/-- A reading repeated. -/
def Reading.repeated (r : Reading) (repetition : Repetition) : Reading :=
  ⟨times r.pattern repetition.least repetition.most repetition.greedy, r.depth + 1⟩

/-! ## Branches -/

/-- What stands between two bars of a group, the last part first; nothing stands for flags, which
cannot be repeated. -/
abbrev Branch := List (Option Reading)

/-- The depth of some readings side by side, which are a level of their own if there is more than
one. -/
def depthOf : List Nat → Nat
  | [] => 0
  | [n] => n
  | ns => ns.foldl max 0 + 1

/-- The reading of a branch. -/
def closeBranch (branch : Branch) : Reading :=
  ⟨inOrder (branch.reverse.filterMap fun part => part.map (·.pattern)),
    depthOf (branch.map fun part => (part.map (·.depth)).getD 0)⟩

/-- The reading of the branches of a group, the last one first. -/
def closeBranches (branches : List Reading) : Reading :=
  ⟨anyOf (branches.reverse.map (·.pattern)), depthOf (branches.map (·.depth))⟩

/-! ## Groups -/

/-- Whether a text can name a group. -/
def isGroupName (name : List Char) : Bool :=
  match name with
  | [] => false
  | first :: rest =>
    (first == '_' || alphabetic.contains first) &&
      rest.all fun c =>
        c == '_' || c == '.' || c == '[' || c == ']' || alphabetic.contains c || numbers.contains c

/-- What a group starts with after its parenthesis. -/
inductive GroupStart where
  /-- The group holds a pattern that is read with the given flags; it may be remembered under a
  name. -/
  | body (f : Flags) (remembered : Bool) (name : Option (List Char))
  /-- The group only sets flags. -/
  | flags (f : Flags)

/-- Read the start of a group; `cs` starts after the parenthesis. -/
def readGroupStart (f : Flags) (cs : List Char) : Option (GroupStart × List Char) :=
  let named (cs : List Char) : Option (GroupStart × List Char) := do
    let (name, rest) ← splitFirst '>' cs
    if isGroupName name then return (.body f true (some name), rest) else none
  match f.skip cs with
  | '?' :: 'P' :: '<' :: rest => named rest
  | '?' :: '<' :: rest => named rest
  | '?' :: rest => do
    let (set, rest') ← f.read true [] rest
    match rest' with
    | ':' :: after => return (.body set false none, after)
    | ')' :: after => if rest.head? = some ')' then none else return (.flags set, after)
    | _ => none
  | cs => some (.body f true none, cs)

/-! ## Patterns -/

/-- The pattern of one character where it stands for itself. -/
def charPattern (f : Flags) (c : Char) : Pattern :=
  if f.allows c then ofSet (f.fold (.single c)) else literal [c]

/-- The characters that `.` matches: without Unicode it would match bytes of a character. -/
def dotSet? (f : Flags) : Option CharSet :=
  if !f.unicode then none
  else if f.dotAll then some .full
  else if f.returns then some (CharSet.ofList ['\n', '\r']).compl
  else some (CharSet.single '\n').compl

/-- The reading of one character, escape or class. -/
def readAtom (f : Flags) (bound : Nat) (cs : List Char) : Option (Reading × List Char) :=
  match cs with
  | [] => none
  | '.' :: rest => (dotSet? f).map fun s => (⟨ofSet s, 0⟩, rest)
  | '^' :: rest =>
    some (⟨assertion (if f.multiLine then .lineStart f.returns else .textStart), 0⟩, rest)
  | '$' :: rest =>
    some (⟨assertion (if f.multiLine then .lineEnd f.returns else .textEnd), 0⟩, rest)
  | '[' :: rest =>
    (readClass f bound rest).map fun (part, rest) => (⟨ofSet part.chars, part.depth⟩, rest)
  | '\\' :: rest =>
    (readEscape f rest).map fun (escape, rest) =>
      match escape with
      | .literal c => (⟨charPattern f c, 0⟩, rest)
      | .set s => (⟨ofSet s, 0⟩, rest)
      | .assertion a => (⟨assertion a, 0⟩, rest)
  | c :: rest => some (⟨charPattern f c, 0⟩, rest)

/-- Read a group up to its closing parenthesis, or to the end; `branches` and `branch` are what has
been read of it. `names` are those of all groups so far, and no two groups may share one. -/
def readGroup : (bound : Nat) → Flags → (names : List (List Char)) → (branches : List Reading) →
    (branch : Branch) → List Char → Option (Reading × List (List Char) × List Char)
  | 0, _, _, _, _, _ => none
  | bound + 1, f, names, branches, branch, cs =>
    match f.skip cs with
    | [] => some (closeBranches (closeBranch branch :: branches), names, [])
    | ')' :: rest => some (closeBranches (closeBranch branch :: branches), names, ')' :: rest)
    | '|' :: rest => readGroup bound f names (closeBranch branch :: branches) [] rest
    | '(' :: rest => do
      let (start, rest) ← readGroupStart f rest
      match start with
      | .flags f => readGroup bound f names branches (none :: branch) rest
      | .body inner remembered name =>
        if name.any names.contains then none
        else
          let (r, names, rest) ← readGroup bound inner (name.toList ++ names) [] [] rest
          let ')' :: rest := rest | none
          let p := if remembered then group r.pattern else r.pattern
          readGroup bound f names branches (some ⟨p, r.depth + 1⟩ :: branch) rest
    | cs => do
      let (repetition, rest) ← readRepetition f cs
      match repetition, branch with
      | none, _ =>
        let (r, rest) ← readAtom f bound cs
        readGroup bound f names branches (some r :: branch) rest
      | some repetition, some r :: before =>
        readGroup bound f names branches (some (r.repeated repetition) :: before) rest
      | some _, _ => none

/-- How deep a pattern may be nested. -/
def depthLimit : Nat := 250

/-- The pattern that a whole text spells. -/
def ofString? (s : String) : Option Pattern :=
  match readGroup (2 * s.length + 2) {} [] [] [] s.toList with
  | some (r, _, []) =>
    if r.depth ≤ depthLimit && r.pattern.fitsMemory then some r.pattern else none
  | _ => none

end SvgPress.Pattern
