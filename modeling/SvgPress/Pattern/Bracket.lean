import SvgPress.Pattern.Escape

/-!
# Classes in brackets

A bracket lists characters, ranges, escapes, named classes of ASCII and further brackets. `&&`, `--`
and `~~` stand between two such lists for their intersection, difference and symmetric difference,
and group to the left.
-/

namespace SvgPress.Pattern

open Text Unicode

/-- A part of a bracket, with how deep it is nested. -/
structure ClassPart where
  chars : CharSet
  depth : Nat

/-- The part of all the items in a list; a list of more than one is a level of its own. -/
def ClassPart.all : List ClassPart → ClassPart
  | [item] => item
  | items =>
    let depth := items.foldl (fun n item => max n (item.depth + 1)) 0
    ⟨.unionAll (items.map (·.chars)), depth⟩

/-! ## Named classes -/

/-- The ranges of a named class of ASCII. -/
def namedClass? : String → Option (List CharRange)
  | "alnum" => some [⟨'0', '9'⟩, ⟨'A', 'Z'⟩, ⟨'a', 'z'⟩]
  | "alpha" => some [⟨'A', 'Z'⟩, ⟨'a', 'z'⟩]
  | "ascii" => some [⟨'\x00', '\x7f'⟩]
  | "blank" => some [.single '\t', .single ' ']
  | "cntrl" => some [⟨'\x00', '\x1f'⟩, .single '\x7f']
  | "digit" => some [⟨'0', '9'⟩]
  | "graph" => some [⟨'!', '~'⟩]
  | "lower" => some [⟨'a', 'z'⟩]
  | "print" => some [⟨' ', '~'⟩]
  | "punct" => some [⟨'!', '/'⟩, ⟨':', '@'⟩, ⟨'[', '\x60'⟩, ⟨'\x7b', '~'⟩]
  | "space" => some [⟨'\t', '\r'⟩, .single ' ']
  | "upper" => some [⟨'A', 'Z'⟩]
  | "word" => some [⟨'0', '9'⟩, ⟨'A', 'Z'⟩, .single '_', ⟨'a', 'z'⟩]
  | "xdigit" => some [⟨'0', '9'⟩, ⟨'A', 'F'⟩, ⟨'a', 'f'⟩]
  | _ => none

/-- The name of a named class, which may be negated; `cs` starts after the bracket. -/
def readNamedClass (cs : List Char) : Option ((Bool × CharSet) × List Char) := do
  let ':' :: cs := cs | none
  let (negated, cs) := match cs with
    | '^' :: rest => (true, rest)
    | _ => (false, cs)
  let (name, rest) ← cutAt [':', ']'] cs
  let ranges ← namedClass? (String.ofList name)
  return ((negated, .ofRanges ranges), rest)

/-! ## Items -/

/-- One character or class of a bracket. -/
def readClassItem (f : Flags) (cs : List Char) : Option (Escape × List Char) :=
  match cs with
  | [] => none
  | '\\' :: rest =>
    match readEscape f rest with
    | some (.assertion _, _) => none
    | item => item
  | c :: rest => some (.literal c, rest)

/-- The part of an item. -/
def Escape.classPart? (f : Flags) : Escape → Option ClassPart
  | literal c => if f.allows c then some ⟨.single c, 0⟩ else none
  | set s => some ⟨s, 0⟩
  | assertion _ => none

/-- Whether a minus is no part of a range, because a bracket or a minus comes after it. A comment in
between is looked at in place of what follows it. -/
def isPlainMinus (f : Flags) (after : List Char) : Bool :=
  let next := if f.verbose then
      match after.dropWhile isSpace with
      | '#' :: comment => (comment.dropWhile isSpace).head?
      | cs => cs.head?
    else after.head?
  next = some ']' || next = some '-'

/-- A character, a class or a range of a bracket. -/
def readClassRange (f : Flags) (cs : List Char) : Option (ClassPart × List Char) := do
  let (first, rest) ← readClassItem f cs
  let single := (first.classPart? f).map (·, f.skip rest)
  match f.skip rest with
  | [] => none
  | '-' :: after =>
    if isPlainMinus f after then single
    else
      let (second, rest) ← readClassItem f (f.skip after)
      match first, second with
      | .literal low, .literal high =>
        if low ≤ high && f.allows high then return (⟨.range low high, 0⟩, rest) else none
      | _, _ => none
  | _ => single

/-- The minus signs that a bracket starts with, or a closing bracket at its very start, stand for
themselves. -/
def readClassStart (f : Flags) (cs : List Char) : List ClassPart × List Char :=
  match f.takeWhile (· == '-') false cs with
  | ([], ']' :: rest) => ([⟨.single ']', 0⟩], rest)
  | (minuses, rest) => (minuses.map fun c => ⟨.single c, 0⟩, rest)

/-! ## Operations -/

/-- An operation between two parts of a bracket. -/
inductive SetOperation where
  | inter
  | diff
  | symmDiff

/-- The set of an operation on two sets. -/
def SetOperation.apply : SetOperation → CharSet → CharSet → CharSet
  | inter => CharSet.inter
  | diff => CharSet.diff
  | symmDiff => CharSet.symmDiff

/-- The part of the items after an operation, together with the part before it. -/
def closePart (f : Flags) (before : Option (SetOperation × ClassPart)) (items : List ClassPart) :
    ClassPart :=
  let part := ClassPart.all items
  match before with
  | none => part
  | some (op, left) =>
    ⟨op.apply (f.fold left.chars) (f.fold part.chars), max left.depth part.depth + 1⟩

/-! ## Brackets -/

mutual

/-- Read a bracket; `cs` starts after the opening one. -/
def readClass (f : Flags) : (bound : Nat) → List Char → Option (ClassPart × List Char)
  | 0, _ => none
  | bound + 1, cs => do
    let (negated, cs) := match f.skip cs with
      | '^' :: rest => (true, rest)
      | cs => (false, cs)
    let (items, cs) := readClassStart f cs
    let (part, rest) ← readClassRest f bound none items cs
    let chars ← f.resolve negated part.chars
    return (⟨chars, part.depth + 1⟩, rest)

/-- Read the rest of a bracket after some items, which follow the operation `before`. -/
def readClassRest (f : Flags) :
    (bound : Nat) → (before : Option (SetOperation × ClassPart)) → (items : List ClassPart) →
      List Char → Option (ClassPart × List Char)
  | 0, _, _, _ => none
  | bound + 1, before, items, cs =>
    let operation (op : SetOperation) (rest : List Char) :=
      readClassRest f bound (some (op, closePart f before items)) [] rest
    match f.skip cs with
    | [] => none
    | ']' :: rest => some (closePart f before items, rest)
    | '&' :: '&' :: rest => operation .inter rest
    | '-' :: '-' :: rest => operation .diff rest
    | '~' :: '~' :: rest => operation .symmDiff rest
    | '[' :: rest =>
      match readNamedClass rest with
      | some ((negated, ranges), rest) => do
        let chars ← f.resolve negated ranges
        readClassRest f bound before (⟨chars, 0⟩ :: items) rest
      | none => do
        let (inner, rest) ← readClass f bound rest
        readClassRest f bound before (inner :: items) rest
    | cs => do
      let (item, rest) ← readClassRange f cs
      readClassRest f bound before (item :: items) rest

end

end SvgPress.Pattern
