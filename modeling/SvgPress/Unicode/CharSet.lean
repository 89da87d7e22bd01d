import SvgPress.Text.Split

/-!
# Sets of characters

A set of characters is a list of ranges in increasing order with a gap after each, so that equal
sets are equal lists. The characters are the code points other than surrogates: U+E000 directly
follows U+D7FF. Tables write a set as a text of code points and ranges in hexadecimal digits.
-/

namespace SvgPress.Unicode

open Text

/-! ## Neighbours -/

/-- The character with the greatest code point. -/
def lastChar : Char := Char.ofNat 0x10FFFF

/-- The character after one that is not the last. -/
def following (c : Char) : Char :=
  if c.toNat = 0xD7FF then Char.ofNat 0xE000 else Char.ofNat (c.toNat + 1)

/-- The character before one that is not the first. -/
def preceding (c : Char) : Char :=
  if c.toNat = 0xE000 then Char.ofNat 0xD7FF else Char.ofNat (c.toNat - 1)

/-! ## Ranges -/

/-- The characters between two, both included. -/
structure CharRange where
  low : Char
  high : Char
deriving DecidableEq

/-- The range of one character. -/
def CharRange.single (c : Char) : CharRange := ⟨c, c⟩

/-- Whether a character is in a range. -/
def CharRange.contains (r : CharRange) (c : Char) : Bool :=
  r.low ≤ c && c ≤ r.high

/-! ## Sets -/

/-- A set of characters, as ranges in increasing order with a gap after each. -/
structure CharSet where
  ranges : List CharRange
deriving DecidableEq

namespace CharSet

/-- Whether a character is in a set. -/
def contains (s : CharSet) (c : Char) : Bool :=
  s.ranges.any (·.contains c)

/-- The set of no character. -/
def empty : CharSet := ⟨[]⟩

/-- The set of all characters. -/
def full : CharSet := ⟨[⟨Char.ofNat 0, lastChar⟩]⟩

/-- Put a range in front of ranges that start no earlier, and join those that it meets. -/
def join (r : CharRange) : List CharRange → List CharRange
  | [] => [r]
  | next :: rest =>
    if next.low ≤ r.high || next.low = following r.high then
      join ⟨r.low, if r.high ≤ next.high then next.high else r.high⟩ rest
    else r :: join next rest

/-- The set of the characters in any of some ranges. -/
def ofRanges (ranges : List CharRange) : CharSet :=
  match ranges.mergeSort fun a b => a.low ≤ b.low with
  | [] => empty
  | first :: rest => ⟨join first rest⟩

/-- The set of the characters between two. -/
def range (low high : Char) : CharSet := ⟨[⟨low, high⟩]⟩

/-- The set of one character. -/
def single (c : Char) : CharSet := range c c

/-- No character is in the empty set. -/
@[simp] theorem contains_empty (c : Char) : empty.contains c = false := rfl

/-- A character is between two exactly where it is no less than one and no greater than the
other. -/
@[simp] theorem contains_range {low high c : Char} :
    (range low high).contains c = true ↔ low ≤ c ∧ c ≤ high := by
  simp [range, contains, CharRange.contains]

/-- The set of a character holds that character only. -/
@[simp] theorem contains_single {a c : Char} : (single a).contains c = true ↔ c = a := by
  rw [single, contains_range]
  constructor
  · rintro ⟨low, high⟩
    exact Char.le_antisymm high low
  · rintro rfl
    exact ⟨Char.le_refl c, Char.le_refl c⟩

/-- The set of some characters. -/
def ofList (cs : List Char) : CharSet :=
  ofRanges (cs.map CharRange.single)

/-- The characters in any of some sets. -/
def unionAll (sets : List CharSet) : CharSet :=
  ofRanges (sets.flatMap (·.ranges))

/-- The characters in either of two sets. -/
def union (a b : CharSet) : CharSet :=
  unionAll [a, b]

/-- The characters from `start` on that are in none of some ranges from there on. -/
def gaps (start : Char) : List CharRange → List CharRange
  | [] => [⟨start, lastChar⟩]
  | r :: rest =>
    let before := if start < r.low then [⟨start, preceding r.low⟩] else []
    if r.high = lastChar then before else before ++ gaps (following r.high) rest

/-- The characters that are not in a set. -/
def compl (s : CharSet) : CharSet :=
  ⟨gaps (Char.ofNat 0) s.ranges⟩

/-- The characters in both of two sets. -/
def inter (a b : CharSet) : CharSet :=
  (a.compl.union b.compl).compl

/-- The characters of the first set that are not in the second. -/
def diff (a b : CharSet) : CharSet :=
  a.inter b.compl

/-- The characters in one of two sets only. -/
def symmDiff (a b : CharSet) : CharSet :=
  (a.diff b).union (b.diff a)

/-- Whether all characters of a set are in ASCII. -/
def isAscii (s : CharSet) : Bool :=
  s.ranges.all (·.high.toNat < 0x80)

/-- The only character of a set, if there is just one. -/
def only? (s : CharSet) : Option Char :=
  match s.ranges with
  | [r] => if r.low = r.high then some r.low else none
  | _ => none

end CharSet

/-! ## Tables -/

/-- The number that hexadecimal digits spell. -/
def hexNumber (cs : List Char) : Nat :=
  cs.foldl (fun n c =>
    n * 16 + (if isDigit c then c.toNat - '0'.toNat else c.toNat - 'A'.toNat + 10)) 0

/-- The code points that a word of a table stands for: one, those of a range, or, if `/2` follows,
every other one of a range. Gives the least, the greatest and the distance. -/
def spanOfWord (word : List Char) : Nat × Nat × Nat :=
  let (span, step) := match splitFirst '/' word with
    | some (span, _) => (span, 2)
    | none => (word, 1)
  let (low, high) := (splitFirst '-' span).getD (span, span)
  (hexNumber low, hexNumber high, step)

/-- The ranges that a word of a table stands for. -/
def rangesOfWord (word : List Char) : List CharRange :=
  let (low, high, step) := spanOfWord word
  if step = 1 then [⟨Char.ofNat low, Char.ofNat high⟩]
  else
    (List.range ((high - low) / step + 1)).map fun i =>
      .single (Char.ofNat (low + step * i))

/-- The set that the lines of a table spell. -/
def CharSet.ofLines (lines : List String) : CharSet :=
  ofRanges (lines.flatMap fun line => (pieces ' ' line.toList).flatMap rangesOfWord)

/-- A set in a table, under its names in lower case and without spaces. -/
structure NamedSet where
  names : List String
  lines : List String

namespace NamedSet

/-- The characters of a set in a table. -/
def chars (s : NamedSet) : CharSet :=
  .ofLines s.lines

/-- The characters of the set of a name. -/
def find? (sets : List NamedSet) (name : String) : Option CharSet :=
  (sets.find? (·.names.contains name)).map chars

/-- The characters of the sets of some names. -/
def unionOf (sets : List NamedSet) (names : List String) : CharSet :=
  .unionAll (names.filterMap (find? sets))

end NamedSet

end SvgPress.Unicode
