import SvgPress.Unicode.Property

/-!
# Patterns

Patterns are regular expressions over characters, with assertions about the place between two
characters. A pattern takes a set of places in a text to the set of places where a match that starts
at one of them can end, so whether there is a match does not depend on the order in which
alternatives are tried.
-/

namespace SvgPress.Pattern

open Unicode

/-! ## Assertions -/

/-- A condition on the word characters before and after a place. -/
inductive Boundary where
  /-- A word starts or ends here. -/
  | edge
  /-- No word starts or ends here. -/
  | noEdge
  /-- A word starts here. -/
  | start
  /-- A word ends here. -/
  | finish
  /-- No word character stands before. -/
  | noneBefore
  /-- No word character stands after. -/
  | noneAfter
deriving DecidableEq

/-- A condition on the place between two characters. -/
inductive Assertion where
  /-- The start of the text. -/
  | textStart
  /-- The end of the text. -/
  | textEnd
  /-- The start of a line; lines may end in a carriage return if `returns`. -/
  | lineStart (returns : Bool)
  /-- The end of a line. -/
  | lineEnd (returns : Bool)
  /-- A boundary of words, whose characters are those of ASCII unless `unicode`. -/
  | word (unicode : Bool) (boundary : Boundary)
deriving DecidableEq

/-- The word characters of ASCII. -/
def asciiWord : CharSet :=
  .ofRanges [⟨'0', '9'⟩, ⟨'A', 'Z'⟩, .single '_', ⟨'a', 'z'⟩]

/-- Whether a boundary stands between two characters that are in words or not. -/
def Boundary.holds (boundary : Boundary) (before after : Bool) : Bool :=
  match boundary with
  | edge => before != after
  | noEdge => before == after
  | start => !before && after
  | finish => before && !after
  | noneBefore => !before
  | noneAfter => !after

/-- Whether an assertion holds at a place of a text. -/
def Assertion.holds (a : Assertion) (text : Array Char) (place : Nat) : Bool :=
  let before := if place = 0 then none else text[place - 1]?
  let after := text[place]?
  match a with
  | textStart => before.isNone
  | textEnd => after.isNone
  | lineStart false => before.all (· == '\n')
  | lineEnd false => after.all (· == '\n')
  | lineStart true =>
    before.all fun c => c == '\n' || (c == '\r' && !after.any (· == '\n'))
  | lineEnd true =>
    after.all fun c => c == '\r' || (c == '\n' && !before.any (· == '\r'))
  | word unicode boundary =>
    let chars := if unicode then wordChars else asciiWord
    boundary.holds (before.any chars.contains) (after.any chars.contains)

end Pattern

/-! ## Patterns -/

/-- A pattern. -/
inductive Pattern where
  /-- Matches the empty text. -/
  | empty
  /-- Matches some characters in a row. -/
  | literal (cs : List Char)
  /-- Matches a character of a set. -/
  | char (set : Unicode.CharSet)
  /-- Matches the empty text where a condition holds. -/
  | assertion (a : Pattern.Assertion)
  /-- Matches a number of repetitions, many of them rather than few if `greedy`. -/
  | repeated (p : Pattern) (least : Nat) (most : Option Nat) (greedy : Bool)
  /-- Matches what a pattern matches, and remembers it. -/
  | group (p : Pattern)
  /-- Matches some patterns one after the other. -/
  | sequence (ps : List Pattern)
  /-- Matches what one of some patterns matches. -/
  | either (ps : List Pattern)

namespace Pattern

/-! ## Matches -/

/-- The places reached by at most `bound` more steps from the places of `reached`, of which `new`
have not been left yet. -/
def closure (step : List Nat → List Nat) :
    (bound : Nat) → (reached new : List Nat) → List Nat
  | 0, reached, _ => reached
  | bound + 1, reached, new =>
    match (step new).filter (!reached.contains ·) with
    | [] => reached
    | further => closure step bound (reached ++ further) further

/-- Apply a function a number of times, or until no place is left. -/
def iterate (step : List Nat → List Nat) : Nat → List Nat → List Nat
  | _, [] => []
  | 0, places => places
  | n + 1, places => iterate step n (step places)

/-- The place after some characters in a row. -/
def literalEnd? (text : Array Char) : (cs : List Char) → (place : Nat) → Option Nat
  | [], place => some place
  | c :: rest, place => if text[place]? = some c then literalEnd? text rest (place + 1) else none

mutual

/-- The places where a match can end that starts at one of the given places. -/
def ends (text : Array Char) : Pattern → List Nat → List Nat
  | empty, places => places
  | literal cs, places => places.filterMap (literalEnd? text cs)
  | char set, places =>
    places.filterMap fun place =>
      if (text[place]?).any set.contains then some (place + 1) else none
  | assertion a, places => places.filter (a.holds text ·)
  | repeated p least most _, places =>
    let step := ends text p
    let reached := iterate step least places
    match most with
    | none => closure step (text.size + 1) reached reached
    | some most => closure step (most - least) reached reached
  | group p, places => ends text p places
  | sequence ps, places => endsInOrder text ps places
  | either ps, places => (endsOfAny text ps places).eraseDups

/-- The places where a match of some patterns one after the other can end. -/
def endsInOrder (text : Array Char) : List Pattern → List Nat → List Nat
  | [], places => places
  | p :: rest, places => endsInOrder text rest (ends text p places)

/-- The places where a match of one of some patterns can end. -/
def endsOfAny (text : Array Char) : List Pattern → List Nat → List Nat
  | [], _ => []
  | p :: rest, places => ends text p places ++ endsOfAny text rest places

end

/-- Whether a pattern matches a part of a text. -/
def occursIn (p : Pattern) (s : String) : Bool :=
  let text := s.toList.toArray
  !(ends text p (List.range (text.size + 1))).isEmpty

end Pattern

end SvgPress
