import SvgPress.Pattern.Basic

/-!
# Normal forms of patterns

Patterns are built in normal form: characters in a row are one literal, sequences and alternatives
do not hold their own kind directly, alternatives that each match one character are one set, and a
start that all alternatives share stands before them. The form fixes how large the automaton of a
pattern is; what the pattern matches does not depend on it.
-/

namespace SvgPress.Pattern

open Unicode

/-! ## What a pattern can match -/

mutual

/-- Whether a pattern matches the empty text only. -/
def isAlwaysEmpty : Pattern → Bool
  | empty | assertion _ => true
  | literal _ | char _ => false
  | repeated p _ most _ => most.isSome && p.isAlwaysEmpty
  | group p => p.isAlwaysEmpty
  | sequence ps | either ps => areAlwaysEmpty ps

/-- Whether all of some patterns match the empty text only. -/
def areAlwaysEmpty : List Pattern → Bool
  | [] => true
  | p :: rest => p.isAlwaysEmpty && areAlwaysEmpty rest

end

mutual

/-- Whether two patterns are written alike. No group is like another. -/
def isLike : Pattern → Pattern → Bool
  | empty, empty => true
  | literal cs, literal ds => cs == ds
  | char s, char t => s == t
  | assertion a, assertion b => a == b
  | repeated p least most greedy, repeated q least' most' greedy' =>
    least == least' && most == most' && greedy == greedy' && isLike p q
  | sequence ps, sequence qs => areLike ps qs
  | either ps, either qs => areLike ps qs
  | _, _ => false

/-- Whether two lists of patterns are written alike. -/
def areLike : List Pattern → List Pattern → Bool
  | [], [] => true
  | p :: ps, q :: qs => isLike p q && areLike ps qs
  | _, _ => false

end

/-! ## Construction -/

/-- The pattern of a character of a set. -/
def ofSet (s : CharSet) : Pattern :=
  match s.only? with
  | some c => literal [c]
  | none => char s

/-- Repetitions of a pattern. What is always empty is matched once at most. -/
def times (p : Pattern) (least : Nat) (most : Option Nat) (greedy : Bool) : Pattern :=
  let (least, most) :=
    if p.isAlwaysEmpty then (min least 1, some (min (most.getD 1) 1)) else (least, most)
  if least = 0 && most = some 0 then empty
  else if least = 1 && most = some 1 then p
  else repeated p least most greedy

/-- The parts of a pattern in a sequence. -/
def parts : Pattern → List Pattern
  | empty => []
  | sequence ps => ps
  | p => [p]

/-- Put a pattern in front of others; a literal joins one that follows. -/
def consPart (p : Pattern) (ps : List Pattern) : List Pattern :=
  match p, ps with
  | literal cs, literal ds :: rest => literal (cs ++ ds) :: rest
  | _, _ => p :: ps

/-- The pattern of some patterns one after the other. -/
def inOrder (ps : List Pattern) : Pattern :=
  match (ps.flatMap parts).foldr consPart [] with
  | [] => empty
  | [p] => p
  | ps => sequence ps

/-- The alternatives of a pattern. -/
def alternatives : Pattern → List Pattern
  | either ps => ps
  | p => [p]

/-- The character of a literal of one character. -/
def literalChar? : Pattern → Option Char
  | literal [c] => some c
  | _ => none

/-- The set of a pattern for one character. -/
def set? : Pattern → Option CharSet
  | char s => some s
  | _ => none

/-- The parts of a sequence. -/
def sequence? : Pattern → Option (List Pattern)
  | sequence ps => some ps
  | _ => none

/-- How many patterns two lists share at their starts. -/
def sharedLength : List Pattern → List Pattern → Nat
  | p :: ps, q :: qs => if isLike p q then sharedLength ps qs + 1 else 0
  | _, _ => 0

/-- The pattern of alternatives, of which those for one character make one set. -/
def oneOf (ps : List Pattern) : Pattern :=
  match ps.flatMap alternatives with
  | [p] => p
  | ps =>
    match ps.mapM literalChar? with
    | some cs => ofSet (.ofList cs)
    | none =>
      match ps.mapM set? with
      | some sets => ofSet (.unionAll sets)
      | none => either ps

/-- The pattern of alternatives. A start that all of them share stands before them. -/
def anyOf (ps : List Pattern) : Pattern :=
  match oneOf ps with
  | either ps =>
    match ps.mapM sequence? with
    | some (first :: rest) =>
      let shared := rest.foldl (fun n qs => min n (sharedLength first qs)) first.length
      if shared = 0 then either ps
      else
        let others := (first :: rest).map fun qs => inOrder (qs.drop shared)
        inOrder (first.take shared ++ [oneOf others])
    | _ => either ps
  | p => p

end SvgPress.Pattern
