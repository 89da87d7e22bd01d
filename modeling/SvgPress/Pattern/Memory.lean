import Std.Data.HashMap
import SvgPress.Pattern.Encoding
import SvgPress.Pattern.Normal

/-!
# The memory of a pattern

A pattern runs as an automaton over the bytes of a text, once forwards and once backwards. This
module counts the memory of both automata as they are built: a state takes 32 bytes, each byte range
that a state branches on takes 8 more, and each alternative that it chooses from 4 more. A pattern
whose automata are too large is refused.

The states for one character set share what they have in common. They are found again in a store of
a fixed number of slots, in which a later state takes the slot of an earlier one, so that the count
depends on the numbers that states have.
-/

namespace SvgPress.Pattern

open Unicode

/-! ## Automata under construction -/

/-- An automaton under construction. -/
structure Automaton where
  /-- The number of states. -/
  states : Nat
  /-- The bytes that they take beyond 32 for each. -/
  extra : Nat

/-- The memory that an automaton may take: 10 MiB. -/
def memoryLimit : Nat := 10 * Nat.pow 2 20

namespace Automaton

/-- The memory of an automaton. -/
def memory (a : Automaton) : Nat :=
  32 * a.states + a.extra

/-- Add states that take some bytes more, as far as there is memory. -/
def grow (a : Automaton) (states extra : Nat) : Option Automaton :=
  let a := ⟨a.states + states, a.extra + extra⟩
  if a.memory ≤ memoryLimit then some a else none

/-- Connect the end of a part with what follows. An end that `chooses` takes one alternative
more. -/
def connect (a : Automaton) (chooses : Bool) : Option Automaton :=
  if chooses then a.grow 0 4 else some a

end Automaton

/-- A part of an automaton: the automaton with it, and whether its end chooses. -/
abbrev Part := Option (Automaton × Bool)

/-- The direction in which an automaton reads a text. -/
inductive Direction where
  | forwards
  | backwards
deriving DecidableEq

/-! ## Hashes -/

/-- Take a number into a hash: 64-bit FNV-1a over numbers in place of bytes. -/
def mixHash (h : UInt64) (n : Nat) : UInt64 :=
  (h ^^^ n.toUInt64) * 1099511628211

/-- The slot of some numbers in a store of a number of slots. -/
def slotOf (slots : Nat) (numbers : List Nat) : Nat :=
  (numbers.foldl mixHash 14695981039346656037).toNat % slots

/-! ## Sets, forwards -/

/-- The branches of a state: byte ranges with the states that they lead to. -/
abbrev Branches := List (ByteRange × Nat)

/-- The states that can be found again, by their slots. -/
abbrev BranchStore := Std.HashMap Nat (Branches × Nat)

/-- A state whose branches are not complete, with the byte range of its last branch, which leads to
the next one. -/
structure OpenState where
  branches : Branches
  last : Option ByteRange

/-- Close a state: its last branch leads to a given state. -/
def OpenState.close (s : OpenState) (next : Nat) : Branches :=
  match s.last with
  | some range => s.branches ++ [(range, next)]
  | none => s.branches

/-- The numbers that identify the branches of a state. -/
def branchNumbers (branches : Branches) : List Nat :=
  branches.flatMap fun (range, next) => [range.low, range.high, next]

/-- Add a state with some branches, unless it is found. Gives its number too. -/
def addBranches (branches : Branches) (store : BranchStore) (a : Automaton) :
    Option (Nat × BranchStore × Automaton) :=
  let slot := slotOf 10000 (branchNumbers branches)
  match store[slot]? with
  | some (found, number) =>
    if found = branches then some (number, store, a) else add slot
  | none => add slot
where
  /-- Add the state in a slot. -/
  add (slot : Nat) : Option (Nat × BranchStore × Automaton) :=
    (a.grow 1 (8 * branches.length)).map fun grown =>
      (a.states, store.insert slot (branches, a.states), grown)

/-- Close some states, each of which leads to the next and the last one to `target`, and add them.
Gives the number of the first. -/
def addOpenStates (target : Nat) :
    List OpenState → BranchStore → Automaton → Option (Nat × BranchStore × Automaton)
  | [], store, a => some (target, store, a)
  | s :: rest, store, a => do
    let (next, store, a) ← addOpenStates target rest store a
    addBranches (s.close next) store a

/-- Add a sequence of byte ranges to open states, each of which leads to the next. States on the way
of earlier sequences only are closed. -/
def addEncoding (target : Nat) :
    List ByteRange → List OpenState → BranchStore → Automaton →
      Option (List OpenState × BranchStore × Automaton)
  | [], opened, store, a => some (opened, store, a)
  | ranges, [], store, a => some (ranges.map fun r => ⟨[], some r⟩, store, a)
  | r :: ranges, s :: below, store, a =>
    if s.last = some r then do
      let (below, store, a) ← addEncoding target ranges below store a
      return (s :: below, store, a)
    else do
      let (next, store, a) ← addOpenStates target below store a
      return (⟨s.close next, some r⟩ :: ranges.map (fun r => ⟨[], some r⟩), store, a)

/-- Add the sequences of a set. -/
def addEncodings (target : Nat) :
    List (List ByteRange) → List OpenState → BranchStore → Automaton →
      Option (List OpenState × BranchStore × Automaton)
  | [], opened, store, a => some (opened, store, a)
  | encoding :: rest, opened, store, a => do
    let (opened, store, a) ← addEncoding target encoding opened store a
    addEncodings target rest opened store a

/-- Add the states of a set that is not in ASCII, for reading forwards. -/
def addSetForwards (s : CharSet) (a : Automaton) : Part := do
  let target := a.states
  let a ← a.grow 1 0
  let (opened, store, a) ←
    addEncodings target (s.ranges.flatMap encodings) [⟨[], none⟩] ∅ a
  let (_, _, a) ← addOpenStates target opened store a
  return (a, false)

/-! ## Sets, backwards -/

/-- The states that can be found again: where they lead to and on which bytes, by their slots. -/
abbrev StepStore := Std.HashMap Nat ((Nat × ByteRange) × Nat)

/-- Add states for byte ranges, each of which leads to the one before, and the first to `next`.
Gives the number of the last. -/
def addSteps :
    List ByteRange → (next : Nat) → StepStore → Automaton →
      Option (Nat × StepStore × Automaton)
  | [], next, store, a => some (next, store, a)
  | r :: rest, next, store, a =>
    let slot := slotOf 1000 [next, r.low, r.high]
    match store[slot]? with
    | some (found, number) =>
      if found = (next, r) then addSteps rest number store a
      else do addSteps rest a.states (store.insert slot ((next, r), a.states)) (← a.grow 1 0)
    | none => do addSteps rest a.states (store.insert slot ((next, r), a.states)) (← a.grow 1 0)

/-- Add the sequences of a set, each of them an alternative. -/
def addReversed (target : Nat) : List (List ByteRange) → StepStore → Automaton → Option Automaton
  | [], _, a => some a
  | encoding :: rest, store, a => do
    let (_, store, a) ← addSteps encoding target store a
    addReversed target rest store (← a.grow 0 4)

/-- Add the states of a set that is not in ASCII, for reading backwards. -/
def addSetBackwards (s : CharSet) (a : Automaton) : Part := do
  let grown ← a.grow 2 0
  let a ← addReversed (a.states + 1) (s.ranges.flatMap encodings) ∅ grown
  return (a, false)

/-- Add the states of a set. Sets in ASCII take one state that branches and one to end in. -/
def addSet (direction : Direction) (s : CharSet) (a : Automaton) : Part :=
  if s.isAscii then (a.grow 2 (8 * s.ranges.length)).map (·, false)
  else
    match direction with
    | .forwards => addSetForwards s a
    | .backwards => addSetBackwards s a

/-! ## Literals -/

/-- The bytes of a literal in the order in which they are read. -/
def literalBytes (direction : Direction) (cs : List Char) : List Nat :=
  let bytes := cs.flatMap fun c => encodedBytes c.toNat
  match direction with
  | .forwards => bytes
  | .backwards => bytes.reverse

/-- The words that stand between those that end here; `words` are in the order of the literals. -/
def wordGroups (words : List (List Nat)) : List (List (List Nat)) :=
  words.foldr (fun word groups =>
    match word, groups with
    | [], _ => [] :: groups
    | _ :: _, first :: rest => (word :: first) :: rest
    | _ :: _, [] => [[word]]) [[]]

/-- How many words end here that add nothing, because one has ended here before and no word has gone
on. -/
def idleEnds (groups : List (List (List Nat))) : Nat :=
  (groups.takeWhile (·.isEmpty)).length - 1

/-- Add the states for words that start here and share their starts, with `bound` greater than the
length of each. -/
def addWords : (bound : Nat) → (words : List (List Nat)) → Automaton → Option Automaton
  | 0, _, a => some a
  | bound + 1, words, a => do
    let groups := wordGroups words
    let a ← groups.foldlM (fun (a : Automaton) words => do
      let firsts := (words.filterMap List.head?).eraseDups
      let a ← firsts.foldlM (fun (a : Automaton) first =>
        let rests := (words.filter (·.head? = some first)).map List.tail
        if rests.all (·.isEmpty) then some a else addWords bound rests a) a
      match firsts with
      | [] => some a
      | [_] => a.grow 1 0
      | _ => a.grow 1 (8 * firsts.length)) a
    let ends := groups.length - 1 - idleEnds groups
    a.grow 1 (4 * ((groups.filter (!·.isEmpty)).length + ends))

/-- The characters of patterns that are literals. -/
def literals? (ps : List Pattern) : Option (List (List Char)) :=
  ps.mapM fun
    | literal cs => some cs
    | _ => none

/-- Add the states of literals that are alternatives. -/
def addLiterals (direction : Direction) (literals : List (List Char)) (a : Automaton) : Part := do
  let words := literals.map (literalBytes direction)
  let bound := words.foldl (fun n word => max n word.length) 0
  return (← addWords (bound + 1) words (← a.grow 1 0), false)

/-! ## Repetitions -/

/-- Build a part a number of times in a row; `before` tells whether the end before it chooses, if
there is one. -/
def addTimes (build : Automaton → Part) : (n : Nat) → (before : Option Bool) → Automaton → Part
  | 0, none, a => (a.grow 1 0).map (·, false)
  | 0, some chooses, a => some (a, chooses)
  | n + 1, before, a => do
    let (a, chooses) ← build a
    addTimes build n (some chooses) (← a.connect (before == some true))

/-- Build a part up to a number of times, each time with the choice to leave. -/
def addOptions (build : Automaton → Part) : (n : Nat) → (before : Bool) → Automaton → Part
  | 0, before, a => do return (← a.connect before, false)
  | n + 1, before, a => do
    let (a, chooses) ← build (← a.grow 1 0)
    addOptions build n chooses (← (← a.connect before).grow 0 8)

/-- Build a part any number of times from `least` on. A part that `consumes` takes a character at
least. -/
def addMany (build : Automaton → Part) (consumes : Bool) (least : Nat) (a : Automaton) : Part :=
  match least with
  | 0 =>
    if consumes then do
      let (a, chooses) ← build (← a.grow 1 0)
      return (← (← a.grow 0 4).connect chooses, true)
    else do
      let (a, chooses) ← build a
      return (← (← a.grow 3 16).connect chooses, false)
  | 1 => do
    let (a, chooses) ← build a
    return (← (← a.grow 1 4).connect chooses, true)
  | least + 2 => do
    let (a, before) ← addTimes build (least + 1) none a
    let (a, chooses) ← build a
    return (← (← (← a.grow 1 4).connect before).connect chooses, true)

/-- Build a part as often as a repetition has it. -/
def addRepeated (build : Automaton → Part) (consumes : Bool) (least : Nat) (most : Option Nat)
    (a : Automaton) : Part :=
  match most with
  | none => addMany build consumes least a
  | some most =>
    if least = 0 && most = 1 then do
      let (a, chooses) ← build (← a.grow 1 0)
      return (← (← a.grow 1 8).connect chooses, false)
    else if least = most then addTimes build least none a
    else do
      let (a, before) ← addTimes build least none a
      addOptions build (most - least) before (← a.grow 1 0)

/-! ## What decides about the states of a pattern -/

mutual

/-- Whether a pattern holds a set of no character. -/
def holdsNothing : Pattern → Bool
  | char s => s.ranges.isEmpty
  | repeated p _ _ _ => p.holdsNothing
  | group p => p.holdsNothing
  | sequence ps => holdNothing ps
  | either ps => holdNothing ps
  | _ => false

/-- Whether one of some patterns holds a set of no character. -/
def holdNothing : List Pattern → Bool
  | [] => false
  | p :: rest => p.holdsNothing || holdNothing rest

end

mutual

/-- Whether a pattern does not match the empty text. -/
def isNeverEmpty : Pattern → Bool
  | literal _ => true
  | char _ => true
  | repeated p least _ _ => least != 0 && p.isNeverEmpty
  | group p => p.isNeverEmpty
  | sequence ps => isOneNeverEmpty ps
  | either ps => areNeverEmpty ps
  | _ => false

/-- Whether one of some patterns does not match the empty text. -/
def isOneNeverEmpty : List Pattern → Bool
  | [] => false
  | p :: rest => p.isNeverEmpty || isOneNeverEmpty rest

/-- Whether none of some patterns matches the empty text. -/
def areNeverEmpty : List Pattern → Bool
  | [] => true
  | p :: rest => p.isNeverEmpty && areNeverEmpty rest

end

/-- Whether a pattern is seen to take a character at least: a set of no character hides it. -/
def consumes (p : Pattern) : Bool :=
  !p.holdsNothing && p.isNeverEmpty

mutual

/-- Whether an assertion has to hold where a match starts. -/
def opensWith (a : Assertion) : Pattern → Bool
  | assertion b => a = b
  | repeated p least _ _ => least != 0 && p.opensWith a
  | group p => p.opensWith a
  | sequence ps => sequenceOpensWith a ps
  | either ps => allOpenWith a ps
  | _ => false

/-- Whether an assertion has to hold where a match of some patterns in order starts. -/
def sequenceOpensWith (a : Assertion) : List Pattern → Bool
  | [] => false
  | p :: rest => p.opensWith a || (p.isAlwaysEmpty && sequenceOpensWith a rest)

/-- Whether an assertion has to hold where a match of any of some patterns starts. -/
def allOpenWith (a : Assertion) : List Pattern → Bool
  | [] => true
  | p :: rest => p.opensWith a && allOpenWith a rest

end

mutual

/-- A pattern with the order of its sequences turned round. -/
def turned : Pattern → Pattern
  | repeated p least most greedy => repeated p.turned least most greedy
  | group p => group p.turned
  | sequence ps => sequence (allTurned ps).reverse
  | either ps => either (allTurned ps)
  | p => p

/-- Some patterns, each turned round. -/
def allTurned : List Pattern → List Pattern
  | [] => []
  | p :: rest => p.turned :: allTurned rest

end

/-! ## Patterns -/

mutual

/-- Add the states of a pattern, the parts of a sequence in the order in which they are read. -/
def addPattern (direction : Direction) : Pattern → Automaton → Part
  | empty, a => (a.grow 1 0).map (·, false)
  | assertion _, a => (a.grow 1 0).map (·, false)
  | literal cs, a => (a.grow (literalBytes direction cs).length 0).map (·, false)
  | char s, a => addSet direction s a
  | repeated p least most _, a =>
    addRepeated (addPattern direction p) p.consumes least most a
  | group p, a =>
    match direction with
    | .forwards => do
      let (a, chooses) ← addPattern direction p (← a.grow 1 0)
      return (← (← a.grow 1 0).connect chooses, false)
    | .backwards => addPattern direction p a
  | sequence ps, a => addInOrder direction ps none a
  | either ps, a =>
    match literals? ps with
    | some literals => addLiterals direction literals a
    | none => addAlternatives direction ps a

/-- Add the states of some patterns one after the other; `before` tells whether the end before them
chooses, if there is one. -/
def addInOrder (direction : Direction) : List Pattern → (before : Option Bool) → Automaton → Part
  | [], none, a => (a.grow 1 0).map (·, false)
  | [], some chooses, a => some (a, chooses)
  | p :: rest, before, a => do
    let (a, chooses) ← addPattern direction p a
    addInOrder direction rest (some chooses) (← a.connect (before == some true))

/-- Add the states of alternatives. The state that chooses comes after the first two of them. -/
def addAlternatives (direction : Direction) : List Pattern → Automaton → Part
  | [], a => (a.grow 1 0).map (·, false)
  | [p], a => addPattern direction p a
  | p :: q :: rest, a => do
    let (a, first) ← addPattern direction p a
    let (a, second) ← addPattern direction q a
    let a ← (← (← a.grow 2 8).connect first).connect second
    return (← addFurther direction rest a, false)

/-- Add the states of further alternatives. -/
def addFurther (direction : Direction) : List Pattern → Automaton → Option Automaton
  | [], a => some a
  | p :: rest, a => do
    let (a, chooses) ← addPattern direction p a
    addFurther direction rest (← (← a.grow 0 4).connect chooses)

end

/-- The automaton of a pattern in a direction, if there is memory for it. A pattern that can match
inside a text takes a loop over the bytes before the match. -/
def automaton? (direction : Direction) (p : Pattern) : Option Automaton := do
  let (p, edge) := match direction with
    | .forwards => (p, Assertion.textStart)
    | .backwards => (p.turned, Assertion.textEnd)
  let start : Automaton := ⟨0, 0⟩
  let a ← if p.opensWith edge then start.grow 1 0 else start.grow 3 16
  let (a, chooses) ← addPattern direction (group p) a
  (← a.connect chooses).grow 1 0

/-- Whether there is memory for both automata of a pattern. -/
def fitsMemory (p : Pattern) : Bool :=
  (automaton? .forwards p).isSome && (automaton? .backwards p).isSome

end SvgPress.Pattern
