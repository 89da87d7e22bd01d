import SvgPress.Error

/-!
# Passes

Optimizing a text takes several passes, each of which works on the text that the last one gave. They
end when one fails, when the budget is used up, or when one does not make the text shorter in bytes.
-/

namespace SvgPress

/-- The number of passes that a configuration with repetition may use. -/
def maxPasses : Nat := 10

/-- The number of passes that a configuration may use. -/
def passBudget (multipass : Bool) : Nat :=
  if multipass then maxPasses else 1

/-- A text that has been optimized. -/
structure Optimized where
  /-- The text. -/
  text : String
  /-- The number of passes that were used. -/
  passes : Nat
deriving DecidableEq

/-- The size of the text in bytes. -/
def Optimized.size (o : Optimized) : Nat :=
  o.text.utf8ByteSize

/-- What is known between two passes. -/
structure PassState where
  /-- The number of passes that may be used. -/
  budget : Nat
  /-- The number of passes that have been used. -/
  used : Nat
  /-- The size of the text that the last pass gave. -/
  lastSize : Option Nat
deriving DecidableEq

/-- Where the passes stand. -/
inductive Passes where
  /-- Another pass works on a text. -/
  | running (state : PassState) (input : String)
  /-- No more passes. -/
  | done (outcome : Except Error Optimized)

namespace Passes

/-- The start of the passes over a text; there is at least one. -/
def start (budget : Nat) (input : String) : Passes :=
  .running ⟨max budget 1, 0, none⟩ input

/-- Whether a text is shorter than the one before it, if there is one. -/
def shrinks (lastSize : Option Nat) (text : String) : Bool :=
  lastSize.all (text.utf8ByteSize < ·)

/-- Take in the outcome of a pass. -/
def complete (state : PassState) (outcome : Except Error String) : Passes :=
  match outcome with
  | .error e => .done (.error e)
  | .ok text =>
    let used := state.used + 1
    if state.budget ≤ used || !shrinks state.lastSize text then .done (.ok ⟨text, used⟩)
    else .running ⟨state.budget, used, some text.utf8ByteSize⟩ text

end Passes

end SvgPress
