import SvgPress.Markup.Builder

/-!
# Reading documents

A `Reader` turns a text into a document in steps of a bounded number of tokens, so that a caller can
do other work in between. `parse` takes all the steps at once. A reader hands its outcome out once.
-/

namespace SvgPress.Markup

/-- What is known after some tokens of a text. -/
inductive Progress where
  /-- The input is not decided yet. -/
  | running (scanner : Scanner) (builder : Builder)
  /-- The document, or the first fault. -/
  | done (outcome : Except Error Document)

/-- Read one token. Faults of the token itself carry their own position, faults found by the builder
the position after the token. -/
def advance (scanner : Scanner) (builder : Builder) : Progress :=
  match scanner.next with
  | .error fault => .done (.error (.parse fault.cause (some fault.position)))
  | .ok (.endOfInput, after) =>
    .done (builder.finish.mapError fun cause => .parse cause (some after.position))
  | .ok (token, after) =>
    match builder.feed token with
    | .ok builder => .running after builder
    | .error cause => .done (.error (.parse cause (some after.position)))

/-- Read at most `count` tokens. -/
def advanceBy : (count : Nat) → Scanner → Builder → Progress
  | 0, scanner, builder => .running scanner builder
  | count + 1, scanner, builder =>
    match advance scanner builder with
    | .running scanner builder => advanceBy count scanner builder
    | .done outcome => .done outcome

/-- A text on its way to a document. -/
structure Reader where
  /-- The number of tokens that one step reads at most. -/
  chunk : Nat
  /-- What has been read, until the outcome has been handed out. -/
  state : Option (Scanner × Builder)

namespace Reader

/-- The number of tokens of a step, unless said otherwise. -/
def defaultChunk : Nat := 64

/-- The reader at the start of a text. -/
def ofString (s : String) : Reader :=
  ⟨defaultChunk, some (Scanner.ofString s, Builder.empty)⟩

/-- Set the number of tokens of a step; a step reads at least one. -/
def withChunk (r : Reader) (tokens : Nat) : Reader :=
  { r with chunk := max tokens 1 }

/-- Take one step. Gives the outcome, if this step decides it, and the reader afterwards. -/
def step (r : Reader) : Option (Except Error Document) × Reader :=
  match r.state with
  | none => (some (.error (.parse .finished none)), r)
  | some (scanner, builder) =>
    match advanceBy r.chunk scanner builder with
    | .running scanner builder => (none, { r with state := some (scanner, builder) })
    | .done outcome => (some outcome, { r with state := none })

/-- Take at most `bound` steps. -/
def run : (bound : Nat) → Reader → Except Error Document
  | 0, _ => .error (.parse .finished none)
  | bound + 1, r =>
    match r.step with
    | (some outcome, _) => outcome
    | (none, r) => run bound r

/-- Take steps until the outcome is there. A token takes at least one character, so there are no
more steps than characters, and one for the end of the input. -/
def finish (r : Reader) : Except Error Document :=
  match r.state with
  | none => r.run 1
  | some (scanner, _) => r.run (scanner.rest.length + 1)

/-- Take at most `bound` steps, and hand the outcome over as soon as it is there. -/
def deliver {α : Type} (receive : Except Error Document → α) : (bound : Nat) → Reader → α
  | 0, _ => receive (.error (.parse .finished none))
  | bound + 1, r =>
    match r.step with
    | (some outcome, _) => receive outcome
    | (none, r) => deliver receive bound r

end Reader

/-- The document that a text describes. -/
def parse (s : String) : Except Error Document :=
  (Reader.ofString s).finish

/-- Read a text step by step, and hand the outcome over. -/
def parseThen {α : Type} (s : String) (receive : Except Error Document → α) : α :=
  (Reader.ofString s).deliver receive ((Scanner.ofString s).rest.length + 1)

end SvgPress.Markup
