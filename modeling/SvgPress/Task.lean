import SvgPress.Engine

/-!
# Optimizing in steps

A task does the work of an engine in steps, so that a caller can do other work in between. A step
reads a chunk of the text, runs the pipeline, or writes the document. The outcome is delivered at
the step that decides it.
-/

namespace SvgPress

/-- What a task does next. -/
inductive Work where
  /-- Read a chunk of the text. -/
  | read (state : PassState) (reader : Markup.Reader)
  /-- Run the pipeline. -/
  | rewrite (state : PassState) (d : Document)
  /-- Write the document. -/
  | write (state : PassState) (d : Document)
  /-- Nothing. -/
  | done

/-- An optimization that is done in steps. -/
structure Task where
  /-- The engine that does the work. -/
  engine : Engine
  /-- What comes next. -/
  work : Work
  /-- The outcomes that have been delivered. -/
  delivered : List (Except Error Optimized)

namespace Task

/-- Go on from where the passes stand. -/
def settle (t : Task) : Passes → Task
  | .running state input => { t with work := .read state (Markup.Reader.ofString input) }
  | .done outcome => { t with work := .done, delivered := t.delivered ++ [outcome] }

/-- The task of optimizing a text; nothing is done until the first step. -/
def start (engine : Engine) (input : String) : Task :=
  settle ⟨engine, .done, []⟩ (Passes.start engine.budget input)

/-- Whether nothing is left to do. -/
def isDone (t : Task) : Bool :=
  match t.work with
  | .done => true
  | _ => false

/-- Take one step; gives the task afterwards, with what plugins said on the way. -/
def step (t : Task) : Array Note × Task :=
  match t.work with
  | .read state reader =>
    match reader.step with
    | (none, reader) => (#[], { t with work := .read state reader })
    | (some (.ok d), _) => (#[], { t with work := .rewrite state d })
    | (some (.error e), _) => (#[], t.settle (Passes.complete state (.error e)))
  | .rewrite state d =>
    match t.engine.pipeline.apply d with
    | ⟨notes, .ok d⟩ => (notes, { t with work := .write state d })
    | ⟨notes, .error e⟩ => (notes, t.settle (Passes.complete state (.error e)))
  | .write state d =>
    let text := (Markup.write t.engine.style d).mapError .serialize
    (#[], t.settle (Passes.complete state text))
  | .done => (#[], t)

end Task

end SvgPress
