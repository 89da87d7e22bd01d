import SvgPress.Builtin
import SvgPress.Config
import SvgPress.Markup.Reader
import SvgPress.Passes
import SvgPress.Pipeline.Walk

/-!
# The optimizer

An engine is built from a configuration and optimizes any number of texts. One pass reads a text
into a document, runs the pipeline on it and writes it.
-/

namespace SvgPress

/-- A configuration that is ready to run. -/
structure Engine where
  /-- The plugins. -/
  pipeline : Pipeline
  /-- The style of the output. -/
  style : Markup.Style
  /-- The number of passes that may be used. -/
  budget : Nat

namespace Engine

/-- Build an engine with the plugins of a registry. An unknown plugin is reported before any
parameter that a plugin refuses. -/
def ofConfig (c : Config) (r : Registry) : Except Error Engine := do
  let descriptors ← (c.resolve r).mapError .config
  let pipeline ← Pipeline.ofDescriptors descriptors
  return ⟨pipeline, c.style, passBudget c.multipass⟩

/-- One pass over a text. -/
def optimizeOnce (e : Engine) (input : String) : Report Error String := do
  let d ← Report.ofExcept (Markup.parse input)
  let d ← e.pipeline.apply d
  Report.ofExcept ((Markup.write e.style d).mapError .serialize)

/-- Run at most `bound` passes. -/
def runPasses (e : Engine) : (bound : Nat) → (said : Array Note) → Passes →
    Report Error Optimized
  | _, said, .done outcome => ⟨said, outcome⟩
  | 0, said, .running state input => ⟨said, .ok ⟨input, state.used⟩⟩
  | bound + 1, said, .running state input =>
    let pass := e.optimizeOnce input
    runPasses e bound (said ++ pass.notes) (Passes.complete state pass.outcome)

/-- Optimize a text. The budget ends the passes, so the bound is never reached. -/
def optimize (e : Engine) (input : String) : Report Error Optimized :=
  e.runPasses (e.budget + 1) #[] (Passes.start e.budget input)

end Engine

/-- Optimize a text with a configuration and the plugins of the library. -/
def minify (c : Config) (input : String) : Report Error String :=
  match Engine.ofConfig c Builtin.registry with
  | .ok engine => (engine.optimize input).bind fun optimized => .ok optimized.text
  | .error e => .error e

end SvgPress
