import SvgPress.Main
import SvgPress.Task
import SvgPress.Content
import SvgPress.Request
import SvgPress.Proofs.Tree.Forest
import SvgPress.Proofs.Tree.Copies
import SvgPress.Proofs.Tree.Shape
import SvgPress.Proofs.Markup.Reading
import SvgPress.Proofs.Tree.Built
import SvgPress.Proofs.Tree.Reachable
import SvgPress.Proofs.Tree.Keeping
import SvgPress.Proofs.Markup.Owing
import SvgPress.Proofs.Tree.Refusals
import SvgPress.Proofs.Optimizer.Iterates
import SvgPress.Proofs.Optimizer.Steps
import SvgPress.Proofs.Checked
import SvgPress.Proofs.Cutting
import SvgPress.Proofs.Keyed
import SvgPress.Proofs.Markup.Attributes
import SvgPress.Proofs.Markup.Building
import SvgPress.Proofs.Markup.RoundTrip
import SvgPress.Proofs.Markup.Chunks
import SvgPress.Proofs.Markup.Brackets
import SvgPress.Proofs.Markup.Raising
import SvgPress.Proofs.Markup.Accepting
import SvgPress.Proofs.Walk.Calls
import SvgPress.Proofs.Walk.Shrinking
import SvgPress.Proofs.Tree.Pruning
import SvgPress.Proofs.Walk.Editing
import SvgPress.Proofs.Walk.Touring
import SvgPress.Proofs.Tree.Trimming
import SvgPress.Proofs.Tree.Moves
import SvgPress.Proofs.Tree.Faithful
import SvgPress.Proofs.Walk.Trimming
import SvgPress.Proofs.Markup.Parsed
import SvgPress.Proofs.Tree.Carrying
import SvgPress.Proofs.Optimizer.Configured
import SvgPress.Proofs.Walk.Preserving
import SvgPress.Proofs.Builtin.Trimming
import SvgPress.Proofs.Builtin.Passes
import SvgPress.Proofs.Walk.Replacing
import SvgPress.Proofs.Walk.Settling
import SvgPress.Proofs.Walk.Rebuilding
import SvgPress.Proofs.Walk.Remaking
import SvgPress.Proofs.Walk.Reaching
import SvgPress.Proofs.Walk.Batching
import SvgPress.Proofs.Walk.Grouping
import SvgPress.Proofs.Builtin.Edits
import SvgPress.Proofs.Builtin.Collapsing
import SvgPress.Proofs.Builtin.Batching
import SvgPress.Proofs.Builtin.Sweeping
import SvgPress.Proofs.Builtin.Tidying
import SvgPress.Proofs.Builtin.Inheriting
import SvgPress.Proofs.Builtin.Normal
import SvgPress.Proofs.Builtin.Scopes
import SvgPress.Proofs.Builtin.Qualified
import SvgPress.Proofs.Optimizer.Pressed
import SvgPress.Proofs.Optimizer.Nested
import SvgPress.Proofs.Optimizer.Blanks
import SvgPress.Proofs.Optimizer.Selecting
import SvgPress.Proofs.CommandLine.Overriding
import SvgPress.Proofs.Markup.Outline
import SvgPress.Proofs.Markup.Shown
import SvgPress.Proofs.Tree.Traversals
import SvgPress.Proofs.Number.Decimals
import SvgPress.Proofs.Number.Spelled
import SvgPress.Proofs.Number.Nearest
import SvgPress.Proofs.Number.Magnitude
import SvgPress.Proofs.Number.Shortest
import SvgPress.Proofs.Path.Notation
import SvgPress.Proofs.Path.Pieces
import SvgPress.Proofs.Path.Rereading
import SvgPress.Proofs.Path.Lengths
import SvgPress.Proofs.Path.Consuming
import SvgPress.Proofs.Path.Words
import SvgPress.Proofs.Path.Surplus
import SvgPress.Proofs.Path.Running
import SvgPress.Proofs.Css.Meaning
import SvgPress.Proofs.Css.Styles
import SvgPress.Proofs.Walk.Amending
import SvgPress.Proofs.Builtin.Defaults
import SvgPress.Proofs.Builtin.Naming
import SvgPress.Proofs.Walk.Culling
import SvgPress.Proofs.Builtin.Rendering
import SvgPress.Proofs.Bytes
import SvgPress.Proofs.Builtin.Ordering
