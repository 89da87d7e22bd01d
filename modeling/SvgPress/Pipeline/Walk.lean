import SvgPress.Pipeline.Basic

/-!
# Walking the tree

A group of stages that visit nodes shares one walk. At each node the stages run in order until one
removes the node or the node leaves its parent. Child lists are read when their turn comes and are
not read again, so a node is left out if it has left the parent it was found under.

What is still to be done is a stack of steps. Plugins may grow the tree while it is walked, so the
number of steps is bounded only for plugins that do not; the walk takes at most `walkBound` of them.
-/

namespace SvgPress

/-- What is left of a walk, in pieces. -/
inductive WalkStep where
  /-- Children of a node that are still to be walked. -/
  | children (parent : NodeId) (rest : List NodeId)
  /-- A node whose subtree is done. -/
  | visit (parent child : NodeId)

/-- Run stages on a node below `parent`, in order. Tells whether the node is still there. -/
def visitNode (parent child : NodeId) :
    List Stage → Document → Report Error (Document × Bool)
  | [], d => .ok (d, true)
  | stage :: rest, d => do
    let (d, decision) ← (stage.rewriter.visit d child).mapError stage.failure
    if decision = .remove then
      if parent = .root && d.isElement child then
        .error (stage.failure ⟨"cannot remove the document element"⟩)
      else return (d.detach child, false)
    else if d.parent? child = some parent then visitNode parent child rest d
    else return (d, false)

/-- Take one step. Gives the document and the steps that come before all others. -/
def WalkStep.take (stages : List Stage) (childrenFirst : Bool) (d : Document) :
    WalkStep → Report Error (Document × List WalkStep)
  | .visit parent child =>
    if d.parent? child = some parent then
      (visitNode parent child stages d).bind fun (d, _) => .ok (d, [])
    else .ok (d, [])
  | .children _ [] => .ok (d, [])
  | .children parent (child :: rest) =>
    if d.parent? child != some parent then .ok (d, [.children parent rest])
    else if childrenFirst then
      .ok (d, [.children child (d.children child), .visit parent child, .children parent rest])
    else
      (visitNode parent child stages d).bind fun (d, stays) =>
        if stays then .ok (d, [.children child (d.children child), .children parent rest])
        else .ok (d, [.children parent rest])

/-- Take at most `bound` steps; `said` is what was said before. Gives nothing if steps are left. -/
def walkFrom (stages : List Stage) (childrenFirst : Bool) :
    (bound : Nat) → (said : Array Note) → Document → List WalkStep →
      Option (Report Error Document)
  | _, said, d, [] => some ⟨said, .ok d⟩
  | 0, _, _, _ :: _ => none
  | bound + 1, said, d, step :: pending =>
    match step.take stages childrenFirst d with
    | ⟨notes, .ok (d, first)⟩ =>
      walkFrom stages childrenFirst bound (said ++ notes) d (first ++ pending)
    | ⟨notes, .error e⟩ => some ⟨said ++ notes, .error e⟩

/-- The number of steps that a walk may take. The square covers every walk in which no node is
made: each node is taken up at most once, and then costs a step for each child and two more. -/
def walkBound (d : Document) : Nat :=
  let size := d.nodes.size + 1
  3 * (size * size) + 1000000000

/-- Walk a tree with a group of stages. A walk that does not end within its bound is given up. -/
def walk (stages : List Stage) (childrenFirst : Bool) (d : Document) : Report Error Document :=
  (walkFrom stages childrenFirst (walkBound d) #[] d [.children .root (d.children .root)]).getD
    (.error (.plugin "" "the walk does not end"))

/-- Run the stages of a group one after the other, each on the whole document. -/
def rewriteAll : List Stage → Document → Report Error Document
  | [], d => .ok d
  | stage :: rest, d =>
    ((stage.rewriter.rewrite d).mapError stage.failure).bind (rewriteAll rest)

/-- Run a group. -/
def Group.apply (g : Group) (d : Document) : Report Error Document :=
  match g.traversal with
  | .full => rewriteAll g.stages d
  | .perItem => walk g.stages false d
  | .perItemReverse => walk g.stages true d

/-- Run groups in order. -/
def applyGroups : List Group → Document → Report Error Document
  | [], d => .ok d
  | group :: rest, d => (group.apply d).bind (applyGroups rest)

/-- Run a pipeline: every plugin once, in order. -/
def Pipeline.apply (p : Pipeline) (d : Document) : Report Error Document :=
  applyGroups p.groups d

end SvgPress
