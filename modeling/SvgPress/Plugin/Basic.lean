import SvgPress.Document.Edit
import SvgPress.Plugin.Params

/-!
# Plugins

A plugin is a self-contained rewrite of documents. Its traversal says how it is driven: once with
the whole document, or once for every node, with parents before or after their children. Before it
runs, a plugin checks its parameters and gives the `Rewriter` that they configure.

Rewriters are functions: all that a plugin does to a document is in the document that it gives back.
What it has to say on the way is kept in a `Report`, whether it fails or not.
-/

namespace SvgPress

/-! ## Reports -/

/-- Something said on the way. -/
inductive Note where
  /-- Something in the document was left as it is. -/
  | warning (cause : Error)
  /-- A line for the log. -/
  | message (line : String)

/-- The outcome of a piece of work, with what was said on the way. -/
structure Report (ε α : Type) where
  /-- What was said, in order. -/
  notes : Array Note
  /-- What came of the work. -/
  outcome : Except ε α

namespace Report

variable {ε ε' α β : Type}

/-- Work that succeeds in silence. -/
protected def ok (a : α) : Report ε α :=
  ⟨#[], .ok a⟩

/-- Work that fails in silence. -/
protected def error (e : ε) : Report ε α :=
  ⟨#[], .error e⟩

/-- Say something. -/
def note (n : Note) : Report ε Unit :=
  ⟨#[n], .ok ()⟩

/-- One piece of work after another; the first failure ends it. -/
protected def bind (r : Report ε α) (f : α → Report ε β) : Report ε β :=
  match r.outcome with
  | .ok a => let next := f a; ⟨r.notes ++ next.notes, next.outcome⟩
  | .error e => ⟨r.notes, .error e⟩

/-- The same work with another account of its failure. -/
def mapError (r : Report ε α) (f : ε → ε') : Report ε' α :=
  ⟨r.notes, r.outcome.mapError f⟩

/-- Work whose outcome is known. -/
def ofExcept (outcome : Except ε α) : Report ε α :=
  ⟨#[], outcome⟩

instance : Monad (Report ε) where
  pure := Report.ok
  bind := Report.bind

end Report

/-! ## Plugins -/

/-- How a plugin is driven. -/
inductive Traversal where
  /-- Once with the whole document. -/
  | full
  /-- Once for every node, parents first. -/
  | perItem
  /-- Once for every node, children first. -/
  | perItemReverse
deriving DecidableEq

/-- The name of a traversal. -/
def Traversal.name : Traversal → String
  | full => "Full"
  | perItem => "PerItem"
  | perItemReverse => "PerItemReverse"

/-- What the visit of a node decides about it. -/
inductive Visit where
  | keep
  /-- Take the node out of the tree, with everything below it. -/
  | remove
deriving DecidableEq

/-- A failure of a plugin. -/
structure PluginError where
  /-- What the plugin says. -/
  message : String
deriving DecidableEq

/-- A failure of the library that a plugin passes on. -/
def PluginError.ofError (e : Error) : PluginError :=
  ⟨e.message⟩

/-- A plugin with its parameters taken in. -/
structure Rewriter where
  /-- How it is driven, where its parameters decide that. -/
  traversal : Option Traversal := none
  /-- Rewrite a whole document. -/
  rewrite : Document → Report PluginError Document := .ok
  /-- Visit one node of a document. -/
  visit : Document → NodeId → Report PluginError (Document × Visit) := fun d _ => .ok (d, .keep)

/-- A plugin. -/
structure Plugin where
  /-- The name that configurations use. -/
  name : String
  /-- The version. -/
  version : Nat := 1
  /-- What it does, in a few words. -/
  description : String := ""
  /-- How it is driven. -/
  traversal : Traversal := .full
  /-- Check the parameters and take them in. -/
  prepare : Params → Except Error Rewriter := fun _ => .ok {}

namespace Plugin

/-- The preparation of a plugin without parameters that rewrites whole documents in silence. -/
def rewriting (f : Document → Document) : Params → Except Error Rewriter :=
  fun _ => .ok { rewrite := fun d => .ok (f d) }

/-- A visit that only decides. -/
def deciding (f : Document → NodeId → Visit) :
    Document → NodeId → Report PluginError (Document × Visit) :=
  fun d id => .ok (d, f d id)

/-- A visit that changes the payload of elements and keeps every node. -/
def editing (f : Element → Element) :
    Document → NodeId → Report PluginError (Document × Visit) :=
  fun d id => .ok (d.modifyElement id f, .keep)

end Plugin

end SvgPress
