import SvgPress.Proofs.Tree.Shape
import SvgPress.Proofs.Walk.Calls

/-!
# Calls that edit payloads

Stages that change nothing but the payload of the node they visit leave the tree as it is, apart
from the nodes that they remove. What a sequence of calls does to a document is therefore told by the
calls: which nodes are gone, and what the last call on a node has made of its payload.
-/

namespace SvgPress

open Document

/-- All that a stage changes when it visits a node is the payload of this node, and that so that the
node stays what it is: an element an element, a text a text. -/
def Stage.EditsOnly (stage : Stage) : Prop :=
  ∀ d id d' decision, d.Linked → d.Holds id →
    (stage.rewriter.visit d id).outcome = .ok (d', decision) →
    ∃ kind, d' = d.setKind id kind ∧ ∀ old, d.kind? id = some old → kind.ctorIdx = old.ctorIdx

namespace Call

/-- Whether the stage answers that the node is to be removed. -/
def removes (c : Call) : Bool :=
  match c.report.outcome with
  | .ok (_, .remove) => true
  | _ => false

/-- The payload that the call leaves in its node. -/
def kindLeft (c : Call) : Option NodeKind :=
  match c.report.outcome with
  | .ok (d, _) => d.kind? c.node
  | .error _ => c.document.kind? c.node

/-- The document after a call and the removal that it asks for, or the error that ends the walk: the
stage fails, or it asks for the removal of an element directly under the root. -/
def after (c : Call) : Except Error Document :=
  match c.report.outcome with
  | .error e => .error (c.stage.failure e)
  | .ok (d, .keep) => .ok d
  | .ok (d, .remove) =>
    if c.node ∈ d.childElements .root then
      .error (c.stage.failure ⟨"cannot remove the document element"⟩)
    else .ok (d.detach c.node)

end Call

/-- Calls one after the other, each on the document that the one before it has left. The first error
is the last call. -/
inductive Chained : Document → List Call → Except Error Document → Prop
  | nil {d : Document} : Chained d [] (.ok d)
  | next {c : Call} {d : Document} {calls : List Call} {outcome : Except Error Document}
      (h : c.after = .ok d) (hr : Chained d calls outcome) : Chained c.document (c :: calls) outcome
  | stop {c : Call} {e : Error} (h : c.after = .error e) : Chained c.document [c] (.error e)

/-- Whether one of the calls has removed the node. -/
def gone (calls : List Call) (x : NodeId) : Bool :=
  calls.any fun c => c.node == x && c.removes

/-- The payload of a node after calls, given its payload before them: the last call on the node
decides. -/
def kindAfter (before : Option NodeKind) (calls : List Call) (x : NodeId) : Option NodeKind :=
  calls.foldl (fun kind c => if c.node = x then c.kindLeft else kind) before

/-- What calls leave of a document: the nodes that are gone have no parent, and all else is where it
was. -/
structure Pruned (d d' : Document) (calls : List Call) : Prop where
  linked : d'.Linked
  size_eq : d'.nodes.size = d.nodes.size
  declaration : d'.declaration = d.declaration
  doctype : d'.doctype = d.doctype
  parent? : ∀ x, d'.parent? x = if gone calls x then none else d.parent? x
  children : ∀ x, d'.children x = (d.children x).filter (!gone calls ·)
  kind? : ∀ x, d'.kind? x = kindAfter (d.kind? x) calls x
  alike : ∀ x, (d'.kind? x).map (·.ctorIdx) = (d.kind? x).map (·.ctorIdx)
  /-- No element directly under the root is gone. -/
  elements : ∀ x ∈ d.childElements .root, gone calls x = false

variable {stages : List Stage} {stage : Stage} {d d₁ d' : Document} {c : Call}
  {calls calls' : List Call} {outcome : Except Error Document} {x parent child : NodeId}

theorem Chained.exists_after (h : Chained d calls (.ok d')) :
    ∀ c ∈ calls, ∃ d₁, c.after = .ok d₁ := by
  generalize ho : Except.ok d' = outcome at h
  induction h with
  | nil => exact fun c hc => absurd hc List.not_mem_nil
  | @next c d₁ _ _ ha _ ih =>
    intro c' hc
    rcases List.mem_cons.1 hc with rfl | hc
    · exact ⟨d₁, ha⟩
    · exact ih ho c' hc
  | stop => exact absurd ho (by simp)

/-- A chain that ends with an error ends with the call that gives it, and the error is one of the
stage of this call. -/
theorem Chained.exists_last {e : Error} (h : Chained d calls (.error e)) : ∃ before last,
    calls = before ++ [last] ∧ (∀ c ∈ before, ∃ d₁, c.after = .ok d₁) ∧ last.after = .error e ∧
      ∃ cause, e = last.stage.failure cause := by
  generalize ho : Except.error e = outcome at h
  induction h with
  | nil => exact absurd ho (by simp)
  | @next c d₁ calls _ ha _ ih =>
    obtain ⟨before, last, rfl, hbefore, hlast⟩ := ih ho
    exact ⟨c :: before, last, rfl, List.forall_mem_cons.2 ⟨⟨d₁, ha⟩, hbefore⟩, hlast⟩
  | @stop c e' ha =>
    obtain rfl := Except.error.inj ho
    refine ⟨[], c, rfl, fun c hc => absurd hc List.not_mem_nil, ha, ?_⟩
    rw [Call.after] at ha
    split at ha
    · exact ⟨_, (Except.error.inj ha).symm⟩
    · exact absurd ha (by simp)
    · split_ifs at ha
      exact ⟨_, (Except.error.inj ha).symm⟩

theorem gone_append : gone (calls ++ calls') x = (gone calls x || gone calls' x) :=
  List.any_append

theorem kindAfter_append (before : Option NodeKind) :
    kindAfter before (calls ++ calls') x = kindAfter (kindAfter before calls x) calls' x :=
  List.foldl_append

/-- Whether a node is an element depends on the kind of its payload only. -/
theorem isElement_eq (d : Document) (x : NodeId) :
    d.isElement x = ((d.kind? x).map (·.ctorIdx)).any (· == 1) := by
  rw [isElement, element?]
  cases d.kind? x with
  | none => rfl
  | some kind => cases kind <;> rfl

theorem mem_childElements_iff : x ∈ d.childElements parent ↔
    x ∈ d.children parent ∧ d.isElement x = true :=
  List.mem_filter

namespace Pruned

theorem refl (hl : d.Linked) : Pruned d d [] where
  linked := hl
  size_eq := rfl
  declaration := rfl
  doctype := rfl
  parent? _ := rfl
  children _ := (List.filter_eq_self.2 fun _ _ => rfl).symm
  kind? _ := rfl
  alike _ := rfl
  elements _ _ := rfl

theorem isElement_eq (h : Pruned d d' calls) (x : NodeId) : d'.isElement x = d.isElement x := by
  rw [SvgPress.isElement_eq, SvgPress.isElement_eq, h.alike]

theorem trans (h : Pruned d d₁ calls) (h' : Pruned d₁ d' calls') :
    Pruned d d' (calls ++ calls') where
  linked := h'.linked
  size_eq := h'.size_eq.trans h.size_eq
  declaration := h'.declaration.trans h.declaration
  doctype := h'.doctype.trans h.doctype
  parent? x := by
    rw [h'.parent?, h.parent?, gone_append]
    cases gone calls x <;> cases gone calls' x <;> rfl
  children x := by
    rw [h'.children, h.children, List.filter_filter]
    refine List.filter_congr fun y _ => ?_
    rw [gone_append, Bool.not_or, Bool.and_comm]
  kind? x := by rw [h'.kind?, h.kind?, kindAfter_append]
  alike x := (h'.alike x).trans (h.alike x)
  elements x hx := by
    have hfirst := h.elements x hx
    obtain ⟨hmem, helement⟩ := mem_childElements_iff.1 hx
    have hlater : x ∈ d₁.childElements .root := by
      rw [mem_childElements_iff, h.children, List.mem_filter, h.isElement_eq]
      exact ⟨⟨hmem, by rw [hfirst]; rfl⟩, helement⟩
    rw [gone_append, hfirst, h'.elements x hlater]
    rfl

/-- The elements directly under the root are still there. -/
theorem childElements_root (h : Pruned d d' calls) :
    d'.childElements .root = d.childElements .root := by
  rw [childElements, childElements, h.children, List.filter_filter]
  refine List.filter_congr fun x hx => ?_
  rw [h.isElement_eq]
  cases he : d.isElement x with
  | false => rfl
  | true =>
    have hgone := h.elements x (mem_childElements_iff.2 ⟨hx, he⟩)
    rw [hgone]
    rfl

theorem documentElement?_eq (h : Pruned d d' calls) : d'.documentElement? = d.documentElement? := by
  rw [documentElement?, documentElement?, h.childElements_root]

section

variable {kind : NodeKind} {decision : Visit}

theorem kind?_left (ho : c.report.outcome = .ok (c.document.setKind c.node kind, decision))
    (x : NodeId) :
    (c.document.setKind c.node kind).kind? x = kindAfter (c.document.kind? x) [c] x := by
  rw [kindAfter, List.foldl_cons, List.foldl_nil, Call.kindLeft, ho]
  by_cases hx : x = c.node
  · rw [hx]
    exact (if_pos rfl).symm
  · rw [kind?_setKind, if_neg hx, if_neg (Ne.symm hx)]

theorem alike_setKind
    (hold : ∀ old, c.document.kind? c.node = some old → kind.ctorIdx = old.ctorIdx) (x : NodeId) :
    ((c.document.setKind c.node kind).kind? x).map (·.ctorIdx) =
      (c.document.kind? x).map (·.ctorIdx) := by
  rw [kind?_setKind]
  split_ifs with hx
  · cases hk : c.document.kind? x with
    | none => rfl
    | some old =>
      have halike := hold old (hx ▸ hk)
      exact congrArg some halike
  · rfl

/-- A call that keeps its node. -/
theorem of_keep (hl : c.document.Linked)
    (ho : c.report.outcome = .ok (c.document.setKind c.node kind, .keep))
    (hold : ∀ old, c.document.kind? c.node = some old → kind.ctorIdx = old.ctorIdx) :
    Pruned c.document (c.document.setKind c.node kind) [c] := by
  have hremoves : c.removes = false := by rw [Call.removes, ho]
  have hgone : ∀ x, gone [c] x = false := by
    intro x
    rw [gone, List.any_cons, List.any_nil, hremoves, Bool.and_false, Bool.or_false]
  refine ⟨hl.setKind c.node kind, by simp [setKind], rfl, rfl, fun x => ?_, fun x => ?_,
    kind?_left ho, alike_setKind hold, fun x _ => hgone x⟩
  · rw [hgone, parent?_setKind]
    rfl
  · rw [children_setKind, List.filter_eq_self.2 fun y _ => by rw [hgone]; rfl]

/-- A call that removes its node, which is no element directly under the root. -/
theorem of_remove (hl : c.document.Linked)
    (ho : c.report.outcome = .ok (c.document.setKind c.node kind, .remove))
    (hold : ∀ old, c.document.kind? c.node = some old → kind.ctorIdx = old.ctorIdx)
    (hroot : c.node ∉ (c.document.setKind c.node kind).childElements .root) :
    Pruned c.document ((c.document.setKind c.node kind).detach c.node) [c] := by
  have hremoves : c.removes = true := by rw [Call.removes, ho]
  have hgone : ∀ x, gone [c] x = (c.node == x) := by
    intro x
    rw [gone, List.any_cons, List.any_nil, hremoves, Bool.and_true, Bool.or_false]
  have hlinked := hl.setKind c.node kind
  have hprolog := prolog_detach (c.document.setKind c.node kind) c.node
  refine ⟨hlinked.detach c.node, by simp [setKind], hprolog.1, hprolog.2, fun x => ?_, fun x => ?_,
    fun x => ?_, fun x => ?_, fun x hx => ?_⟩
  · rw [parent?_detach, parent?_setKind, hgone]
    by_cases hx : x = c.node
    · rw [if_pos hx, if_pos (by simp [hx])]
    · rw [if_neg hx, if_neg (by simpa using Ne.symm hx)]
  · rw [hlinked.children_detach, children_setKind]
    refine List.filter_congr fun y _ => ?_
    rw [hgone, bne, BEq.comm]
  · rw [kind?_detach, kind?_left ho]
  · rw [kind?_detach, alike_setKind hold]
  · rw [hgone, beq_eq_false_iff_ne]
    rintro rfl
    refine hroot ?_
    rw [mem_childElements_iff] at hx ⊢
    rw [children_setKind, SvgPress.isElement_eq, alike_setKind hold, ← SvgPress.isElement_eq]
    exact hx

end

/-- A call that does not end the walk. -/
theorem of_after (hs : c.stage.EditsOnly) (hl : c.document.Linked) (hc : c.document.Holds c.node)
    (h : c.after = .ok d') : Pruned c.document d' [c] := by
  rw [Call.after] at h
  cases ho : c.report.outcome with
  | error e =>
    rw [ho] at h
    exact absurd h (by simp)
  | ok visited =>
    obtain ⟨d₁, decision⟩ := visited
    rw [ho] at h
    obtain ⟨kind, rfl, hold⟩ := hs c.document c.node d₁ decision hl hc ho
    cases decision with
    | keep =>
      obtain rfl := Except.ok.inj h
      exact of_keep hl ho hold
    | remove =>
      simp only at h
      split_ifs at h with hroot
      obtain rfl := Except.ok.inj h
      exact of_remove hl ho hold hroot

/-- A chain of calls without an error. -/
theorem of_chained (h : Chained d calls (.ok d')) (hl : d.Linked)
    (hs : ∀ c ∈ calls, c.stage.EditsOnly) (hc : ∀ c ∈ calls, d.Holds c.node) :
    Pruned d d' calls := by
  generalize ho : Except.ok d' = outcome at h
  induction h with
  | nil =>
    obtain rfl := Except.ok.inj ho
    exact .refl hl
  | @next c d₁ calls outcome ha _ ih =>
    have hfirst : Pruned c.document d₁ [c] :=
      of_after (hs c List.mem_cons_self) hl (hc c List.mem_cons_self) ha
    have hlater : Pruned d₁ d' calls := by
      refine ih hfirst.linked (fun c hm => hs c (List.mem_cons_of_mem _ hm)) (fun c' hm => ?_) ho
      rw [Holds, hfirst.size_eq]
      exact hc c' (List.mem_cons_of_mem _ hm)
    exact hfirst.trans hlater
  | stop => exact absurd ho (by simp)

/-- Calls that keep their nodes leave the tree as it is. -/
theorem links_eq (h : Pruned d d' calls) (hkeep : ∀ c ∈ calls, c.removes = false) :
    (∀ x, d'.parent? x = d.parent? x) ∧ ∀ x, d'.children x = d.children x := by
  have hgone : ∀ x, gone calls x = false := by
    intro x
    rw [gone, List.any_eq_false]
    intro c hc
    rw [hkeep c hc, Bool.and_false]
    exact Bool.false_ne_true
  refine ⟨fun x => ?_, fun x => ?_⟩
  · rw [h.parent?, hgone]
    rfl
  · rw [h.children, List.filter_eq_self]
    exact fun y _ => by rw [hgone]; rfl

end Pruned

end SvgPress
