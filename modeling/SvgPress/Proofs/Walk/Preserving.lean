import SvgPress.Proofs.Optimizer.Configured
import SvgPress.Proofs.Walk.Calls

/-!
# What pipelines preserve

A property of documents that every plugin of a pipeline preserves, and that the detaching of a node
preserves, holds of what the pipeline makes of a document that has it. The walk is followed step by
step: what one visit preserves is carried along the stack of the walk.
-/

namespace SvgPress

/-- What the plugin makes of a document with the property has the property. -/
structure Rewriter.Preserves (r : Rewriter) (P : Document → Prop) : Prop where
  visits : ∀ d id d' decision, P d → (r.visit d id).outcome = .ok (d', decision) → P d'
  rewrites : ∀ d d', P d → (r.rewrite d).outcome = .ok d' → P d'

variable {P : Document → Prop} {d d' : Document} {stages : List Stage} {childrenFirst : Bool}

/-! ## Shapes of plugins -/

namespace Rewriter

theorem preserves_of_visit {visit : Document → NodeId → Report PluginError (Document × Visit)}
    (h : ∀ d id d' decision, P d → (visit d id).outcome = .ok (d', decision) → P d') :
    Preserves { visit } P where
  visits := h
  rewrites d d' hd ho := by
    obtain rfl := Except.ok.inj ho
    exact hd

/-- A plugin that edits elements preserves what the edit of one element preserves. -/
theorem preserves_editing {f : Element → Element} (h : ∀ d id, P d → P (d.modifyElement id f)) :
    Preserves { visit := Plugin.editing f } P :=
  preserves_of_visit fun d id d' decision hd ho => by
    obtain ⟨rfl, -⟩ := Prod.mk.inj (Except.ok.inj ho)
    exact h d id hd

/-- A plugin that only decides about nodes changes nothing itself. -/
theorem preserves_deciding (P : Document → Prop) (f : Document → NodeId → Visit) :
    Preserves { visit := Plugin.deciding f } P :=
  preserves_of_visit fun d id d' decision hd ho => by
    obtain ⟨rfl, -⟩ := Prod.mk.inj (Except.ok.inj ho)
    exact hd

theorem preserves_rewriting {f : Document → Document} (h : ∀ d, P d → P (f d)) :
    Preserves { rewrite := fun d => .ok (f d) } P where
  visits d id d' decision hd ho := by
    obtain ⟨rfl, -⟩ := Prod.mk.inj (Except.ok.inj ho)
    exact hd
  rewrites d d' hd ho := by
    obtain rfl := Except.ok.inj ho
    exact h d hd

end Rewriter

/-! ## Walks -/

section Walks

variable (hs : ∀ stage ∈ stages, stage.rewriter.Preserves P)
  (hdetach : ∀ d id, P d → P (d.detach id))

include hs hdetach

/-- What all plugins make of one node has the property, whether the node goes or stays. -/
theorem preserves_visitNode {parent child : NodeId} {stays : Bool} (h : P d)
    (ho : (visitNode parent child stages d).outcome = .ok (d', stays)) : P d' := by
  induction stages generalizing d with
  | nil =>
    obtain ⟨rfl, -⟩ := Prod.mk.inj (Except.ok.inj ho)
    exact h
  | cons stage stages ih =>
    obtain ⟨hstage, hstages⟩ := List.forall_mem_cons.1 hs
    obtain ⟨d₁, decision, hv, hends⟩ := visitNode_cons_eq_ok ho
    have hfirst : P d₁ := hstage.visits d child d₁ decision h hv
    rcases hends with ⟨-, -, rfl, -⟩ | ⟨-, -, rfl, -⟩ | ⟨-, -, ho⟩
    · exact hdetach d₁ child hfirst
    · exact hfirst
    · exact ih hstages hfirst ho

/-- One step of a walk preserves what its plugins preserve. -/
theorem preserves_take {step : WalkStep} {first : List WalkStep} (h : P d)
    (ho : (step.take stages childrenFirst d).outcome = .ok (d', first)) : P d' := by
  have htakes := takes_of_take ho
  generalize step.calls stages childrenFirst d = calls at htakes
  cases htakes with
  | visit _ hv | enter _ _ hv | leave _ _ hv => exact preserves_visitNode hs hdetach h hv
  | miss | finish | skip | descend => exact h

theorem preserves_walkFrom {bound : Nat} {said : Array Note} {pending : List WalkStep}
    {r : Report Error Document} (h : P d)
    (hw : walkFrom stages childrenFirst bound said d pending = some r) (ho : r.outcome = .ok d') :
    P d' := by
  induction bound generalizing said d pending with
  | zero =>
    cases pending with
    | nil =>
      obtain rfl := Option.some.inj hw
      exact Except.ok.inj ho ▸ h
    | cons step pending => exact absurd hw (by simp [walkFrom])
  | succ bound ih =>
    cases pending with
    | nil =>
      obtain rfl := Option.some.inj hw
      exact Except.ok.inj ho ▸ h
    | cons step pending =>
      rw [walkFrom] at hw
      split at hw
      case h_1 notes d₁ first htake =>
        exact ih (preserves_take hs hdetach h (congrArg Report.outcome htake)) hw
      case h_2 =>
        obtain rfl := Option.some.inj hw
        exact absurd ho (by simp)

/-- A walk preserves what each of its steps preserves. -/
theorem preserves_walk (h : P d) (ho : (walk stages childrenFirst d).outcome = .ok d') : P d' := by
  rw [walk] at ho
  cases hw : walkFrom stages childrenFirst (walkBound d) #[] d
      [.children .root (d.children .root)] with
  | none =>
    rw [hw] at ho
    exact absurd ho (by simp [Report.error])
  | some r =>
    rw [hw] at ho
    exact preserves_walkFrom hs hdetach h hw ho

omit hdetach in
theorem preserves_rewriteAll (h : P d) (ho : (rewriteAll stages d).outcome = .ok d') : P d' := by
  induction stages generalizing d with
  | nil => exact Except.ok.inj ho ▸ h
  | cons stage stages ih =>
    obtain ⟨hstage, hstages⟩ := List.forall_mem_cons.1 hs
    obtain ⟨d₁, hr, ho⟩ := outcome_bind_eq_ok_iff.1 ho
    have hfirst : (stage.rewriter.rewrite d).outcome = .ok d₁ := Outcome.mapError_eq_ok_iff.1 hr
    exact ih hstages (hstage.rewrites d d₁ h hfirst) ho

end Walks

/-! ## Pipelines -/

/-- Groups one after the other preserve what their plugins preserve, in whatever way they are
driven. -/
theorem preserves_applyGroups {groups : List Group}
    (hs : ∀ group ∈ groups, ∀ stage ∈ group.stages, stage.rewriter.Preserves P)
    (hdetach : ∀ d id, P d → P (d.detach id)) (h : P d)
    (ho : (applyGroups groups d).outcome = .ok d') : P d' := by
  induction groups generalizing d with
  | nil => exact Except.ok.inj ho ▸ h
  | cons group groups ih =>
    obtain ⟨hgroup, hgroups⟩ := List.forall_mem_cons.1 hs
    obtain ⟨d₁, hg, ho⟩ := outcome_bind_eq_ok_iff.1 ho
    refine ih hgroups ?_ ho
    obtain ⟨traversal, stages⟩ := group
    cases traversal with
    | full => exact preserves_rewriteAll hgroup h hg
    | perItem => exact preserves_walk hgroup hdetach h hg
    | perItemReverse => exact preserves_walk hgroup hdetach h hg

/-- A pipeline preserves what its enabled plugins preserve with their parameters. -/
theorem Pipeline.preserves_apply {descriptors : List Descriptor} {p : Pipeline}
    (hp : Pipeline.ofDescriptors descriptors = .ok p)
    (hs : ∀ x ∈ descriptors, x.enabled = true → ∀ r, x.plugin.prepare x.params = .ok r →
      r.Preserves P)
    (hdetach : ∀ d id, P d → P (d.detach id)) (h : P d)
    (ho : (p.apply d).outcome = .ok d') : P d' := by
  refine preserves_applyGroups (fun group hg stage hstage => ?_) hdetach h ho
  obtain ⟨x, hx, henabled, hprepare⟩ := exists_prepare_of_mem hp hg hstage
  obtain ⟨r, hr, rfl⟩ := Descriptor.prepare_eq_ok_iff.1 hprepare
  exact hs x hx henabled r hr

end SvgPress
