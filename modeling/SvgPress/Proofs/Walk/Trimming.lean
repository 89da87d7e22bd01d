import SvgPress.Proofs.Tree.Trimming
import SvgPress.Proofs.Walk.Touring

/-!
# Walks that trim

If the visits of all plugins trim the document, do not fail on nodes that stand below another one,
and spare the document element, then no walk fails, and neither does a pipeline. What holds of one
visit is carried along the stack of the walk; a removal asked for trims the document as well.
-/

namespace SvgPress

open Document Relation

theorem Document.TrimStep.shrinkStep {d d' : Document} (h : TrimStep d d') : ShrinkStep d d' := by
  cases h with
  | edit id kind _ => exact .edit id kind
  | detach id _ => exact .detach id
  | unwrap _ _ hu => exact .unwrap hu

theorem Document.Trims.shrinks {d d' : Document} (h : d.Trims d') : d.Shrinks d' :=
  ReflTransGen.mono (fun _ _ => TrimStep.shrinkStep) d d' h

/-- Whatever a plugin does, it trims the document. It fails on no node that stands below another
one, and if there is one element under the root, it does not ask for its removal. -/
structure Rewriter.Trims (r : Rewriter) : Prop where
  visits : ∀ d id, d.Linked → (d.parent? id).isSome = true →
    ∃ visited, (r.visit d id).outcome = .ok visited
  trims : ∀ d id d' decision, d.Linked → (r.visit d id).outcome = .ok (d', decision) → d.Trims d'
  spares : ∀ d id d', d.Linked → (d.childElements .root).length ≤ 1 →
    (r.visit d id).outcome = .ok (d', .remove) → id ∉ d.childElements .root
  rewrites : ∀ d, d.Linked → ∃ d', (r.rewrite d).outcome = .ok d' ∧ Trimmed d d'

theorem Rewriter.Trims.shrinks {stage : Stage} (h : stage.rewriter.Trims) : stage.Shrinks := by
  intro d id d' decision hl _ ho
  exact (h.trims d id d' decision hl ho).shrinks

/-- The call is made on what trimming has left of a document, does not end the walk, and trims what
it is given. -/
def Call.Trims (c : Call) (d : Document) : Prop :=
  Trimmed d c.document ∧ ∃ d', c.after = .ok d' ∧ Trimmed c.document d'

/-- A call that trims in a trimmed document is one that trims in the document before. -/
theorem Call.Trims.of_trimmed {c : Call} {d d₁ : Document} (h : Trimmed d d₁) (hc : c.Trims d₁) :
    c.Trims d :=
  ⟨h.trans hc.1, hc.2⟩

/-- A call that trims does not remove an element directly under the root. -/
theorem Call.Trims.not_mem {c : Call} {d : Document} (h : c.Trims d) (hremoves : c.removes = true) :
    c.node ∉ d.childElements .root := by
  obtain ⟨hfirst, d', hafter, hcall⟩ := h
  rw [← hfirst.elements, ← hcall.elements]
  intro hm
  have hp := (hcall.linked.parent_iff c.node .root).2 (mem_childElements_iff.1 hm).1
  rw [Call.removes] at hremoves
  rw [Call.after] at hafter
  split at hremoves
  · rename_i d₁ ho
    rw [ho] at hafter
    simp only at hafter
    split_ifs at hafter
    rw [← Except.ok.inj hafter, parent?_detach, if_pos rfl] at hp
    exact absurd hp (by simp)
  · exact absurd hremoves (by simp)

/-- The calls of a group; one that rewrites whole documents makes none. -/
def Group.calls (g : Group) (d : Document) : List Call :=
  match g.traversal with
  | .full => []
  | .perItem => walkCalls g.stages false d
  | .perItemReverse => walkCalls g.stages true d

variable {stages : List Stage} {childrenFirst : Bool} {d d' : Document} {parent child : NodeId}
  {calls : List Call} {outcome : Except Error Document} {pending : List WalkStep}

/-! ## Visits -/

/-- Stages that trim visit a node without failure. -/
theorem trimmed_visitNode (hs : ∀ stage ∈ stages, stage.rewriter.Trims) (hl : d.Linked)
    (h1 : (d.childElements .root).length ≤ 1) (hp : d.parent? child = some parent) :
    ∃ d' stays, (visitNode parent child stages d).outcome = .ok (d', stays) ∧ Trimmed d d' := by
  induction stages generalizing d with
  | nil => exact ⟨d, true, rfl, .refl hl⟩
  | cons stage stages ih =>
    have hstage := hs stage List.mem_cons_self
    obtain ⟨⟨d₁, decision⟩, hv⟩ := hstage.visits d child hl (by rw [hp]; rfl)
    have hfirst : Trimmed d d₁ := (hstage.trims d child d₁ decision hl hv).trimmed hl
    cases decision with
    | remove =>
      have hspared := hstage.spares d child d₁ hl h1 hv
      have hkept : ¬ (parent = .root ∧ d₁.isElement child = true) := by
        rintro ⟨rfl, helement⟩
        rw [isElement_of_bare (hfirst.bare child)] at helement
        exact hspared (mem_childElements_iff.2 ⟨(hl.parent_iff child .root).1 hp, helement⟩)
      refine ⟨d₁.detach child, false, ?_, ?_⟩
      · rw [visitNode_of_remove hv]
        simp only [Bool.and_eq_true, decide_eq_true_eq]
        rw [if_neg hkept]
      · exact hfirst.trans (trimmed_detach hfirst.linked (by rwa [hfirst.elements]))
    | keep =>
      rw [visitNode_of_keep hv]
      split_ifs with hp₁
      · obtain ⟨d', stays, ho, hlater⟩ := ih (fun s hm => hs s (List.mem_cons_of_mem _ hm))
          hfirst.linked (by rwa [hfirst.elements]) hp₁
        exact ⟨d', stays, ho, hfirst.trans hlater⟩
      · exact ⟨d₁, false, rfl, hfirst⟩

/-- The calls of a visit trim. -/
theorem trims_visitCalls (hs : ∀ stage ∈ stages, stage.rewriter.Trims) (hl : d.Linked)
    (h1 : (d.childElements .root).length ≤ 1) (hp : d.parent? child = some parent) (n : Nat) :
    ∀ c ∈ visitCalls parent child (stages.zipIdx n) d, c.Trims d := by
  induction stages generalizing d n with
  | nil => exact fun c hc => absurd hc List.not_mem_nil
  | cons stage stages ih =>
    have hstage := hs stage List.mem_cons_self
    obtain ⟨⟨d₁, decision⟩, hv⟩ := hstage.visits d child hl (by rw [hp]; rfl)
    have hfirst : Trimmed d d₁ := (hstage.trims d child d₁ decision hl hv).trimmed hl
    intro c hc
    rw [List.zipIdx_cons] at hc
    cases decision with
    | remove =>
      have hspared : child ∉ d₁.childElements .root := by
        rw [hfirst.elements]
        exact hstage.spares d child d₁ hl h1 hv
      rw [visitCalls_of_remove hv, List.mem_singleton] at hc
      subst hc
      refine ⟨.refl hl, d₁.detach child, ?_,
        hfirst.trans (trimmed_detach hfirst.linked hspared)⟩
      rw [Call.after, Call.report, hv]
      exact if_neg hspared
    | keep =>
      rw [visitCalls_of_keep hv, List.mem_cons] at hc
      rcases hc with rfl | hc
      · refine ⟨.refl hl, d₁, ?_, hfirst⟩
        rw [Call.after, Call.report, hv]
      · split_ifs at hc with hp₁
        · exact .of_trimmed hfirst (ih (fun s hm => hs s (List.mem_cons_of_mem _ hm))
            hfirst.linked (by rwa [hfirst.elements]) hp₁ (n + 1) c hc)
        · exact absurd hc List.not_mem_nil

/-! ## Walks -/

/-- A step does not fail where its plugins trim; it trims, and so do its calls. -/
theorem trimmed_take (hs : ∀ stage ∈ stages, stage.rewriter.Trims) (hl : d.Linked)
    (h1 : (d.childElements .root).length ≤ 1) (step : WalkStep) :
    (∃ d' first, (step.take stages childrenFirst d).outcome = .ok (d', first) ∧ Trimmed d d') ∧
      ∀ c ∈ step.calls stages childrenFirst d, c.Trims d := by
  cases step with
  | visit parent child =>
    rw [WalkStep.take, WalkStep.calls]
    split_ifs with hp
    · obtain ⟨d', stays, hv, htrimmed⟩ := trimmed_visitNode hs hl h1 hp
      refine ⟨⟨d', [], ?_, htrimmed⟩, trims_visitCalls hs hl h1 hp 0⟩
      rw [outcome_bind, hv]
      rfl
    · exact ⟨⟨d, [], rfl, .refl hl⟩, fun c hc => absurd hc List.not_mem_nil⟩
  | children parent rest =>
    cases rest with
    | nil => exact ⟨⟨d, [], rfl, .refl hl⟩, fun c hc => absurd hc List.not_mem_nil⟩
    | cons child rest =>
      rw [WalkStep.take, WalkStep.calls]
      by_cases hp : d.parent? child = some parent
      · rw [if_neg (by simp [hp]), if_pos hp]
        cases childrenFirst with
        | true => exact ⟨⟨d, _, rfl, .refl hl⟩, fun c hc => absurd hc List.not_mem_nil⟩
        | false =>
          obtain ⟨d', stays, hv, htrimmed⟩ := trimmed_visitNode hs hl h1 hp
          refine ⟨⟨d', (if stays then [.children child (d'.children child)] else []) ++
            [.children parent rest], ?_, htrimmed⟩, trims_visitCalls hs hl h1 hp 0⟩
          rw [if_neg (by simp), outcome_bind, hv]
          cases stays <;> rfl
      · rw [if_pos (by simpa using hp), if_neg hp]
        exact ⟨⟨d, _, rfl, .refl hl⟩, fun c hc => absurd hc List.not_mem_nil⟩

/-- A walk that comes to its end has not failed: it has trimmed, and so have its calls. -/
theorem Ends.trimmed (h : Ends stages childrenFirst d pending calls outcome)
    (hs : ∀ stage ∈ stages, stage.rewriter.Trims) (hl : d.Linked)
    (h1 : (d.childElements .root).length ≤ 1) :
    (∃ d', outcome = .ok d' ∧ Trimmed d d') ∧ ∀ c ∈ calls, c.Trims d := by
  induction h with
  | nil => exact ⟨⟨_, rfl, .refl hl⟩, fun c hc => absurd hc List.not_mem_nil⟩
  | @step d d₁ step first pending calls outcome ho _ ih =>
    obtain ⟨⟨d₂, first₂, ho₂, hfirst⟩, hcalls⟩ := trimmed_take hs hl h1 step
    rw [ho] at ho₂
    obtain ⟨rfl, rfl⟩ := Prod.mk.inj (Except.ok.inj ho₂)
    obtain ⟨⟨d', he, hlater⟩, hrest⟩ := ih hfirst.linked (by rwa [hfirst.elements])
    refine ⟨⟨d', he, hfirst.trans hlater⟩, fun c hc => ?_⟩
    rcases List.mem_append.1 hc with hc | hc
    · exact hcalls c hc
    · exact .of_trimmed hfirst (hrest c hc)
  | @fail d step pending e ho =>
    obtain ⟨⟨d₂, first₂, ho₂, -⟩, -⟩ := trimmed_take hs hl h1 step
    rw [ho] at ho₂
    exact absurd ho₂ (by simp)

/-- A walk with stages that trim does not fail. -/
theorem trimmed_walk (hs : ∀ stage ∈ stages, stage.rewriter.Trims) (hl : d.Linked)
    (h1 : (d.childElements .root).length ≤ 1) (childrenFirst : Bool) :
    (∃ d', (walk stages childrenFirst d).outcome = .ok d' ∧ Trimmed d d') ∧
      ∀ c ∈ walkCalls stages childrenFirst d, c.Trims d := by
  obtain ⟨r, hr, hw, -⟩ := exists_walkFrom stages childrenFirst d hl
    fun stage hm => (hs stage hm).shrinks
  have hends := ends_of_walkFrom hr
  rw [← hw] at hends
  exact hends.trimmed hs hl h1

/-! ## Pipelines -/

theorem trimmed_rewriteAll (hs : ∀ stage ∈ stages, stage.rewriter.Trims) (hl : d.Linked) :
    ∃ d', (rewriteAll stages d).outcome = .ok d' ∧ Trimmed d d' := by
  induction stages generalizing d with
  | nil => exact ⟨d, rfl, .refl hl⟩
  | cons stage stages ih =>
    obtain ⟨d₁, hr, hfirst⟩ := (hs stage List.mem_cons_self).rewrites d hl
    obtain ⟨d', ho, hlater⟩ := ih (fun s hm => hs s (List.mem_cons_of_mem _ hm)) hfirst.linked
    refine ⟨d', ?_, hfirst.trans hlater⟩
    rw [rewriteAll, outcome_bind, Report.outcome_mapError_of_ok hr]
    exact ho

theorem Group.trimmed_apply {g : Group} (hs : ∀ stage ∈ g.stages, stage.rewriter.Trims)
    (hl : d.Linked) (h1 : (d.childElements .root).length ≤ 1) :
    (∃ d', (g.apply d).outcome = .ok d' ∧ Trimmed d d') ∧ ∀ c ∈ g.calls d, c.Trims d := by
  obtain ⟨traversal, stages⟩ := g
  cases traversal with
  | full => exact ⟨trimmed_rewriteAll hs hl, fun c hc => absurd hc List.not_mem_nil⟩
  | perItem => exact trimmed_walk hs hl h1 false
  | perItemReverse => exact trimmed_walk hs hl h1 true

theorem trimmed_applyGroups {groups : List Group}
    (hs : ∀ group ∈ groups, ∀ stage ∈ group.stages, stage.rewriter.Trims) (hl : d.Linked)
    (h1 : (d.childElements .root).length ≤ 1) :
    ∃ d', (applyGroups groups d).outcome = .ok d' ∧ Trimmed d d' := by
  induction groups generalizing d with
  | nil => exact ⟨d, rfl, .refl hl⟩
  | cons group groups ih =>
    obtain ⟨⟨d₁, ha, hfirst⟩, -⟩ := Group.trimmed_apply (hs group List.mem_cons_self) hl h1
    obtain ⟨d', ho, hlater⟩ := ih (fun g hm => hs g (List.mem_cons_of_mem _ hm)) hfirst.linked
      (by rwa [hfirst.elements])
    refine ⟨d', ?_, hfirst.trans hlater⟩
    rw [applyGroups, outcome_bind, ha]
    exact ho

end SvgPress
