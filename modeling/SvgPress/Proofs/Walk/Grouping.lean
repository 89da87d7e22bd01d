import SvgPress.Proofs.Optimizer.Configured
import SvgPress.Proofs.Tree.Built
import SvgPress.Proofs.Walk.Batching

/-!
# Groups of stages

A pipeline cuts its stages into groups. What groups make of a document is told as a function of what
the document says, so that groups which run on different stores can be compared. If each stage may
be taken out of the front of a group, the groups of a pipeline act like a group for each stage.
-/

namespace SvgPress

open Document

namespace Document

variable {d d' : Document}

/-- Where every node stays what it is and where it is, so does the shape. -/
theorem Shaped.of_ctorIdx (h : d.Shaped)
    (hk : ∀ x, (d'.kind? x).map (·.ctorIdx) = (d.kind? x).map (·.ctorIdx))
    (hc : ∀ x, d'.children x = d.children x) : d'.Shaped where
  container parent child hm := by
    have hcontainer : ∀ a : Document,
        a.isContainer parent = ((a.kind? parent).map (·.ctorIdx)).any (· ≤ 1) := by
      intro a
      rw [isContainer]
      cases a.kind? parent with
      | none => rfl
      | some kind => cases kind <;> rfl
    rw [hcontainer, hk, ← hcontainer]
    exact h.container parent child (hc parent ▸ hm)
  root_iff id := by
    have hroot : ∀ a : Document,
        a.kind? id = some .root ↔ (a.kind? id).map (·.ctorIdx) = some 0 := by
      intro a
      cases a.kind? id with
      | none => simp
      | some kind => cases kind <;> simp [NodeKind.ctorIdx]
    rw [hroot, hk, ← hroot, h.root_iff]
  one_element := by
    have he : d'.childElements .root = d.childElements .root := by
      rw [childElements, childElements, hc]
      exact List.filter_congr fun x _ => by rw [SvgPress.isElement_eq, SvgPress.isElement_eq, hk]
    rw [he]
    exact h.one_element

theorem steady_sound : Steady Document.Sound where
  linked h := h.linked
  setKind {d id kind} h hkind := by
    refine ⟨h.linked.setKind id kind, h.shaped.of_ctorIdx (fun x => ?_) fun x => by simp⟩
    rw [kind?_setKind]
    split_ifs with hx
    · subst hx
      cases hk : d.kind? x with
      | none => rfl
      | some old => simp [hkind old hk]
    · rfl
  detach h := ⟨h.linked.detach _, h.shaped.detach h.linked _⟩

end Document

/-- Groups that are run one after the other turn what a document says into what a function gives. -/
def Does (groups : List Group) (φ : Gist → Gist) : Prop :=
  ∀ d, d.Sound → ∃ d', (applyGroups groups d).outcome = .ok d' ∧ d'.Sound ∧ d'.gist = φ d.gist

/-- Groups and other groups turn documents into ones that say the same. -/
def ActAlike (groups groups' : List Group) : Prop :=
  ∃ φ, Does groups φ ∧ Does groups' φ

/-- The group of one stage. -/
def Stage.alone (stage : Stage) : Group :=
  ⟨stage.traversal, [stage]⟩

variable {groups groups' groups'' later later' : List Group} {φ ψ : Gist → Gist}
  {stages : List Stage} {edits : List Edit} {d : Document}

theorem Does.congr (h : Does groups φ) (he : ∀ gist, φ gist = ψ gist) : Does groups ψ :=
  funext he ▸ h

theorem outcome_applyGroups_append (groups later : List Group) (d : Document) :
    (applyGroups (groups ++ later) d).outcome =
      (applyGroups groups d).outcome.bind fun d' => (applyGroups later d').outcome := by
  induction groups generalizing d with
  | nil => rfl
  | cons group groups ih =>
    rw [List.cons_append, applyGroups, applyGroups, outcome_bind, outcome_bind]
    cases (group.apply d).outcome with
    | error e => rfl
    | ok d' => exact ih d'

theorem Does.append (h : Does groups φ) (h' : Does later ψ) : Does (groups ++ later) (ψ ∘ φ) := by
  intro d hd
  obtain ⟨d₁, ho₁, hd₁, hgist₁⟩ := h d hd
  obtain ⟨d₂, ho₂, hd₂, hgist₂⟩ := h' d₁ hd₁
  refine ⟨d₂, ?_, hd₂, by rw [hgist₂, hgist₁, Function.comp_apply]⟩
  rw [outcome_applyGroups_append, ho₁]
  exact ho₂

namespace ActAlike

theorem of_does (h : Does groups φ) : ActAlike groups groups :=
  ⟨φ, h, h⟩

theorem trans (h : ActAlike groups groups') (h' : ActAlike groups' groups'') :
    ActAlike groups groups'' := by
  obtain ⟨φ, hfirst, hmiddle⟩ := h
  obtain ⟨ψ, hmiddle', hlast⟩ := h'
  -- The groups in the middle make one document, so both functions agree on what `d` says.
  refine ⟨φ, hfirst, fun d hd => ?_⟩
  obtain ⟨d₁, ho₁, -, hgist₁⟩ := hmiddle d hd
  obtain ⟨d₂, ho₂, -, hgist₂⟩ := hmiddle' d hd
  obtain ⟨d₃, ho₃, hd₃, hgist₃⟩ := hlast d hd
  obtain rfl := Except.ok.inj (ho₁.symm.trans ho₂)
  exact ⟨d₃, ho₃, hd₃, by rw [hgist₃, ← hgist₂, hgist₁]⟩

theorem append (h : ActAlike groups groups') (h' : ActAlike later later') :
    ActAlike (groups ++ later) (groups' ++ later') := by
  obtain ⟨φ, hfirst, hfirst'⟩ := h
  obtain ⟨ψ, hlater, hlater'⟩ := h'
  exact ⟨ψ ∘ φ, hfirst.append hlater, hfirst'.append hlater'⟩

end ActAlike

namespace Pipeline

/-- Run pipelines one after the other. -/
def applyInTurn : List Pipeline → Document → Report Error Document
  | [], d => .ok d
  | p :: rest, d => (p.apply d).bind (applyInTurn rest)

theorem outcome_applyInTurn (pipelines : List Pipeline) (d : Document) :
    (applyInTurn pipelines d).outcome =
      (applyGroups (pipelines.flatMap (·.groups)) d).outcome := by
  induction pipelines generalizing d with
  | nil => rfl
  | cons p rest ih =>
    rw [applyInTurn, outcome_bind, List.flatMap_cons, outcome_applyGroups_append]
    exact congrArg _ (funext ih)

end Pipeline

/-! ## Cutting stages into groups -/

/-- The stages of a group follow each other in a list, and all of them are driven as the group says.
One that rewrites whole documents is alone. -/
structure Group.CutFrom (stages : List Stage) (group : Group) : Prop where
  sublist : group.stages.Sublist stages
  ne_nil : group.stages ≠ []
  driven : ∀ stage ∈ group.stages, stage.traversal = group.traversal
  length_eq : group.traversal = .full → group.stages.length = 1

theorem Group.CutFrom.cons {group : Group} (h : group.CutFrom stages) (stage : Stage) :
    group.CutFrom (stage :: stages) :=
  { h with sublist := h.sublist.cons stage }

theorem Stage.alone_cutFrom {stage : Stage} (h : stage ∈ stages) :
    stage.alone.CutFrom stages where
  sublist := List.singleton_sublist.2 h
  ne_nil := List.cons_ne_nil _ _
  driven s hs := by rw [List.mem_singleton.1 hs]; rfl
  length_eq _ := rfl

theorem Group.cutFrom_of_mem_ofStages {group : Group} (h : group ∈ ofStages stages) :
    group.CutFrom stages := by
  induction stages generalizing group with
  | nil => exact absurd h List.not_mem_nil
  | cons stage rest ih =>
    have halone : stage.alone.CutFrom (stage :: rest) := stage.alone_cutFrom List.mem_cons_self
    rw [ofStages] at h
    split at h
    · rw [List.mem_singleton.1 h]
      exact halone
    · rename_i first groups hrest
      rw [hrest] at ih
      split_ifs at h with hmerged
      · rcases List.mem_cons.1 h with rfl | h
        · have hfirst := ih List.mem_cons_self
          simp only [Bool.and_eq_true, decide_eq_true_eq, bne_iff_ne] at hmerged
          refine ⟨hfirst.sublist.cons_cons stage, List.cons_ne_nil _ _,
            List.forall_mem_cons.2 ⟨hmerged.1, hfirst.driven⟩, fun hfull => ?_⟩
          exact absurd (hmerged.1.trans hfull) hmerged.2
        · exact (ih (List.mem_cons_of_mem _ h)).cons stage
      · rcases List.mem_cons.1 h with rfl | h
        · exact halone
        · exact (ih h).cons stage

section

variable {t : Traversal}
  (halone : ∀ stage ∈ stages, ∃ φ, Does [stage.alone] φ)
  (hfront : ∀ (t : Traversal) (stage next : Stage) (rest : List Stage), t ≠ .full →
    (stage :: next :: rest).Sublist stages →
    (∀ s ∈ stage :: next :: rest, s.traversal = t) →
    ActAlike [⟨t, stage :: next :: rest⟩] [⟨t, [stage]⟩, ⟨t, next :: rest⟩])
include halone hfront

theorem actAlike_group {ss : List Stage} (hne : ss ≠ []) (hsub : ss.Sublist stages)
    (hdriven : ∀ s ∈ ss, s.traversal = t) (hfull : t = .full → ss.length = 1) :
    ActAlike [⟨t, ss⟩] (ss.map Stage.alone) := by
  induction ss with
  | nil => exact absurd rfl hne
  | cons stage ss ih =>
    obtain rfl := hdriven stage List.mem_cons_self
    obtain ⟨φ, hstage⟩ := halone stage (hsub.subset List.mem_cons_self)
    cases ss with
    | nil => exact .of_does hstage
    | cons next rest =>
      have hsome : stage.traversal ≠ .full := fun hf => by simpa using hfull hf
      have hrest := ih (List.cons_ne_nil _ _) ((List.sublist_cons_self _ _).trans hsub)
        (fun s hs => hdriven s (List.mem_cons_of_mem _ hs)) fun hf => absurd hf hsome
      exact (hfront _ stage next rest hsome hsub hdriven).trans
        ((ActAlike.of_does hstage).append hrest)

/-- If a stage may be taken out of the front of each group, the groups of a pipeline act like a
group for each stage. -/
theorem actAlike_ofStages : ActAlike (Group.ofStages stages) (stages.map Stage.alone) := by
  have hgroups : ∀ groups : List Group, groups ⊆ Group.ofStages stages →
      ActAlike groups ((groups.flatMap (·.stages)).map Stage.alone) := by
    intro groups hsub
    induction groups with
    | nil =>
      have hnone : Does [] id := fun d hd => ⟨d, rfl, hd, rfl⟩
      exact .of_does hnone
    | cons group groups ih =>
      have hcut := Group.cutFrom_of_mem_ofStages (hsub List.mem_cons_self)
      have hfirst :=
        actAlike_group halone hfront hcut.ne_nil hcut.sublist hcut.driven hcut.length_eq
      have hlater := ih fun g hg => hsub (List.mem_cons_of_mem _ hg)
      rw [List.flatMap_cons, List.map_append]
      exact hfirst.append hlater
  have hall := hgroups _ (List.Subset.refl _)
  rwa [Group.stages_ofStages] at hall

end

/-! ## Walks -/

theorem does_group {group : Group}
    (h : ∀ d, d.Sound → ∃ d', (group.apply d).outcome = .ok d' ∧ d'.Sound ∧ d'.gist = φ d.gist) :
    Does [group] φ := by
  intro d hd
  obtain ⟨d', ho, hd', hgist⟩ := h d hd
  refine ⟨d', ?_, hd', hgist⟩
  rw [applyGroups, outcome_bind, ho]
  rfl

/-- A group of edits that trim settles what a document says. -/
theorem does_parentsFirst (hs : List.Forall₂ (Stage.Follows Document.Sound) stages edits)
    (htrims : ∀ stage ∈ stages, stage.rewriter.Trims) :
    Does [⟨.perItem, stages⟩] fun gist =>
      { gist with payloads := gist.payloads.settle (Edit.settle edits) [gist.root] } := by
  refine does_group fun d hd => ?_
  rcases walk_settles steady_sound hs (fun stage hm => (htrims stage hm).shrinks) hd with
    ⟨d', ho, hd', -, hgist, -⟩ | ⟨⟨c, hc, hremoves, hnode⟩, -⟩
  · exact ⟨d', ho, hd', hgist⟩
  · have hcalls := (trimmed_walk htrims hd.linked hd.shaped.one_element false).2
    exact absurd hnode ((hcalls c hc).not_mem hremoves)

/-- A group of stages that rebuild trees, and trim, rebuilds what a document says. -/
theorem does_childrenFirst {t : Bool → NodeKind → Forest NodeKind → Forest NodeKind}
    {lost : NodeKind → Prop} (hturns : Turns Document.Sound stages t lost)
    (htrims : ∀ stage ∈ stages, stage.rewriter.Trims) :
    Does [⟨.perItemReverse, stages⟩] fun gist =>
      { gist with payloads := gist.payloads.rebuild t true } := by
  refine does_group fun d hd => ?_
  rcases walk_rebuilds hturns (fun stage hm => (htrims stage hm).shrinks) hd.linked hd with
    ⟨d', ho, hd', -, hgist, -⟩ | ⟨⟨c, hc, hremoves, hnode⟩, -⟩
  · exact ⟨d', ho, hd', hgist⟩
  · have hcalls := (trimmed_walk htrims hd.linked hd.shaped.one_element true).2
    exact absurd hnode ((hcalls c hc).not_mem hremoves)

/-- An edit that overlooks the others may be taken out of the front of a group. -/
theorem actAlike_parentsFirst {stage : Stage} {edit : Edit}
    (hs : List.Forall₂ (Stage.Follows Document.Sound) (stage :: stages) (edit :: edits))
    (htrims : ∀ s ∈ stage :: stages, s.rewriter.Trims) (h : ∀ g ∈ edits, edit.Overlooks g) :
    ActAlike [⟨.perItem, stage :: stages⟩] [⟨.perItem, [stage]⟩, ⟨.perItem, stages⟩] := by
  obtain ⟨htrims₁, htrims₂⟩ := List.forall_mem_cons.1 htrims
  cases hs with
  | cons hstage hrest =>
    have hfirst := does_parentsFirst (.cons hstage .nil) (List.forall_mem_singleton.2 htrims₁)
    refine ⟨_, does_parentsFirst (.cons hstage hrest) htrims, ?_⟩
    refine (hfirst.append (does_parentsFirst hrest htrims₂)).congr fun gist => ?_
    have hroot : List.Forall₂ edit.Blind [gist.root] [gist.root] :=
      .cons (fun _ _ _ => rfl) .nil
    simp only [Function.comp_apply, Forest.settle_settle h hroot]

end SvgPress
