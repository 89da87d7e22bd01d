import SvgPress.Proofs.Walk.Grouping
import SvgPress.Proofs.Walk.Remaking

/-!
# Walks that keep every node

A walk with parents first whose stage edits payloads and removes nothing leaves the tree as it is. A
payload becomes what the edit makes of it under those that the walk has already left above it. What
stands on the way from the root down to a node after the walk is therefore told by what stood there
before, and a second walk changes nothing if the edit changes nothing when it is repeated in place.
-/

namespace SvgPress

open Document Relation

namespace Edit

/-- The edit removes no node. -/
def Stays (edit : Edit) : Prop :=
  ∀ above kind, (edit above kind).2 = .keep

/-- The edit changes nothing when it is repeated in the same place. -/
def Settled (edit : Edit) : Prop :=
  ∀ above kind, (edit above (edit above kind).1).1 = (edit above kind).1

/-- What an edit makes of the payloads from a node upwards, if those above are edited first. -/
def descend (edit : Edit) : List NodeKind → List NodeKind
  | [] => []
  | kind :: above => (edit (edit.descend above) kind).1 :: edit.descend above

variable {edit : Edit}

theorem settle_of_stays (h : edit.Stays) (above : List NodeKind) (kind : NodeKind) :
    settle [edit] above kind = some (edit above kind).1 := by
  have hkeep := h above kind
  simp only [settle]
  split
  · rename_i he
    rw [he] at hkeep
    exact absurd hkeep (by simp)
  · rename_i he
    rw [he]

theorem descend_descend (h : edit.Settled) (line : List NodeKind) :
    edit.descend (edit.descend line) = edit.descend line := by
  induction line with
  | nil => rfl
  | cons kind above ih => rw [descend, descend, ih, h]

end Edit

/-- The tree is what it was, and the payload of each node below the root is what an edit makes of
the former one under the payloads that are above it now. -/
structure Amended (edit : Edit) (d d' : Document) : Prop where
  linked : d'.Linked
  declaration : d'.declaration = d.declaration
  doctype : d'.doctype = d.doctype
  parent? : ∀ x, d'.parent? x = d.parent? x
  children : ∀ x, d'.children x = d.children x
  kind?_other : ∀ x, x ∉ d.descendants .root → d'.kind? x = d.kind? x
  kindOf_eq : ∀ x ∈ d.descendants .root,
    d'.kindOf x = (edit (d'.kindsAbove x) (d.kindOf x)).1

variable {stage : Stage} {edit : Edit} {d d₁ d₂ : Document} {parent x : NodeId}
  {f : Forest NodeId}

/-! ## Walks -/

/-- The payloads of a settled forest, each with those above it. -/
theorem kindOf_eq_of_settle (hstays : edit.Stays) (hf : Stands d₁ parent f)
    (h : f.map d₁.kindOf = (f.map d.kindOf).settle (Edit.settle [edit]) (d₁.lineage parent)) :
    ∀ x ∈ f.preorder, d₁.kindOf x = (edit (d₁.kindsAbove x) (d.kindOf x)).1 := by
  induction f generalizing parent with
  | nil => exact fun x hx => absurd hx List.not_mem_nil
  | cons top below rest ihb ihr =>
    have hp : d₁.parent? top = some parent := hf.parents top List.mem_cons_self
    rw [Forest.map, Forest.map, Forest.settle, Edit.settle_of_stays hstays] at h
    obtain ⟨hkind, hbelow, hrest⟩ := Forest.cons.inj h
    rw [← hkind, ← hf.linked.lineage_eq hp] at hbelow
    intro x hx
    simp only [Forest.preorder, List.mem_cons, List.mem_append] at hx
    rcases hx with rfl | hx | hx
    · rw [hf.linked.kindsAbove_eq hp]
      exact hkind
    · exact ihb hf.below_top hbelow x hx
    · exact ihr hf.after_top hrest x hx

/-- A walk with parents first by a stage that keeps every node amends what is below the root. -/
theorem walk_amends (hfollows : stage.Follows Document.Sound edit) (hedits : stage.EditsOnly)
    (hkeeps : ∀ d id d', (stage.rewriter.visit d id).outcome ≠ .ok (d', .remove))
    (hstays : edit.Stays) (hd : d.Sound) :
    ∃ d', (walk [stage] false d).outcome = .ok d' ∧ d'.Sound ∧ Amended edit d d' := by
  have hstages : ∀ s ∈ [stage], s.EditsOnly := List.forall_mem_singleton.2 hedits
  obtain ⟨f, ht, hf, hends⟩ := exists_ends hd.linked (fun s hs => (hstages s hs).shrinks) false
  have htour := tour_parentsFirst hstages hf hends
  rcases settles_parentsFirst steady_sound (.cons hfollows .nil) hd hf hends with
    ⟨d', f', ho, hd', hr, hmap, -⟩ | ⟨-, c, -, -, -, -, hdrops⟩
  · rw [ho] at htour
    have hkept : ∀ c ∈ walkCalls [stage] false d, c.removes = false := by
      intro c hc
      have hstage : c.stage = stage :=
        List.mem_singleton.1 (List.mem_of_getElem? (htour.staged c hc))
      rw [Call.removes, Call.report, hstage]
      split
      · rename_i ho
        exact absurd ho (hkeeps _ _ _)
      · rfl
    obtain ⟨hparent, hchildren⟩ := (htour.pruned hstages hd.linked hf.holds).links_eq hkept
    have hshows : d'.Shows f := hf.shows.congr fun x _ => hchildren x
    have htops : f.tops = d'.children .root := ht.trans (hchildren .root).symm
    -- The store shows one forest below its root, so that of the settled payloads is the former one.
    have hpayloads : f.map d'.kindOf = f'.map d'.kindOf := by
      rw [← hd'.linked.payloads_eq htops hshows,
        ← hd'.linked.payloads_eq (hr.children_eq ht).symm hr.shows]
    rw [hmap, ← hr.lineage_eq hf] at hpayloads
    have hdescendants := hf.linked.descendants_eq ht hf.shows
    refine ⟨d', ho, hd', hd'.linked, hr.declaration, hr.doctype, hparent, hchildren, ?_, ?_⟩
    · rw [hdescendants]
      exact hr.kind?_other
    · rw [hdescendants]
      exact kindOf_eq_of_settle hstays (.of_tops hd'.linked hshows htops) hpayloads
  · rw [Edit.Drops, Edit.settle_of_stays hstays] at hdrops
    exact absurd hdrops (by simp)

/-! ## From the root down to a node -/

/-- What holds of the root and of all payloads below it holds of those from a node upwards. -/
theorem Document.Sound.forall_mem_lineage {P : NodeKind → Prop} (hd : d.Sound) (hroot : P .root)
    (h : ∀ x ∈ d.descendants .root, P (d.kindOf x)) (hx : ReflTransGen d.IsParent .root x) :
    ∀ kind ∈ d.lineage x, P kind := by
  induction hx with
  | refl =>
    rw [hd.linked.lineage_root, hd.shaped.kindOf_root]
    exact List.forall_mem_singleton.2 hroot
  | @tail above x habove hp ih =>
    rw [hd.linked.lineage_eq hp, List.forall_mem_cons]
    exact ⟨h x (hd.linked.mem_descendants_iff.2 (.tail' habove hp)), ih⟩

namespace Amended

section

variable (h : Amended edit d d₁) (hd : d.Sound)
include h hd

theorem descendants_eq : d₁.descendants .root = d.descendants .root :=
  hd.linked.descendants_congr h.linked fun x _ => h.children x

theorem kindOf_root : d₁.kindOf .root = d.kindOf .root := by
  refine kindOf_congr (h.kind?_other .root fun hm => ?_)
  exact hd.linked.climb.transGen.irrefl.irrefl _ (hd.linked.mem_descendants_iff.1 hm)

/-- The payloads from a node upwards are what the edit makes of the former ones, from the top
down. -/
theorem lineage_eq (hroot : (edit [] .root).1 = .root)
    (hx : ReflTransGen d.IsParent .root x) : d₁.lineage x = edit.descend (d.lineage x) := by
  induction hx with
  | refl =>
    rw [h.linked.lineage_root, hd.linked.lineage_root, h.kindOf_root hd, hd.shaped.kindOf_root,
      Edit.descend, Edit.descend, hroot]
  | @tail above x habove hp ih =>
    have hmem : x ∈ d.descendants .root :=
      hd.linked.mem_descendants_iff.2 (.tail' habove hp)
    have hp₁ : d₁.parent? x = some above := (h.parent? x).trans hp
    rw [h.linked.lineage_eq hp₁, h.kindOf_eq x hmem, h.linked.kindsAbove_eq hp₁, ih,
      hd.linked.lineage_eq hp, Edit.descend]

end

/-- Documents amended by an edit that settles are amended no further. -/
theorem eq_of_settled (h : Amended edit d d₁) (h' : Amended edit d₁ d₂) (hd : d.Sound)
    (hd₁ : d₁.Sound) (hroot : (edit [] .root).1 = .root) (hsettled : edit.Settled) : d₂ = d₁ := by
  refine ext_links h'.declaration h'.doctype (fun x => ?_) h'.parent? h'.children
  by_cases hx : x ∈ d₁.descendants .root
  · have hreach := hd₁.linked.mem_descendants_iff.1 hx
    have hline : d₁.lineage x = edit.descend (d.lineage x) := by
      refine h.lineage_eq hd hroot (TransGen.to_reflTransGen ?_)
      rwa [← hd.linked.mem_descendants_iff, ← h.descendants_eq hd]
    have hsame : d₂.lineage x = d₁.lineage x := by
      rw [h'.lineage_eq hd₁ hroot hreach.to_reflTransGen, hline, Edit.descend_descend hsettled]
    have hkind : d₂.kindOf x = d₁.kindOf x := (List.cons.inj hsame).1
    obtain ⟨above, hp, -⟩ := hd₁.linked.exists_parent hx
    rw [kind?_eq_some_kindOf (holds_of_parent? hp), ← hkind,
      kind?_eq_some_kindOf (holds_of_parent? ((h'.parent? x).trans hp))]
  · exact h'.kind?_other x hx

end Amended

end SvgPress
