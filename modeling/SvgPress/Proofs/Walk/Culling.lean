import SvgPress.Proofs.Walk.Grouping
import SvgPress.Proofs.Walk.Remaking

/-!
# Walks that only take nodes away

A walk with parents first whose stage changes no payload cuts trees out of the document: a node goes
exactly if the stage decides so about it or about a node above it. What the stage is told when it
decides is what stands in the document before the walk, since all nodes above a node that is visited
are still there, as they were.
-/

namespace SvgPress

open Document Relation

/-- The edit changes no payload. -/
def Edit.Decides (edit : Edit) : Prop :=
  ∀ above kind, (edit above kind).1 = kind

/-- Whether an edit removes a node, as it stands in the document. -/
def Document.drops (d : Document) (edit : Edit) (x : NodeId) : Bool :=
  decide ((edit (d.kindsAbove x) (d.kindOf x)).2 = .remove)

variable {P : Document → Prop} {stage : Stage} {edit : Edit} {d d₁ : Document}
  {parent top x y : NodeId} {f f₁ f₂ below rest : Forest NodeId} {calls : List Call}
  {outcome : Except Error Document} {gone : NodeId → Bool}

/-! ## Trees that are left -/

/-- Nodes of a forest that stands where it did, under the same payloads, are under the same payloads
themselves. -/
theorem Stands.kindsAbove_congr (h : Stands d parent f) (h₁ : Stands d₁ parent f)
    (hline : d₁.lineage parent = d.lineage parent)
    (hkinds : ∀ x ∈ f.preorder, d₁.kindOf x = d.kindOf x) :
    ∀ x ∈ f.preorder, d₁.kindsAbove x = d.kindsAbove x := by
  induction f generalizing parent with
  | nil => exact fun x hx => absurd hx List.not_mem_nil
  | cons top below rest ihb ihr =>
    have hp : d.parent? top = some parent := h.parents top List.mem_cons_self
    have hp₁ : d₁.parent? top = some parent := h₁.parents top List.mem_cons_self
    have htop : d₁.lineage top = d.lineage top := by
      rw [h.linked.lineage_eq hp, h₁.linked.lineage_eq hp₁, hline, hkinds top List.mem_cons_self]
    intro x hx
    simp only [Forest.preorder, List.mem_cons, List.mem_append] at hx hkinds
    rcases hx with rfl | hx | hx
    · rw [h.linked.kindsAbove_eq hp, h₁.linked.kindsAbove_eq hp₁, hline]
    · exact ihb h.below_top h₁.below_top htop (fun x hx => hkinds x (.inr (.inl hx))) x hx
    · exact ihr h.after_top h₁.after_top hline (fun x hx => hkinds x (.inr (.inr hx))) x hx

/-- Neither the node nor one above it is gone. -/
def Document.Spares (d : Document) (gone : NodeId → Bool) (x : NodeId) : Prop :=
  ∀ y, ReflTransGen d.IsParent y x → gone y = false

theorem Document.spares_iff (hp : d.parent? x = some parent) :
    d.Spares gone x ↔ gone x = false ∧ d.Spares gone parent := by
  constructor
  · exact fun h => ⟨h x .refl, fun y hy => h y (hy.tail hp)⟩
  · rintro ⟨hx, hparent⟩ y hy
    rcases hy.cases_tail with rfl | ⟨above, hy, habove⟩
    · exact hx
    · obtain rfl : above = parent := Option.some.inj (habove.symm.trans hp)
      exact hparent y hy

/-- Below a node that is spared, the nodes that are left are those that are spared. -/
theorem Stands.mem_prune_iff (h : Stands d parent f) (hparent : d.Spares gone parent) :
    x ∈ (f.prune gone).preorder ↔ x ∈ f.preorder ∧ d.Spares gone x := by
  induction f generalizing parent with
  | nil => simp [Forest.prune, Forest.preorder]
  | cons top below rest ihb ihr =>
    have hp : d.parent? top = some parent := h.parents top List.mem_cons_self
    have htop : d.Spares gone top ↔ gone top = false := by
      rw [spares_iff hp, and_iff_left hparent]
    have hbelow : x ∈ below.preorder → ReflTransGen d.IsParent top x := fun hx =>
      (h.below_top.above hx).to_reflTransGen
    rw [Forest.prune, Forest.preorder, List.mem_cons, List.mem_append]
    cases hgone : gone top with
    | true =>
      rw [if_pos rfl, ihr h.after_top hparent]
      -- What is not spared at the top is spared nowhere below it.
      refine and_congr_left fun hs => ⟨fun hx => .inr (.inr hx), fun hx => ?_⟩
      have hnot : ¬ ReflTransGen d.IsParent top x := fun hr => by simp [hs top hr] at hgone
      rcases hx with rfl | hx | hx
      · exact absurd .refl hnot
      · exact absurd (hbelow hx) hnot
      · exact hx
    | false =>
      rw [if_neg (by simp), Forest.preorder, List.mem_cons, List.mem_append,
        ihb h.below_top (htop.2 hgone), ihr h.after_top hparent]
      constructor
      · rintro (rfl | ⟨hx, hs⟩ | ⟨hx, hs⟩)
        · exact ⟨.inl rfl, htop.2 hgone⟩
        · exact ⟨.inr (.inl hx), hs⟩
        · exact ⟨.inr (.inr hx), hs⟩
      · rintro ⟨rfl | hx | hx, hs⟩
        · exact .inl rfl
        · exact .inr (.inl ⟨hx, hs⟩)
        · exact .inr (.inr ⟨hx, hs⟩)

/-! ## The walk -/

/-- A walk over a forest ends well. It leaves other trees where the forest stood, and all payloads
as they were. -/
def Culls (P : Document → Prop) (d : Document) (parent : NodeId) (f f' : Forest NodeId)
    (outcome : Except Error Document) : Prop :=
  ∃ d', outcome = .ok d' ∧ P d' ∧ Replaced d d' parent f f' ∧ ∀ x, d'.kind? x = d.kind? x

/-- Once the first tree is done with, the trees after it are as they were. -/
theorem Culls.cons (hf : Stands d parent (.cons top below rest))
    (hr : Replaced d d₁ parent (.cons top below .nil) f₁) (hkinds : ∀ x, d₁.kind? x = d.kind? x)
    (hrest : Stands d₁ parent rest →
      (∀ x ∈ rest.preorder, d₁.kindsAbove x = d.kindsAbove x) → Culls P d₁ parent rest f₂ outcome) :
    Culls P d parent (.cons top below rest) (f₁ ++ f₂) outcome := by
  have hstands := hr.stands_after hf
  have habove := hf.after_top.kindsAbove_congr hstands (hr.lineage_eq hf.first)
    fun x _ => kindOf_congr (hkinds x)
  obtain ⟨d', ho, hd', hr', hkinds'⟩ := hrest hstands habove
  exact ⟨d', ho, hd', hr.cons hr' hf, fun x => (hkinds' x).trans (hkinds x)⟩

/-- A walk with parents first by a stage that only decides cuts out the trees at the nodes that it
removes. -/
theorem culls_parentsFirst (hP : Steady P) (hfollows : stage.Follows P edit)
    (hdecides : edit.Decides) (hd : P d) (hf : Stands d parent f)
    (hgone : ∀ x ∈ f.preorder, d.drops edit x = gone x)
    (hspares : parent = .root → ∀ x ∈ f.tops, d.isElement x = true → gone x = false)
    (h : Ends [stage] false d [.children parent f.tops] calls outcome) :
    Culls P d parent f (f.prune gone) outcome := by
  induction f generalizing d parent calls outcome with
  | nil =>
    obtain ⟨-, rfl⟩ := h.eq_of_children_nil
    exact ⟨d, rfl, hd, .refl hf.linked trivial, fun _ => rfl⟩
  | cons top below rest ihb ihr =>
    have hp : d.parent? top = some parent := hf.parents top List.mem_cons_self
    have hk : d.kind? top = some (d.kindOf top) := kind?_eq_some_kindOf (holds_of_parent? hp)
    -- The visit leaves the document alone and decides as the edit does in it.
    have hvisit := hfollows.visit d top (d.kindOf top) hd (by rw [hp]; rfl) hk
    rw [hdecides, setKind_self hk] at hvisit
    have htop : gone top = decide ((edit (d.kindsAbove top) (d.kindOf top)).2 = .remove) :=
      (hgone top List.mem_cons_self).symm
    have hlater : ∀ {d₁ f₁ later}, P d₁ → Replaced d d₁ parent (.cons top below .nil) f₁ →
        (∀ x, d₁.kind? x = d.kind? x) →
        Ends [stage] false d₁ [.children parent rest.tops] later outcome →
        Culls P d parent (.cons top below rest) (f₁ ++ rest.prune gone) outcome := by
      intro d₁ f₁ later hd₁ hr hkinds hends
      refine .cons hf hr hkinds fun hrest habove => ihr hd₁ hrest (fun x hx => ?_)
        (fun hroot x hx he => ?_) hends
      · rw [Document.drops, habove x hx, kindOf_congr (hkinds x)]
        exact hgone x (List.mem_cons_of_mem _ (List.mem_append_right _ hx))
      · rw [isElement_congr (hkinds x)] at he
        exact hspares hroot x (List.mem_cons_of_mem _ hx) he
    rw [Forest.prune]
    cases hdecision : (edit (d.kindsAbove top) (d.kindOf top)).2 with
    | remove =>
      rw [hdecision] at hvisit htop
      have hgoes : gone top = true := by simpa using htop
      have hroot : ¬ (decide (parent = .root) && d.isElement top) = true := by
        intro hroot
        simp only [Bool.and_eq_true, decide_eq_true_eq] at hroot
        have hstays := hspares hroot.1 top List.mem_cons_self hroot.2
        exact absurd (hgoes.symm.trans hstays) (by simp)
      have hv : (visitNode parent top [stage] d).outcome = .ok (d.detach top, false) := by
        rw [visitNode_of_remove hvisit, if_neg hroot]
      obtain ⟨later, -, hends⟩ := h.enter_of_ok hp hv
      rw [if_neg (by simp), List.nil_append] at hends
      rw [if_pos hgoes]
      exact hlater (hP.detach hd) (.detach hf.first) (fun x => kind?_detach d top x) hends
    | keep =>
      rw [hdecision] at hvisit htop
      have hstays : gone top = false := by simpa using htop
      have hv : (visitNode parent top [stage] d).outcome = .ok (d, true) := by
        rw [visitNode_of_keep hvisit, if_pos hp]
        rfl
      obtain ⟨later, -, hends⟩ := h.enter_of_ok hp hv
      rw [if_pos rfl, hf.shows.1] at hends
      have hbelow : ∀ {calls outcome},
          Ends [stage] false d [.children top below.tops] calls outcome →
          Culls P d top below (below.prune gone) outcome :=
        ihb hd hf.below_top
          (fun x hx => hgone x (List.mem_cons_of_mem _ (List.mem_append_left _ hx)))
          fun hroot => absurd hroot (hf.linked.ne_root_of_parent? hp)
      rw [if_neg (by simp [hstays])]
      rcases hends.split with ⟨inside, last, d₂, rfl, hinside, hlast⟩ | ⟨e, rfl, hinside⟩
      · obtain ⟨_, ho, hd₂, hr, hkinds⟩ := hbelow hinside
        obtain rfl := Except.ok.inj ho
        exact hlater hd₂ (hr.nest hf.first) hkinds hlast
      · obtain ⟨_, ho, -⟩ := hbelow hinside
        exact absurd ho (by simp)

/-- The second document is the first one without the trees below the root at the nodes that are
gone. -/
structure Culled (gone : NodeId → Bool) (d d' : Document) : Prop where
  sound : d'.Sound
  declaration : d'.declaration = d.declaration
  doctype : d'.doctype = d.doctype
  kind? : ∀ x, d'.kind? x = d.kind? x
  sublist : (d'.descendants .root).Sublist (d.descendants .root)
  mem_iff : ∀ x, x ∈ d'.descendants .root ↔ x ∈ d.descendants .root ∧ d.Spares gone x
  children : ∀ x ∈ .root :: d'.descendants .root,
    d'.children x = (d.children x).filter fun c => c ∈ d'.descendants .root

/-- A walk with parents first by a stage that only decides takes away what the stage removes, as the
document stands before the walk, if this is neither the root nor an element directly under it. -/
theorem walk_culls (hfollows : stage.Follows Document.Sound edit) (hdecides : edit.Decides)
    (hshrinks : stage.Shrinks) (hd : d.Sound) (hroot : d.drops edit .root = false)
    (hspares : ∀ x ∈ d.childElements .root, d.drops edit x = false) :
    ∃ d', (walk [stage] false d).outcome = .ok d' ∧ Culled (d.drops edit) d d' := by
  obtain ⟨f, ht, hf, hends⟩ := exists_ends hd.linked (List.forall_mem_singleton.2 hshrinks) false
  obtain ⟨d', ho, hd', hr, hkinds⟩ := culls_parentsFirst steady_sound hfollows hdecides hd hf
    (fun _ _ => rfl) (fun _ x hx he => hspares x (mem_childElements_iff.2 ⟨ht ▸ hx, he⟩)) hends
  have hgrows : d.Grows f := ⟨hf, ht⟩
  have htops : (f.prune (d.drops edit)).tops = d'.children .root := (hr.children_eq ht).symm
  have hgrows' : d'.Grows (f.prune (d.drops edit)) := ⟨.of_tops hd'.linked hr.shows htops, htops⟩
  have hspared : d.Spares (d.drops edit) .root := by
    intro y hy
    rcases hy.cases_tail with rfl | ⟨above, -, habove⟩
    · exact hroot
    · exact absurd rfl (hd.linked.ne_root_of_parent? habove)
  have hmem : ∀ x, x ∈ d'.descendants .root ↔
      x ∈ d.descendants .root ∧ d.Spares (d.drops edit) x := by
    intro x
    rw [hgrows.descendants_eq, hgrows'.descendants_eq]
    exact hf.mem_prune_iff hspared
  refine ⟨d', ho, hd', hr.declaration, hr.doctype, hkinds, ?_, hmem, fun x hx => ?_⟩
  · rw [hgrows.descendants_eq, hgrows'.descendants_eq]
    exact Forest.preorder_prune_sublist _ f
  · have hx' : d.Spares (d.drops edit) x ∧ (x = .root ∨ x ∈ d.descendants .root) := by
      rcases List.mem_cons.1 hx with rfl | hx
      · exact ⟨hspared, .inl rfl⟩
      · exact ⟨((hmem x).1 hx).2, .inr ((hmem x).1 hx).1⟩
    have hchildren : d'.children x = (d.children x).filter (!d.drops edit ·) := by
      rcases List.mem_cons.1 hx with rfl | hx
      · rw [← hgrows'.tops, ← hgrows.tops, Forest.tops_prune]
      · rw [hgrows'.descendants_eq] at hx
        exact hf.shows.children_prune hgrows'.stands.shows x hx
    -- Below a node that is left, a child is left unless it is removed itself.
    rw [hchildren]
    refine List.filter_congr fun c hc => ?_
    have hp : d.parent? c = some x := (hd.linked.parent_iff c x).2 hc
    have hbelow := hd.linked.mem_descendants_of_child hx'.2 hc
    rw [Bool.eq_iff_iff, decide_eq_true_iff, hmem, spares_iff hp]
    simp [hbelow, hx'.1]

end SvgPress
