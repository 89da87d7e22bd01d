import SvgPress.Proofs.Builtin.Preset
import SvgPress.Proofs.Builtin.Sweeping

/-!
# One walk tidies

Removing empty containers, handing down attributes and unwrapping groups make way for each other,
across levels. A walk with children first that does all of it leaves nothing to be done: what happens
to a node later on, that it is given the attributes of a group around it or stands under another
parent, makes no container dispensable that was not, and lets no group do what it could not do
before.
-/

namespace SvgPress

open Document Outcome

/-! ## Trees with nothing to be done -/

namespace Builtin

/-- A tree is no empty container that goes, and its top is no group that goes or hands down. -/
structure IsSettled (top : Bool) (kind : NodeKind) (below : Forest NodeKind) : Prop where
  full : goes top kind below = false
  firm : IsFirm top kind below

end Builtin

/-- There is nothing to be done at any tree. Trees directly under the root are marked. -/
def Forest.AllSettled : (top : Bool) → Forest NodeKind → Prop
  | _, nil => True
  | top, cons kind below rest =>
    Builtin.IsSettled top kind below ∧ below.AllSettled false ∧ rest.AllSettled top

theorem Forest.allSettled_append {top : Bool} {F G : Forest NodeKind} :
    (F ++ G).AllSettled top ↔ F.AllSettled top ∧ G.AllSettled top := by
  induction F with
  | nil => simp [AllSettled]
  | cons kind below rest _ ih => simp [AllSettled, ih, and_assoc]

namespace Builtin

variable {g c : Element} {top : Bool} {x : Entry} {below tree F G : Forest Entry}
  {inner : Forest NodeKind}

theorem attr?_receive_eq_none {name : String} {attributes : List Attribute}
    (h : (c.receive attributes).attr? name = none) : c.attr? name = none := by
  simp only [Element.attr?, Element.receive, List.find?_append, Option.map_eq_none_iff,
    Option.or_eq_none_iff] at h ⊢
  exact h.1

/-- An element that is given attributes is no more dispensable than before. -/
theorem isVain_of_receive {attributes : List Attribute} (h : isVain (c.receive attributes) = true) :
    isVain c = true := by
  simp only [isVain, Bool.and_eq_true, Option.isNone_iff_eq_none] at h ⊢
  exact ⟨h.1, attr?_receive_eq_none h.2⟩

/-- An element that can hand down what it has been given can hand down what it had before. -/
theorem canHandDown_of_receive {k : Element} {attributes : List Attribute}
    (hsome : c.attributes ≠ []) (h : canHandDown (c.receive attributes) k = true) :
    canHandDown c k = true := by
  simp only [canHandDown, Element.receive, Bool.and_eq_true, List.all_append] at h ⊢
  refine ⟨⟨⟨?_, h.1.1.2⟩, h.1.2.1⟩, h.2.1⟩
  simpa using hsome

/-- A child that takes over the attributes of a group is settled as before. -/
theorem IsSettled.receive {attributes : List Attribute} (h : IsSettled false (.element c) inner) :
    IsSettled false (.element (c.receive attributes)) inner := by
  refine ⟨?_, fun g' hg' hnamed htop => ?_⟩
  · have hfull := h.full
    simp only [goes, NodeKind.element?, Option.any_some, Bool.not_false, Bool.true_and,
      Bool.and_eq_false_iff] at hfull ⊢
    refine hfull.imp_left fun hvain => ?_
    rw [← Bool.not_eq_true] at hvain ⊢
    exact fun hreceive => hvain (isVain_of_receive hreceive)
  · obtain rfl := NodeKind.element.inj hg'
    obtain ⟨hsome, hblocked⟩ := h.firm c rfl hnamed htop
    refine ⟨fun hnone => hsome (List.append_eq_nil_iff.1 hnone).1, fun k inner' hinner => ?_⟩
    rw [← Bool.not_eq_true]
    intro hcan
    have hbefore := canHandDown_of_receive hsome hcan
    rw [hblocked k inner' hinner] at hbefore
    exact absurd hbefore (by simp)

/-- What is made of a tree whose lower parts are settled is settled. -/
theorem Tidies.allSettled (h : Tidies top x below tree)
    (hbelow : (below.map Prod.snd).AllSettled false) : (tree.map Prod.snd).AllSettled top := by
  cases h with
  | removes => trivial
  | collapses hfull hc =>
    cases hc with
    | stays hfirm => exact ⟨⟨hfull, hfirm⟩, hbelow, trivial⟩
    | dissolves => exact hbelow
    | handsDown =>
      obtain ⟨hchild, hinner, -⟩ := hbelow
      exact ⟨hchild.receive, hinner, trivial⟩

/-- A walk with children first leaves nothing to be done. -/
theorem allSettled_of_remade (h : F.Remade Tidies top G) : (G.map Prod.snd).AllSettled top := by
  induction h with
  | nil => trivial
  | cons _ htree _ ihb ihr =>
    rw [Forest.map_append, Forest.allSettled_append]
    exact ⟨htree.allSettled ihb, ihr⟩

/-! ## Settled nodes -/

section

variable {d : Document} {parent top x : NodeId} {f below : Forest NodeId} {a b : Stage}

/-- Each node of settled trees is the top of a settled tree. -/
theorem isSettled_of_mem (hf : Stands d parent f)
    (h : (f.map d.kindOf).AllSettled (decide (parent = .root))) (hx : x ∈ f.preorder) :
    ∃ p below, Stands d p (.cons x below .nil) ∧
      IsSettled (decide (p = .root)) (d.kindOf x) (below.map d.kindOf) := by
  induction f generalizing parent with
  | nil => exact absurd hx List.not_mem_nil
  | cons top below rest ihb ihr =>
    obtain ⟨htop, hbelow, hrest⟩ := h
    have hroot : top ≠ .root :=
      hf.linked.ne_root_of_parent? (hf.parents top List.mem_cons_self)
    simp only [Forest.preorder, List.mem_cons, List.mem_append] at hx
    rcases hx with rfl | hx | hx
    · exact ⟨parent, below, hf.first, htop⟩
    · rw [← decide_eq_false hroot] at hbelow
      exact ihb hf.below_top hbelow hx
    · exact ihr hf.after_top hrest hx

/-- A group that is firm is left alone. -/
theorem visitGroup_of_isFirm (hf : Stands d parent (.cons top below .nil))
    (h : IsFirm (decide (parent = .root)) (d.kindOf top) (below.map d.kindOf)) :
    visitGroup d top = .ok (d, .keep) := by
  have hp : d.parent? top = some parent := hf.parents top List.mem_cons_self
  by_cases hgroup : d.isElementNamed top "g" = true ∧ d.parent? top ≠ some .root
  · obtain ⟨g, hg, hnamed⟩ : ∃ g, d.element? top = some g ∧ g.isNamed "g" = true :=
      (Option.any_eq_true _ _).1 hgroup.1
    have hroot : parent ≠ .root := fun h => hgroup.2 (h ▸ hp)
    obtain ⟨hsome, hblocked⟩ := h g (kindOf_of_element? hg) hnamed (decide_eq_false hroot)
    rcases handDown_cases hf hg with ⟨child, inner, c, rfl, hc, hcan⟩ | ⟨hdoc, -⟩
    · have hcannot := hblocked c (inner.map d.kindOf) (by
        rw [Forest.map, Forest.map, kindOf_of_element? hc])
      rw [hcan] at hcannot
      exact absurd hcannot (by simp)
    · rw [visitGroup_of_group hgroup.1 hgroup.2, hdoc, hg, Option.any_some, if_neg (by simpa)]
  · exact visitGroup_of_other hgroup

/-- The visit of a settled node leaves the document as it is. -/
theorem outcome_visitNode_of_isSettled
    (ha : a.rewriter.visit = Plugin.deciding decideEmptyContainer)
    (hb : b.rewriter.visit = visitGroup) (hd : d.Sound)
    (hf : Stands d parent (.cons top below .nil))
    (h : IsSettled (decide (parent = .root)) (d.kindOf top) (below.map d.kindOf)) :
    ∃ stays, (visitNode parent top [a, b] d).outcome = .ok (d, stays) := by
  have hp : d.parent? top = some parent := hf.parents top List.mem_cons_self
  have hfirst : (a.rewriter.visit d top).outcome = .ok (d, .keep) := by
    rw [ha, Plugin.deciding, decideEmptyContainer_eq hd hf, h.full]
    rfl
  have hsecond : (b.rewriter.visit d top).outcome = .ok (d, .keep) := by
    rw [hb, visitGroup_of_isFirm hf h.firm]
    rfl
  rw [visitNode_of_keep hfirst, if_pos hp]
  exact outcome_visitNode_of_keep hsecond parent

/-- A walk over settled trees leaves the document as it is. -/
theorem walk_of_allSettled (ha : a.rewriter.visit = Plugin.deciding decideEmptyContainer)
    (hb : b.rewriter.visit = visitGroup) (hshrinks : ∀ stage ∈ [a, b], stage.Shrinks)
    (hd : d.Sound) (hf : d.Grows f) (h : (f.map d.kindOf).AllSettled true) :
    (walk [a, b] true d).outcome = .ok d := by
  refine walk_idle hd.linked hshrinks fun p x hp hx => ?_
  rw [hf.descendants_eq] at hx
  obtain ⟨p', below, hplace, hsettled⟩ := isSettled_of_mem hf.stands h hx
  obtain rfl := Option.some.inj (hp.symm.trans (hplace.parents x List.mem_cons_self))
  exact outcome_visitNode_of_isSettled ha hb hd hplace hsettled

/-- A settled node is no container that is empty and dispensable. -/
theorem IsSettled.children_ne_nil (h : IsSettled (decide (parent = .root)) (d.kindOf top)
    (below.map d.kindOf)) (hd : d.Sound) (hf : Stands d parent (.cons top below .nil))
    (hx : IsDispensable d top) : d.children top ≠ [] := by
  obtain ⟨⟨e, he, hvain⟩, hroot⟩ := hx
  rw [Ne, hd.documentElement?_eq_some_iff (isElement_of_element? he),
    hf.parents top List.mem_cons_self, Option.some.injEq] at hroot
  have hfull := h.full
  rw [goes, element?_kindOf, he, Option.any_some, hvain, decide_eq_false hroot, Forest.tops_map,
    List.isEmpty_map] at hfull
  rw [hf.shows.1]
  simpa using hfull

/-- A settled group that is not the document element has attributes that it cannot hand down. -/
theorem IsSettled.firm_children (h : IsSettled (decide (parent = .root)) (d.kindOf top)
    (below.map d.kindOf)) (hd : d.Sound) (hf : Stands d parent (.cons top below .nil))
    (hg : d.element? top = some g) (hnamed : g.isNamed "g" = true)
    (hroot : d.documentElement? ≠ some top) :
    g.attributes ≠ [] ∧ ∀ child c, d.children top = [child] → d.element? child = some c →
      canHandDown g c = false := by
  rw [Ne, hd.documentElement?_eq_some_iff (isElement_of_element? hg),
    hf.parents top List.mem_cons_self, Option.some.injEq] at hroot
  obtain ⟨hsome, hblocked⟩ := h.firm g (kindOf_of_element? hg) hnamed (decide_eq_false hroot)
  refine ⟨hsome, fun child c hchildren hc => ?_⟩
  rw [hf.shows.1] at hchildren
  rcases below with _ | ⟨child', inner, _ | ⟨next, inner', rest⟩⟩
  · simp [Forest.tops] at hchildren
  · obtain rfl : child' = child := by simpa [Forest.tops] using hchildren
    exact hblocked c (inner.map d.kindOf) (by rw [Forest.map, Forest.map, kindOf_of_element? hc])
  · simp [Forest.tops] at hchildren

end

end Builtin

/-! ## The batch of the preset -/

/-- The plugins of the preset that visit children first share one group. One run of it makes of every
text that is a document another one in which no container is empty without being the document
element or having an identity, and in which every group, unless it is the document element, has
attributes that it cannot hand down to its only child. A second run changes nothing. -/
theorem Group.apply_apply_tidying (multipass : Bool) (engine : Engine) (group : Group) (s : String)
    (d : Document) (hengine : Engine.ofConfig { multipass } Builtin.registry = .ok engine)
    (hgroup : group ∈ engine.pipeline.groups) (hdriven : group.traversal = .perItemReverse)
    (hs : Markup.parse s = .ok d) :
    group.stages.map (·.name) = ["removeEmptyContainers", "collapseGroups"] ∧
    ∃ d', (group.apply d).outcome = .ok d' ∧
      (∀ x ∈ d'.descendants .root, Builtin.IsDispensable d' x → d'.children x ≠ []) ∧
      (∀ x ∈ d'.descendants .root, ∀ g, d'.element? x = some g → g.isNamed "g" = true →
        d'.documentElement? ≠ some x →
        g.attributes ≠ [] ∧ ∀ child c, d'.children x = [child] → d'.element? child = some c →
          Builtin.canHandDown g c = false) ∧
      (group.apply d').outcome = .ok d' := by
  rw [Builtin.engine_of_preset hengine] at hgroup
  obtain rfl : group = ⟨.perItemReverse, Builtin.tidyStages⟩ := by
    simp only [Builtin.presetGroups, List.mem_cons, List.not_mem_nil, or_false] at hgroup
    rcases hgroup with rfl | rfl | rfl | rfl | rfl | rfl
    all_goals first | rfl | exact absurd hdriven (by simp)
  have hshrinks : ∀ stage ∈ Builtin.tidyStages, stage.Shrinks := fun stage hm =>
    (Builtin.trims_presetGroups _ hgroup stage hm).shrinks
  have hd := Markup.sound_of_parse hs
  obtain ⟨d', f, f', ho, hd', -, -, -, hf', hremade⟩ :=
    walk_remakes (Builtin.remakes_tidies rfl rfl) hshrinks hd
  have hsettled := Builtin.allSettled_of_remade hremade
  rw [Forest.map_entry_snd] at hsettled
  refine ⟨rfl, d', ho, fun x hx => ?_, fun x hx => ?_,
    Builtin.walk_of_allSettled rfl rfl hshrinks hd' hf' hsettled⟩
  all_goals
    rw [hf'.descendants_eq] at hx
    obtain ⟨p, below, hplace, hsettled⟩ := Builtin.isSettled_of_mem hf'.stands hsettled hx
  · exact hsettled.children_ne_nil hd' hplace
  · exact fun g => hsettled.firm_children hd' hplace

/-- Two groups hand their attributes down to a path, and a group around an empty group goes. -/
theorem Group.apply_apply_tidying_of_nested : ∃ (engine : Engine) (group : Group) (d : Document),
    Engine.ofConfig {} Builtin.registry = .ok engine ∧ group ∈ engine.pipeline.groups ∧
    group.traversal = .perItemReverse ∧
    Markup.parse "<svg><g fill='red'><g stroke='none'><path/></g></g><g><g/></g></svg>" = .ok d ∧
    group.stages.map (·.name) = ["removeEmptyContainers", "collapseGroups"] ∧
    ∃ d', (group.apply d).outcome = .ok d' ∧
      Markup.write {} d' = .ok "<svg><path stroke=\"none\" fill=\"red\"/></svg>" ∧
      (∀ x ∈ d'.descendants .root, Builtin.IsDispensable d' x → d'.children x ≠ []) ∧
      (∀ x ∈ d'.descendants .root, ∀ g, d'.element? x = some g → g.isNamed "g" = true →
        d'.documentElement? ≠ some x →
        g.attributes ≠ [] ∧ ∀ child c, d'.children x = [child] → d'.element? child = some c →
          Builtin.canHandDown g c = false) ∧
      (group.apply d').outcome = .ok d' := by
  obtain ⟨engine, hengine⟩ : ∃ engine, Engine.ofConfig {} Builtin.registry = .ok engine := ⟨_, rfl⟩
  obtain ⟨d, d₁, hs, ho₁, hw⟩ : ∃ d d' : Document,
      Markup.parse "<svg><g fill='red'><g stroke='none'><path/></g></g><g><g/></g></svg>" = .ok d ∧
      ((⟨.perItemReverse, Builtin.tidyStages⟩ : Group).apply d).outcome = .ok d' ∧
      Markup.write {} d' = .ok "<svg><path stroke=\"none\" fill=\"red\"/></svg>" :=
    ⟨_, _, rfl, rfl, rfl⟩
  have hgroup : ⟨.perItemReverse, Builtin.tidyStages⟩ ∈ engine.pipeline.groups := by
    rw [Builtin.engine_of_preset hengine]
    simp [Builtin.presetGroups]
  obtain ⟨hnames, d', ho, h⟩ := Group.apply_apply_tidying false engine _ _ d hengine hgroup rfl hs
  obtain rfl := Except.ok.inj (ho₁.symm.trans ho)
  exact ⟨engine, _, d, hengine, hgroup, rfl, hs, hnames, _, ho, hw, h⟩

end SvgPress
