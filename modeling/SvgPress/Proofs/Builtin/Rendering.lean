import SvgPress.Proofs.Builtin.Batching
import SvgPress.Proofs.Css.Styles
import SvgPress.Proofs.Walk.Culling

/-!
# Hidden elements

Whether an element is rendered is said by all that stands above it: it must not be switched off
there, and the nearest setting of its visibility counts. In each element the style goes before the
attributes, and of several declarations the last one counts. The plugin for hidden elements looks at
one element at a time and takes it away with all that stands below it. It is right about an element
that is switched off, but not about one whose attribute says what its style takes back, or whose
visibility is set again further down.
-/

namespace SvgPress

open Document Relation

/-! ## What is rendered -/

/-- Whether a text spells the number zero. -/
def Builtin.isZero (text : String) : Bool :=
  (Binary64.ofString? (Text.trimBlanks text)).any (·.isZero)

namespace Element

/-- The value of a property in the style of an element. -/
def styled? (e : Element) (property : String) : Option String :=
  (e.attr? "style").bind (Css.value? · property)

/-- The value of a property on an element: that in its style, or else that of its attribute. -/
def setting? (e : Element) (property : String) : Option String :=
  (e.styled? property).or (e.attr? property)

/-- Whether an element keeps all that stands in it from being rendered. -/
def isOff (e : Element) : Bool :=
  e.setting? "display" == some "none" || (e.setting? "opacity").any Builtin.isZero

end Element

namespace Document

/-- The visibility that an element itself sets. -/
def ownVisibility? (d : Document) (x : NodeId) : Option String :=
  (d.element? x).bind (·.setting? "visibility")

/-- The visibility at a node: that of the nearest element that sets it, from the node upwards. -/
def visibility? (d : Document) (x : NodeId) : Option String :=
  (x :: d.ancestors x).findSome? d.ownVisibility?

/-- Whether a node is rendered: nothing from it upwards is switched off, and it is not hidden. -/
def isRendered (d : Document) (x : NodeId) : Bool :=
  ((x :: d.ancestors x).all fun y => !(d.element? y).any (·.isOff)) &&
    d.visibility? x != some "hidden"

/-- The ways in which an element is taken for hidden although the given node in it is rendered. -/
inductive Misjudged (d : Document) (z x : NodeId) : Prop
  /-- The style displays what an attribute, or an earlier declaration, does not. -/
  | display {e : Element} {value : String} (he : d.element? z = some e)
    (hhides : e.attr? "display" = some "none" ∨ Builtin.styleHides e = true)
    (hstyle : e.styled? "display" = some value) (hvalue : value ≠ "none")
  /-- The style gives an opacity to what is transparent by its attribute. -/
  | opacity {e : Element} {value : String} (he : d.element? z = some e)
    (hhides : Builtin.isTransparent e = true)
    (hstyle : e.styled? "opacity" = some value) (hvalue : Builtin.isZero value = false)
  /-- An element that is no group is hidden by its attribute, but its style, or an element in it on
  the way to the node, sets another visibility. -/
  | visibility {e : Element} {y : NodeId} {value : String} (he : d.element? z = some e)
    (hhides : e.attr? "visibility" = some "hidden") (hgroup : e.isNamed "g" = false)
    (habove : d.isAncestorOrSelf z y = true) (hbelow : d.isAncestorOrSelf y x = true)
    (hsets : d.ownVisibility? y = some value) (hvalue : value ≠ "hidden")

end Document

variable {d : Document} {x y z parent : NodeId} {e : Element} {property value : String}

/-! ## Elements -/

namespace Builtin

theorem isTransparent_eq (e : Element) : isTransparent e = (e.attr? "opacity").any isZero :=
  rfl

/-- A style that hides an element says whether to display it. -/
theorem exists_styled_of_styleHides (h : styleHides e = true) :
    ∃ value, e.styled? "display" = some value := by
  rw [styleHides, Option.any_eq_true] at h
  obtain ⟨style, hstyle, hmem⟩ := h
  rw [Element.styled?, hstyle, Option.bind_some, ← Option.isSome_iff_exists, Css.value?,
    List.getLast?_isSome]
  have hvalue : "none" ∈ Css.valuesOf style "display" :=
    List.mem_filterMap.2 ⟨_, List.contains_iff_mem.1 hmem, by simp [Css.Declaration.valueFor?]⟩
  exact List.ne_nil_of_mem hvalue

end Builtin

namespace Element

theorem setting?_of_styled (h : e.styled? property = some value) :
    e.setting? property = some value := by
  rw [setting?, h, Option.some_or]

theorem setting?_of_attr (hs : e.styled? property = none) (h : e.attr? property = some value) :
    e.setting? property = some value := by
  rw [setting?, hs, Option.none_or, h]

theorem of_not_isOff (h : e.isOff = false) :
    e.setting? "display" ≠ some "none" ∧
      ∀ value, e.setting? "opacity" = some value → Builtin.isZero value = false := by
  rw [isOff, Bool.or_eq_false_iff] at h
  refine ⟨by simpa using h.1, fun value hvalue => ?_⟩
  rw [hvalue, Option.any_some] at h
  exact h.2

/-- An attribute that would switch an element off counts for nothing only if the style says
otherwise. -/
theorem exists_styled (h : e.attr? property = some value)
    (hset : e.setting? property ≠ some value) :
    ∃ value', e.styled? property = some value' := by
  rw [← Option.isSome_iff_exists, Option.isSome_iff_ne_none]
  exact fun hnone => hset (setting?_of_attr hnone h)

end Element

/-! ## Visibility -/

namespace Document

theorem visibility?_eq (hl : d.Linked) (hp : d.parent? x = some parent) :
    d.visibility? x = (d.ownVisibility? x).or (d.visibility? parent) := by
  rw [visibility?, List.findSome?_cons, hl.ancestors_of_parent? hp]
  cases d.ownVisibility? x <;> rfl

/-- If an element sets the visibility, that of a node in it is set on the way from there to the
node. -/
theorem exists_visibility (hl : d.Linked) (hz : (d.ownVisibility? z).isSome = true)
    (hx : ReflTransGen d.IsParent z x) : ∃ y value, ReflTransGen d.IsParent z y ∧
      ReflTransGen d.IsParent y x ∧ d.ownVisibility? y = some value ∧
      d.visibility? x = some value := by
  induction hx with
  | refl =>
    obtain ⟨value, hvalue⟩ := Option.isSome_iff_exists.1 hz
    refine ⟨z, value, .refl, .refl, hvalue, ?_⟩
    rw [visibility?, List.findSome?_cons, hvalue]
  | @tail above x habove hp ih =>
    rw [visibility?_eq hl hp]
    cases hown : d.ownVisibility? x with
    | some value => exact ⟨x, value, habove.tail hp, .refl, hown, rfl⟩
    | none =>
      obtain ⟨y, value, hzy, hyx, hset, hvalue⟩ := ih
      exact ⟨y, value, hzy, hyx.tail hp, hset, hvalue⟩

/-- What is rendered is switched off nowhere above, and not hidden. -/
theorem of_isRendered (hl : d.Linked) (h : d.isRendered x = true) :
    (∀ y e, ReflTransGen d.IsParent y x → d.element? y = some e → e.isOff = false) ∧
      d.visibility? x ≠ some "hidden" := by
  rw [isRendered, Bool.and_eq_true, List.all_eq_true, bne_iff_ne] at h
  refine ⟨fun y e hy he => ?_, h.2⟩
  have hmem : y ∈ x :: d.ancestors x := by
    rwa [List.mem_cons, hl.mem_ancestors_iff, eq_comm, ← reflTransGen_iff_eq_or_transGen]
  have hoff := h.1 y hmem
  rw [he] at hoff
  simpa using hoff

end Document

namespace Builtin

/-- An element that is taken for hidden although a node in it is rendered is misjudged. -/
theorem misjudged_of_isHidden (hl : d.Linked) (he : d.element? z = some e)
    (hidden : isHidden e = true) (hx : ReflTransGen d.IsParent z x) (h : d.isRendered x = true) :
    d.Misjudged z x := by
  obtain ⟨hon, hvisible⟩ := of_isRendered hl h
  obtain ⟨hdisplay, hopacity⟩ := Element.of_not_isOff (hon z e hx he)
  have hshown : (e.attr? "display" = some "none" ∨ styleHides e = true) →
      (∃ value, e.styled? "display" = some value) → d.Misjudged z x :=
    fun hhides ⟨value, hstyle⟩ => .display he hhides hstyle fun hnone =>
      hdisplay (hnone ▸ Element.setting?_of_styled hstyle)
  simp only [isHidden, Bool.and_eq_true, Bool.or_eq_true, beq_iff_eq, Bool.not_eq_true'] at hidden
  obtain ⟨-, ((hattr | ⟨hattr, hgroup⟩) | htransparent) | hstyle⟩ := hidden
  · exact hshown (.inl hattr) (Element.exists_styled hattr hdisplay)
  · -- The visibility that counts for the node is not the one that this element has.
    have hset : (d.ownVisibility? z).isSome = true := by
      rw [ownVisibility?, he, Option.bind_some, Element.setting?, hattr]
      simp
    obtain ⟨y, value, hzy, hyx, hsets, hvalue⟩ := exists_visibility hl hset hx
    rw [← hl.isAncestorOrSelf_iff] at hzy hyx
    exact .visibility he hattr hgroup hzy hyx hsets fun hh => hvisible (hh ▸ hvalue)
  · have htransparent' := htransparent
    rw [isTransparent_eq, Option.any_eq_true] at htransparent'
    obtain ⟨opacity, hattr, hzero⟩ := htransparent'
    obtain ⟨value, hstyle⟩ := Element.exists_styled hattr fun hset => by
      simp [hopacity opacity hset] at hzero
    exact .opacity he htransparent hstyle (hopacity value (Element.setting?_of_styled hstyle))
  · exact hshown (.inr hstyle) (exists_styled_of_styleHides hstyle)

/-! ## The plugin -/

theorem of_decideHidden (h : decideHidden d z = .remove) :
    ∃ e, d.element? z = some e ∧ isHidden e = true := by
  rw [decideHidden] at h
  split_ifs at h with hkeep hhidden
  simpa [Option.any_eq_true] using hhidden

theorem decides_hiddenEdit : hiddenEdit.Decides := fun above kind => by
  cases kind <;> rfl

theorem Prepares.follows_hiddenEdit {stage : Stage} (h : Prepares removeHiddenElements stage) :
    stage.Follows Document.Sound hiddenEdit :=
  h.follows follows_removeHiddenElements

theorem drops_hiddenEdit_root (hd : d.Sound) : d.drops hiddenEdit .root = false := by
  rw [Document.drops, hd.shaped.kindOf_root]
  rfl

/-- The edit removes from the tree what the plugin removes. -/
theorem drops_hiddenEdit (hd : d.Sound) (hx : ReflTransGen d.IsParent .root x) :
    d.drops hiddenEdit x = decide (decideHidden d x = .remove) := by
  rcases hx.cases_tail with rfl | ⟨parent, -, hp⟩
  · have hnone : d.element? .root = none := by
      rw [← element?_kindOf, hd.shaped.kindOf_root]
      rfl
    rw [drops_hiddenEdit_root hd, decideHidden, hnone]
    simp
  · have hparent : d.parent? x = some parent := hp
    obtain ⟨_, rfl, hfollows⟩ := follows_removeHiddenElements ⟨[]⟩ _ rfl
    have hvisit := (hfollows "" .perItem).visit d x (d.kindOf x) hd (by rw [hparent]; rfl)
      (kind?_eq_some_kindOf (holds_of_parent? hparent))
    have hdecision : decideHidden d x = (hiddenEdit (d.kindsAbove x) (d.kindOf x)).2 :=
      (Prod.mk.inj (Except.ok.inj hvisit)).2
    rw [Document.drops, hdecision]

/-- A node below the root is spared if neither it nor an element above it is removed. -/
theorem spares_hiddenEdit_iff (hd : d.Sound) (hx : x ∈ d.descendants .root) :
    d.Spares (d.drops hiddenEdit) x ↔
      ∀ z, d.isAncestorOrSelf z x = true → decideHidden d z ≠ .remove := by
  rw [hd.linked.mem_descendants_iff] at hx
  refine forall_congr' fun z => ?_
  rw [hd.linked.isAncestorOrSelf_iff]
  refine imp_congr_right fun hzx => ?_
  have hz : ReflTransGen d.IsParent .root z := by
    rcases reflTransGen_total hx.to_reflTransGen hzx with hz | hz
    · exact hz
    · rcases hz.cases_tail with rfl | ⟨above, -, habove⟩
      · exact .refl
      · exact absurd rfl (hd.linked.ne_root_of_parent? habove)
  rw [drops_hiddenEdit hd hz, decide_eq_false_iff_not]

/-- The document element is not removed. -/
theorem drops_of_mem_childElements (hd : d.Sound) (hx : x ∈ d.childElements .root) :
    d.drops hiddenEdit x = false := by
  have hdoc : d.documentElement? = some x := by
    by_contra hne
    exact not_mem_childElements hd.shaped.one_element hne hx
  have hp : d.IsParent .root x := (hd.linked.parent_iff x .root).2 (mem_childElements_iff.1 hx).1
  rw [drops_hiddenEdit hd (.single hp), decide_eq_false_iff_not, decideHidden,
    if_pos (by simp [hdoc])]
  simp

end Builtin

/-- A pipeline that does nothing but remove hidden elements makes of every text that is a document
the document without the trees at the elements that it takes for hidden, each judged as it stands in
the document. All that is left stays as it was, and in the same order. If a node that is gone was
rendered, every such element from it upwards has been misjudged: its style takes back what its
attribute or an earlier declaration says, or a visibility is set again on the way to the node. -/
theorem Pipeline.apply_removeHiddenElements (descriptors : List Descriptor) (p : Pipeline)
    (s : String) (d : Document)
    (hplugins : (descriptors.filter (·.enabled)).map (·.plugin) = [Builtin.removeHiddenElements])
    (hp : Pipeline.ofDescriptors descriptors = .ok p) (hs : Markup.parse s = .ok d) :
    ∃ d', (p.apply d).outcome = .ok d' ∧
      (∀ x ∈ d.descendants .root, x ∉ d'.descendants .root ↔
        ∃ z, d.isAncestorOrSelf z x = true ∧ Builtin.decideHidden d z = .remove) ∧
      (∀ x ∈ d.descendants .root, x ∉ d'.descendants .root → d.isRendered x = true →
        ∀ z, d.isAncestorOrSelf z x = true → Builtin.decideHidden d z = .remove →
          d.Misjudged z x) ∧
      (d'.descendants .root).Sublist (d.descendants .root) ∧
      (∀ x ∈ .root :: d'.descendants .root, d'.kindOf x = d.kindOf x ∧
        d'.children x = (d.children x).filter fun c => c ∈ d'.descendants .root) ∧
      d'.declaration = d.declaration ∧ d'.doctype = d.doctype := by
  obtain ⟨stage, hstage, hshrinks, happly⟩ := Pipeline.exists_stage_of_alone hplugins hp
    (by simp [Builtin.presetPlugins, Builtin.plugins]) (by decide)
  have hd := Markup.sound_of_parse hs
  obtain ⟨d', ho, hculled⟩ := walk_culls hstage.follows_hiddenEdit Builtin.decides_hiddenEdit
    hshrinks hd (Builtin.drops_hiddenEdit_root hd) fun x hx =>
      Builtin.drops_of_mem_childElements hd hx
  have hgone : ∀ x ∈ d.descendants .root, x ∉ d'.descendants .root ↔
      ∃ z, d.isAncestorOrSelf z x = true ∧ Builtin.decideHidden d z = .remove := by
    intro x hx
    rw [hculled.mem_iff, and_iff_right hx, Builtin.spares_hiddenEdit_iff hd hx]
    simp only [not_forall, ne_eq, not_not, exists_prop]
  refine ⟨d', (happly d).trans ho, hgone, fun x hx _ hrendered z hz hremove => ?_, hculled.sublist,
    fun x hx => ⟨kindOf_congr (hculled.kind? x), hculled.children x hx⟩, hculled.declaration,
    hculled.doctype⟩
  obtain ⟨e, he, hhidden⟩ := Builtin.of_decideHidden hremove
  exact Builtin.misjudged_of_isHidden hd.linked he hhidden (hd.linked.isAncestorOrSelf_iff.1 hz)
    hrendered

/-- A group that is switched off goes with what is in it, a hidden one stays. -/
theorem Pipeline.apply_removeHiddenElements_of_groups : ∃ (p : Pipeline) (d : Document),
    Pipeline.ofDescriptors [.ofPlugin Builtin.removeHiddenElements] = .ok p ∧
    Markup.parse "<svg><g opacity='0'><path/></g><g visibility='hidden'><path/></g></svg>" = .ok d ∧
    ∃ d', (p.apply d).outcome = .ok d' ∧
      Markup.write {} d' = .ok "<svg><g visibility=\"hidden\"><path/></g></svg>" ∧
      (∀ x ∈ d.descendants .root, x ∉ d'.descendants .root ↔
        ∃ z, d.isAncestorOrSelf z x = true ∧ Builtin.decideHidden d z = .remove) ∧
      (∀ x ∈ d.descendants .root, x ∉ d'.descendants .root → d.isRendered x = true →
        ∀ z, d.isAncestorOrSelf z x = true → Builtin.decideHidden d z = .remove →
          d.Misjudged z x) ∧
      (d'.descendants .root).Sublist (d.descendants .root) ∧
      (∀ x ∈ .root :: d'.descendants .root, d'.kindOf x = d.kindOf x ∧
        d'.children x = (d.children x).filter fun c => c ∈ d'.descendants .root) ∧
      d'.declaration = d.declaration ∧ d'.doctype = d.doctype := by
  obtain ⟨p, d, d₁, hp, hs, ho₁, hw⟩ : ∃ (p : Pipeline) (d d' : Document),
      Pipeline.ofDescriptors [.ofPlugin Builtin.removeHiddenElements] = .ok p ∧
      Markup.parse "<svg><g opacity='0'><path/></g><g visibility='hidden'><path/></g></svg>" =
        .ok d ∧
      (p.apply d).outcome = .ok d' ∧
      Markup.write {} d' = .ok "<svg><g visibility=\"hidden\"><path/></g></svg>" :=
    ⟨_, _, _, rfl, rfl, rfl, rfl⟩
  obtain ⟨d', ho, h⟩ := Pipeline.apply_removeHiddenElements _ p _ d rfl hp hs
  obtain rfl := Except.ok.inj (ho₁.symm.trans ho)
  exact ⟨p, d, hp, hs, _, ho, hw, h⟩

/-- A style takes back what the attribute beside it says, and an element is visible in a hidden one;
all of them are rendered, and all of them go. -/
theorem Pipeline.apply_removeHiddenElements_drops_rendered : ∃ (p : Pipeline) (d d' : Document),
    Pipeline.ofDescriptors [.ofPlugin Builtin.removeHiddenElements] = .ok p ∧
    Markup.parse ("<svg><a display='none' style='display:inline'/>" ++
      "<a visibility='hidden'><a visibility='visible'/></a></svg>") = .ok d ∧
    (p.apply d).outcome = .ok d' ∧ d'.descendants .root = [⟨1⟩] ∧
    ∀ x ∈ [⟨2⟩, ⟨4⟩], x ∈ d.descendants .root ∧ d.isRendered x = true := by
  refine ⟨_, _, _, rfl, rfl, rfl, rfl, ?_⟩
  decide +kernel

end SvgPress
