import SvgPress.Proofs.Markup.Outline
import SvgPress.Proofs.Tree.Reachable

/-!
# Which nodes are written

A node is shown if all nodes above it, the root apart, are elements. The writer writes the shown
nodes, each once and in document order, and it refuses a root among them. Where only the root and
elements have children every node is shown. Where payloads have been overwritten, what stands below
a comment or a text is not: it is left out without a refusal.
-/

namespace SvgPress.Markup

open Document Relation

variable {d : Document} {id parent child : NodeId} {f : Forest NodeId}

/-- Whether all nodes above a node, the root apart, are elements. -/
def isShown (d : Document) (id : NodeId) : Bool :=
  (d.ancestors id).all fun above => above == .root || d.isElement above

theorem isShown_of_parent? (hl : d.Linked) (hp : d.parent? child = some parent) :
    isShown d child = ((parent == .root || d.isElement parent) && isShown d parent) := by
  rw [isShown, hl.ancestors_of_parent? hp, List.all_cons]
  rfl

theorem isShown_root (hl : d.Linked) : isShown d .root = true := by
  have hnone : d.ancestors .root = [] := by
    rw [List.eq_nil_iff_forall_not_mem]
    intro above hm
    rw [hl.mem_ancestors_iff] at hm
    exact hl.not_above_root above hm
  rw [isShown, hnone]
  rfl

/-- Of trees side by side the outline has the shown nodes, or none is shown. -/
theorem met_eq_filter (hl : d.Linked) (hs : d.Shows f)
    (hp : ∀ top ∈ f.tops, d.parent? top = some parent) :
    (((parent == .root || d.isElement parent) && isShown d parent) = true →
      met d f = f.preorder.filter (isShown d)) ∧
    (((parent == .root || d.isElement parent) && isShown d parent) = false →
      f.preorder.filter (isShown d) = []) := by
  induction f generalizing parent with
  | nil => exact ⟨fun _ => rfl, fun _ => rfl⟩
  | cons id below rest ihb ihr =>
    obtain ⟨h1, h2, h3⟩ := hs
    simp only [Forest.tops, List.mem_cons] at hp
    have hid : d.parent? id = some parent := hp id (.inl rfl)
    have hshown := isShown_of_parent? hl hid
    have hne : (id == NodeId.root) = false := beq_eq_false_iff_ne.2 (hl.ne_root_of_parent? hid)
    have hbelow := ihb h2 fun top hm => (hl.parent_iff top id).2 (h1 ▸ hm)
    have hrest := ihr h3 fun top hm => hp top (.inr hm)
    rw [hne, Bool.false_or] at hbelow
    rw [← hshown] at hrest ⊢
    rw [Forest.preorder, met]
    constructor
    · intro htrue
      rw [List.filter_cons_of_pos htrue, List.filter_append, ← hrest.1 htrue]
      by_cases he : d.isElement id = true
      · rw [if_pos he, hbelow.1 (by rw [he, htrue]; rfl)]
      · rw [if_neg he, hbelow.2 (by rw [Bool.not_eq_true] at he; rw [he]; rfl)]
    · intro hfalse
      rw [List.filter_cons_of_neg (by rw [hfalse]; exact Bool.false_ne_true), List.filter_append,
        hrest.2 hfalse, hbelow.2 (by rw [hfalse, Bool.and_false]), List.append_nil]

/-- The outline of a document has its shown nodes in document order. -/
theorem met_eq_shown (hl : d.Linked) (hs : d.Shows (.cons .root f .nil)) :
    met d f = (d.descendants .root).filter (isShown d) := by
  obtain ⟨hchildren, hshows, -⟩ := hs
  have hp : ∀ top ∈ f.tops, d.parent? top = some .root :=
    fun top hm => (hl.parent_iff top .root).2 (hchildren ▸ hm)
  rw [hl.descendants_eq hchildren.symm hshows]
  refine (met_eq_filter hl hshows hp).1 ?_
  rw [isShown_root hl]
  rfl

/-! ## Refusals -/

/-- What keeps a document from being written. -/
def IsRefused (d : Document) : Prop :=
  d.childElements .root = [] ∨
  (∃ child ∈ d.children .root, (d.kind? child).any (·.isCharacterData) = true) ∨
  ∃ id ∈ d.descendants .root, isShown d id = true ∧ d.kind? id = some .root

theorem meetsRoot_iff (hl : d.Linked) (hs : d.Shows (.cons .root f .nil)) :
    meetsRoot d f = true ↔
      ∃ id ∈ d.descendants .root, isShown d id = true ∧ d.kind? id = some .root := by
  have hroot : ∀ id ∈ d.descendants .root, d.kindOf id = .root ↔ d.kind? id = some .root := by
    intro id hm
    have hheld : d.Holds id := by
      obtain ⟨g, ht, hg, -, hh, -⟩ := hl.exists_forest_below .root
      rw [hl.descendants_eq ht hg] at hm
      exact hh id hm
    rw [kind?_eq_some_kindOf hheld, Option.some.injEq]
  rw [meetsRoot, met_eq_shown hl hs, List.any_eq_true]
  constructor
  · rintro ⟨id, hm, hk⟩
    obtain ⟨hm, hshown⟩ := List.mem_filter.1 hm
    exact ⟨id, hm, hshown, (hroot id hm).1 (beq_iff_eq.1 hk)⟩
  · rintro ⟨id, hm, hshown, hk⟩
    exact ⟨id, List.mem_filter.2 ⟨hm, hshown⟩, beq_iff_eq.2 ((hroot id hm).2 hk)⟩

/-- A document is written as its outline unless something keeps it from being written. -/
theorem write_cases (hl : d.Linked) (hs : d.Shows (.cons .root f .nil)) (style : Style) :
    (IsRefused d → ∃ cause, write style d = .error cause) ∧
      (¬ IsRefused d → write style d = .ok (style.documentText d f)) := by
  have hnone : refusal? d f = none ↔
      (¬ ∃ child ∈ d.children .root, (d.kind? child).any (·.isCharacterData) = true) ∧
      ¬ ∃ id ∈ d.descendants .root, isShown d id = true ∧ d.kind? id = some .root := by
    rw [refusal?_eq_none_iff, ← meetsRoot_iff hl hs, Bool.not_eq_true, ← hs.1]
    refine and_congr_left fun _ => ?_
    simp only [any_kind?, not_exists, not_and, Bool.not_eq_true]
  rw [write_eq_outline hl hs]
  unfold IsRefused
  by_cases hempty : d.childElements .root = []
  · rw [if_pos hempty]
    exact ⟨fun _ => ⟨_, rfl⟩, fun h => absurd (.inl hempty) h⟩
  · rw [if_neg hempty]
    cases hr : refusal? d f with
    | none =>
      obtain ⟨hcharacters, hroots⟩ := hnone.1 hr
      exact ⟨fun h => absurd h (by simp only [hempty, hcharacters, hroots, or_self,
        not_false_eq_true]), fun _ => rfl⟩
    | some cause =>
      refine ⟨fun _ => ⟨cause, rfl⟩, fun h => ?_⟩
      rw [not_or, not_or] at h
      have hnone' := hnone.2 h.2
      rw [hr] at hnone'
      exact absurd hnone' (Option.some_ne_none cause)

theorem refused_iff (hl : d.Linked) (style : Style) :
    (∃ cause, write style d = .error cause) ↔ IsRefused d := by
  obtain ⟨f, ht, hshows, -, -, -⟩ := hl.exists_forest_below .root
  obtain ⟨hrefused, hwritten⟩ := write_cases hl (f := f) ⟨ht.symm, hshows, trivial⟩ style
  refine ⟨fun ⟨cause, h⟩ => ?_, hrefused⟩
  by_contra hn
  rw [hwritten hn] at h
  exact absurd h (by simp)

/-- What is written is the outline, and nothing kept it from being written. -/
theorem of_write_eq_ok (hl : d.Linked) (hs : d.Shows (.cons .root f .nil)) {style : Style}
    {text : String} (h : write style d = .ok text) :
    ¬ IsRefused d ∧ text = style.documentText d f := by
  obtain ⟨hrefused, hwritten⟩ := write_cases hl hs style
  have hn : ¬ IsRefused d := by
    intro hr
    obtain ⟨cause, he⟩ := hrefused hr
    rw [h] at he
    exact absurd he (by simp)
  rw [hwritten hn] at h
  exact ⟨hn, (Except.ok.inj h).symm⟩

/-! ## Documents whose payloads fit their places -/

/-- Where only the root and elements have children, every node is shown or stands under a root that
is. -/
theorem isShown_or (hl : d.Linked)
    (hc : ∀ parent child, child ∈ d.children parent → parent = .root ∨ d.isContainer parent = true)
    (hid : id ∈ d.descendants .root) :
    isShown d id = true ∨
      ∃ above ∈ d.descendants .root, isShown d above = true ∧ d.kind? above = some .root := by
  rw [hl.mem_descendants_iff] at hid
  induction hid with
  | single hp =>
    left
    rw [isShown_of_parent? hl hp, isShown_root hl]
    rfl
  | @tail above id ht hp ih =>
    have hdescendant : above ∈ d.descendants .root := hl.mem_descendants_iff.2 ht
    rcases ih with hshown | hroot
    · rw [isShown_of_parent? hl hp, hshown, Bool.and_true, Bool.or_eq_true, beq_iff_eq]
      rcases hc above id ((hl.parent_iff id above).1 hp) with hself | hcontainer
      · exact .inl (.inl hself)
      · -- A container that is no element is a root.
        cases hk : d.kind? above with
        | none => simp [isContainer, hk] at hcontainer
        | some kind =>
          cases kind with
          | root => exact .inr ⟨above, hdescendant, hshown, hk⟩
          | element e => exact .inl (.inr (by rw [isElement, element?, hk]; rfl))
          | _ => simp [isContainer, hk, NodeKind.isContainer] at hcontainer
    · exact .inr hroot

/-- Where only the root and elements have children, a document is refused exactly if there is no
element under the root, character data stands under it, or a root stands below it. Otherwise its
text is the recursive one: every attached node is written once, in document order, and all tags
nest. -/
theorem write_follows_tree (hl : d.Linked)
    (hc : ∀ parent child, child ∈ d.children parent → parent = .root ∨ d.isContainer parent = true)
    (style : Style) :
    ((∃ cause, write style d = .error cause) ↔
      d.childElements .root = [] ∨
      (∃ child ∈ d.children .root, (d.kind? child).any (·.isCharacterData) = true) ∨
      ∃ id ∈ d.descendants .root, d.kind? id = some .root) ∧
    ∃ f, d.Shows (.cons .root f .nil) ∧ Nested style d (style.topOutline d f) ∧
      ∀ text, write style d = .ok text →
        text = style.documentText d f ∧
        begun (style.topOutline d f) = d.descendants .root ∧ (d.descendants .root).Nodup := by
  obtain ⟨f, ht, hshows, -, -, -⟩ := hl.exists_forest_below .root
  have hs : d.Shows (.cons .root f .nil) := ⟨ht.symm, hshows, trivial⟩
  have hroots : (∃ id ∈ d.descendants .root, d.kind? id = some .root) ↔
      ∃ id ∈ d.descendants .root, isShown d id = true ∧ d.kind? id = some .root := by
    constructor
    · rintro ⟨id, hid, hk⟩
      rcases isShown_or hl hc hid with hshown | habove
      · exact ⟨id, hid, hshown, hk⟩
      · exact habove
    · rintro ⟨id, hid, -, hk⟩
      exact ⟨id, hid, hk⟩
  refine ⟨by rw [refused_iff hl, IsRefused, hroots], f, hs, nested_topOutline style d f,
    fun text h => ?_⟩
  obtain ⟨hn, htext⟩ := of_write_eq_ok hl hs h
  have hall : (d.descendants .root).filter (isShown d) = d.descendants .root := by
    rw [List.filter_eq_self]
    intro id hid
    rcases isShown_or hl hc hid with hshown | habove
    · exact hshown
    · exact absurd (.inr (.inr habove)) hn
  exact ⟨htext, by rw [begun_topOutline, met_eq_shown hl hs, hall], hl.nodup_descendants .root⟩

/-- A group with a shape in it and a text beside it, on lines of their own as far as there is no
text. -/
theorem write_follows_tree_of_group : ∃ d, parse "<svg><g><rect/></g><text>a</text></svg>" = .ok d ∧
    d.Linked ∧
    (∀ parent child, child ∈ d.children parent → parent = .root ∨ d.isContainer parent = true) ∧
    write { pretty := true, indent := 2 } d =
      .ok "<svg>\n  <g>\n    <rect/>\n  </g>\n  <text>a</text>\n</svg>" ∧
    ∃ f, d.Shows (.cons .root f .nil) ∧
      Nested { pretty := true, indent := 2 } d
        (Style.topOutline { pretty := true, indent := 2 } d f) ∧
      begun (Style.topOutline { pretty := true, indent := 2 } d f) =
        [⟨1⟩, ⟨2⟩, ⟨3⟩, ⟨4⟩, ⟨5⟩] := by
  have hboth : ((parse "<svg><g><rect/></g><text>a</text></svg>").toOption.bind fun d =>
      (write { pretty := true, indent := 2 } d).toOption) =
        some "<svg>\n  <g>\n    <rect/>\n  </g>\n  <text>a</text>\n</svg>" := by
    decide +kernel
  obtain ⟨d, hparse, hwrite⟩ := Option.bind_eq_some_iff.1 hboth
  have hd := Outcome.eq_ok_of_toOption hparse
  have hw := Outcome.eq_ok_of_toOption hwrite
  have hnodes : d.descendants .root = [⟨1⟩, ⟨2⟩, ⟨3⟩, ⟨4⟩, ⟨5⟩] :=
    Outcome.of_all_toOption (p := fun d : Document =>
      d.descendants .root = [⟨1⟩, ⟨2⟩, ⟨3⟩, ⟨4⟩, ⟨5⟩]) (by decide +kernel) hd
  have hs := sound_of_parse hd
  have hc : ∀ parent child, child ∈ d.children parent →
      parent = .root ∨ d.isContainer parent = true :=
    fun parent child hm => .inr (hs.shaped.container parent child hm)
  obtain ⟨-, f, hshows, hnested, htext⟩ :=
    write_follows_tree hs.linked hc { pretty := true, indent := 2 }
  exact ⟨d, hd, hs.linked, hc, hw, f, hshows, hnested, (htext _ hw).2.1.trans hnodes⟩

/-! ## Documents whose payloads have been overwritten -/

theorem filter_isShown_eq_self_iff (hl : d.Linked) :
    (d.descendants .root).filter (isShown d) = d.descendants .root ↔
      ∀ id ∈ d.descendants .root, d.children id ≠ [] → d.isElement id = true := by
  rw [List.filter_eq_self]
  constructor
  · intro hall id hid hchildren
    obtain ⟨child, hchild⟩ := List.exists_mem_of_ne_nil _ hchildren
    have hp := (hl.parent_iff child id).2 hchild
    have ht := hl.mem_descendants_iff.1 hid
    have hshown := hall child (hl.mem_descendants_iff.2 (ht.tail hp))
    have hne : id ≠ .root := by
      rintro rfl
      exact hl.not_above_root _ ht
    rw [isShown_of_parent? hl hp, Bool.and_eq_true, Bool.or_eq_true, beq_iff_eq] at hshown
    exact hshown.1.resolve_left hne
  · intro helements id hid
    rw [hl.mem_descendants_iff] at hid
    induction hid with
    | single hp =>
      rw [isShown_of_parent? hl hp, isShown_root hl]
      rfl
    | @tail above id ht hp ih =>
      have hchildren : d.children above ≠ [] :=
        List.ne_nil_of_mem ((hl.parent_iff id above).1 hp)
      have helement := helements above (hl.mem_descendants_iff.2 ht) hchildren
      rw [isShown_of_parent? hl hp, ih, helement, Bool.or_true, Bool.and_self]

/-- A document is refused exactly if there is no element under the root, character data stands under
it, or a root is among the shown nodes. Otherwise exactly the shown nodes are written, each once and
in document order; these are all attached nodes exactly if none of them has children without being
an element. -/
theorem write_shows {rewrites : Bool} (h : Reachable rewrites d) (style : Style) :
    ((∃ cause, write style d = .error cause) ↔ IsRefused d) ∧
    ∃ f, d.Shows (.cons .root f .nil) ∧ Nested style d (style.topOutline d f) ∧
      ∀ text, write style d = .ok text →
        text = style.documentText d f ∧
        begun (style.topOutline d f) = (d.descendants .root).filter (isShown d) ∧
        (d.descendants .root).Nodup ∧
        (begun (style.topOutline d f) = d.descendants .root ↔
          ∀ id ∈ d.descendants .root, d.children id ≠ [] → d.isElement id = true) := by
  have hl := h.linked
  obtain ⟨f, ht, hshows, -, -, -⟩ := hl.exists_forest_below .root
  have hs : d.Shows (.cons .root f .nil) := ⟨ht.symm, hshows, trivial⟩
  refine ⟨refused_iff hl style, f, hs, nested_topOutline style d f, fun text hw => ?_⟩
  have hbegun : begun (style.topOutline d f) = (d.descendants .root).filter (isShown d) := by
    rw [begun_topOutline, met_eq_shown hl hs]
  refine ⟨(of_write_eq_ok hl hs hw).2, hbegun, hl.nodup_descendants .root, ?_⟩
  rw [hbegun, filter_isShown_eq_self_iff hl]

/-- A root that stands below a comment is neither refused nor written. -/
theorem write_shows_of_comment : ∃ d, Reachable true d ∧ d.descendants .root = [⟨1⟩, ⟨2⟩, ⟨3⟩] ∧
    d.kind? ⟨3⟩ = some .root ∧ write {} d = .ok "<svg><!--a--></svg>" ∧ ¬ IsRefused d ∧
    ∃ f, d.Shows (.cons .root f .nil) ∧ begun (Style.topOutline {} d f) = [⟨1⟩, ⟨2⟩] := by
  have h1 : Reachable true _ := .createElement .empty (Element.named "svg")
  have h2 := @Reachable.appendChild true _ .root ⟨1⟩ h1 (by decide) (by decide)
  have h3 := h2.createElement (Element.named "g")
  have h4 := @Reachable.appendChild true _ ⟨1⟩ ⟨2⟩ h3 (by decide) (by decide)
  have h5 := h4.createElement (Element.named "rect")
  have h6 := @Reachable.appendChild true _ ⟨2⟩ ⟨3⟩ h5 (by decide) (by decide)
  have h7 := @Reachable.setKind true _ ⟨2⟩ rfl h6 (by decide) (.comment "a")
  have h8 := @Reachable.setKind true _ ⟨3⟩ rfl h7 (by decide) .root
  obtain ⟨hrefused, f, hs, -, hwritten⟩ := write_shows h8 {}
  refine ⟨_, h8, by decide, by decide, Outcome.eq_ok_of_toOption (by decide +kernel), fun hr => ?_,
    f, hs, ?_⟩
  · obtain ⟨cause, he⟩ := hrefused.2 hr
    have hw := he.symm.trans
      (Outcome.eq_ok_of_toOption (a := "<svg><!--a--></svg>") (by decide +kernel))
    exact absurd hw (by simp)
  · have hbegun := (hwritten "<svg><!--a--></svg>"
      (Outcome.eq_ok_of_toOption (by decide +kernel))).2.1
    exact hbegun.trans (by decide)

/-- Nodes are lost without a refusal: an element below a node that has become a text is not written.
Nor is a second element under the root refused. -/
theorem write_drops_nodes :
    (∃ d, Reachable true d ∧ d.kind? ⟨2⟩ = some (.text "a") ∧ d.children ⟨2⟩ = [⟨3⟩] ∧
      d.isElement ⟨3⟩ = true ∧ d.isAttached ⟨3⟩ = true ∧ write {} d = .ok "<svg>a</svg>") ∧
    ∃ d, Reachable true d ∧ d.childElements .root = [⟨1⟩, ⟨2⟩] ∧ write {} d = .ok "<svg/><b/>" := by
  have h1 : Reachable true _ := .createElement .empty (Element.named "svg")
  have h2 := @Reachable.appendChild true _ .root ⟨1⟩ h1 (by decide) (by decide)
  have h3 := h2.createElement (Element.named "g")
  have h4 := @Reachable.appendChild true _ ⟨1⟩ ⟨2⟩ h3 (by decide) (by decide)
  have h5 := h4.createElement (Element.named "rect")
  have h6 := @Reachable.appendChild true _ ⟨2⟩ ⟨3⟩ h5 (by decide) (by decide)
  have h7 := @Reachable.setKind true _ ⟨2⟩ rfl h6 (by decide) (.text "a")
  have h3' := h2.createText "a"
  have h4' := @Reachable.appendChild true _ .root ⟨2⟩ h3' (by decide) (by decide)
  have h5' := @Reachable.setKind true _ ⟨2⟩ rfl h4' (by decide) (.element (Element.named "b"))
  refine ⟨⟨_, h7, by decide, by decide, by decide, by decide, ?_⟩, ⟨_, h5', by decide, ?_⟩⟩
  · exact Outcome.eq_ok_of_toOption (by decide +kernel)
  · exact Outcome.eq_ok_of_toOption (by decide +kernel)

end SvgPress.Markup
