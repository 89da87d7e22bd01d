import SvgPress.Proofs.Tree.Reachable
import SvgPress.Proofs.Tree.Trimming

/-!
# Moving and unwrapping nodes

An insertion is refused exactly where the tree would be no tree of a document any more, and
otherwise moves one node, with all that stands below it, to the place that was asked for. Unwrapping
an element puts its children in its place, so the document order above it loses this one node.
-/

namespace SvgPress.Document

open Relation

variable {d d' : Document} {id parent child : NodeId} {index : Nat}

/-! ## Payloads under which nodes may stand -/

/-- In a document whose payloads fit their places, only the root and elements may have children. -/
theorem Shaped.isContainer_iff (h : d.Shaped) :
    d.isContainer id = true ↔ id = .root ∨ d.isElement id = true := by
  rw [← h.root_iff, isContainer, isElement, element?]
  cases d.kind? id with
  | none => simp
  | some kind => cases kind <;> simp [NodeKind.isContainer, NodeKind.element?]

/-! ## Moving nodes -/

/-- A node may be put under another one: it is not the root, the other one may have children and
does not stand below it, and the root does not get a second element. -/
structure MayMove (d : Document) (parent child : NodeId) : Prop where
  not_root : child ≠ .root
  container : parent = .root ∨ d.isElement parent = true
  not_above : ¬ ReflTransGen d.IsParent child parent
  single : parent = .root → d.isElement child = true → ∀ e ∈ d.childElements .root, e = child

/-- A node, with all that stands below it, has been moved to a place in a child list, counted
without the node itself, and nothing else has changed. -/
structure Moved (d d' : Document) (parent : NodeId) (index : Nat) (child : NodeId) : Prop where
  /-- The new parent has its old children without the node, and the node at its place. -/
  placed : d'.children parent = ((d.children parent).erase child).insertIdx index child
  /-- The node has left the list of any other parent. -/
  left : ∀ other, d.parent? child = some other → other ≠ parent →
    d'.children other = (d.children other).erase child
  children_eq : ∀ other, d.parent? child ≠ some other → other ≠ parent →
    d'.children other = d.children other
  parent_child : d'.parent? child = some parent
  parent?_eq : ∀ other, other ≠ child → d'.parent? other = d.parent? other
  /-- What stands below the node is untouched. -/
  below : ∀ other, ReflTransGen d.IsParent child other →
    d'.children other = d.children other ∧ d'.descendants other = d.descendants other
  kind?_eq : ∀ other, d'.kind? other = d.kind? other
  declaration : d'.declaration = d.declaration
  doctype : d'.doctype = d.doctype

theorem Linked.placesUnder_eq_length_erase (h : d.Linked) :
    d.placesUnder parent child = ((d.children parent).erase child).length := by
  rw [h.placesUnder_eq, h.children_detach, (h.nodup parent).erase_eq_filter]

/-- An insertion asks for nothing but that the node may be put there and that there is the place. -/
theorem Shaped.insertChild_eq_ok_iff (hl : d.Linked) (h : d.Shaped) :
    d.insertChild parent index child = .ok d' ↔
      d.MayMove parent child ∧ index ≤ ((d.children parent).erase child).length ∧
        d' = (d.detach child).attach parent index child := by
  rw [Document.insertChild_eq_ok_iff, h.isContainer_iff, ← Bool.not_eq_true,
    hl.isAncestorOrSelf_iff, addsDocumentElement_eq_false_iff, hl.placesUnder_eq_length_erase]
  constructor
  · rintro ⟨hroot, hcontainer, habove, hsingle, hindex, he⟩
    exact ⟨⟨hroot, hcontainer, habove, hsingle⟩, hindex, he⟩
  · rintro ⟨hmay, hindex, he⟩
    exact ⟨hmay.not_root, hmay.container, hmay.not_above, hmay.single, hindex, he⟩

/-- Putting a node in its place changes the links of the node and of its parents only. -/
theorem Linked.moved (h : d.Linked) (hc : d.Holds child) (hp : d.Holds parent)
    (hn : ¬ ReflTransGen d.IsParent child parent)
    (hl' : ((d.detach child).attach parent index child).Linked) :
    Moved d ((d.detach child).attach parent index child) parent index child := by
  have hheld : ∀ {x}, d.Holds x → (d.detach child).Holds x := by
    intro x hx
    rwa [Holds, size_detach]
  have herase : ∀ x, (d.detach child).children x = (d.children x).erase child := by
    intro x
    rw [h.children_detach, (h.nodup x).erase_eq_filter]
  have hkeep : ∀ x, d.parent? child ≠ some x → (d.detach child).children x = d.children x := by
    intro x hx
    rw [herase, List.erase_of_not_mem]
    rwa [← h.parent_iff]
  have hchildren : ∀ x, x ≠ parent →
      ((d.detach child).attach parent index child).children x = (d.detach child).children x := by
    intro x hx
    rw [children_attach (hheld hp), if_neg hx]
  -- Neither the old parent nor the new one stands below the node.
  have hbelow : ∀ x, ReflTransGen d.IsParent child x →
      ((d.detach child).attach parent index child).children x = d.children x := by
    intro x hx
    have hnew : x ≠ parent := by
      rintro rfl
      exact hn hx
    have hold : d.parent? child ≠ some x := fun hpx =>
      h.climb.transGen.irrefl.irrefl x (.head' hpx hx)
    rw [hchildren x hnew, hkeep x hold]
  refine ⟨?_, ?_, ?_, ?_, ?_, fun x hx => ⟨hbelow x hx, ?_⟩, fun x => ?_,
    (prolog_detach d child).1, (prolog_detach d child).2⟩
  · rw [children_attach (hheld hp), if_pos rfl, herase]
  · intro x _ hx
    rw [hchildren x hx, herase]
  · intro x hold hx
    rw [hchildren x hx, hkeep x hold]
  · rw [parent?_attach (hheld hc), if_pos rfl]
  · intro x hx
    rw [parent?_attach (hheld hc), if_neg hx, parent?_detach, if_neg hx]
  · exact h.descendants_congr hl' fun y hy => hbelow y (hx.trans hy)
  · rw [kind?_attach, kind?_detach]

theorem Shaped.moved_of_insertChild (hl : d.Linked) (h : d.Shaped) (hc : d.Holds child)
    (hi : d.insertChild parent index child = .ok d') : Moved d d' parent index child := by
  have hl' := hl.insertChild hc hi
  obtain ⟨hmay, -, rfl⟩ := (h.insertChild_eq_ok_iff hl).1 hi
  have hp : d.Holds parent := holds_of_isContainer (h.isContainer_iff.2 hmay.container)
  exact hl.moved hc hp hmay.not_above hl'

/-- In a document whose payloads have not been overwritten, an insertion is carried out exactly if
the node may be put there and there is the place, and then it moves the node and nothing else.
Appending is inserting after the last child, with the same conditions. -/
theorem Reachable.moves_child (h : Reachable false d) (hc : d.Holds child) :
    (∀ index, (∃ d', d.insertChild parent index child = .ok d') ↔
      d.MayMove parent child ∧ index ≤ ((d.children parent).erase child).length) ∧
    (∀ index d', d.insertChild parent index child = .ok d' → Moved d d' parent index child) ∧
    ((∃ d', d.appendChild parent child = .ok d') ↔ d.MayMove parent child) ∧
    (∀ d', d.appendChild parent child = .ok d' →
      Moved d d' parent ((d.children parent).erase child).length child ∧
      d'.children parent = (d.children parent).erase child ++ [child]) := by
  have hl := h.linked
  have hiff : ∀ index, (∃ d', d.insertChild parent index child = .ok d') ↔
      d.MayMove parent child ∧ index ≤ ((d.children parent).erase child).length := by
    intro index
    simp only [h.shaped.insertChild_eq_ok_iff hl, exists_and_left, exists_eq, and_true]
  have hlast : d.appendChild parent child =
      d.insertChild parent ((d.children parent).erase child).length child := by
    rw [Document.appendChild, hl.placesUnder_eq_length_erase]
  refine ⟨hiff, fun index d' hi => h.shaped.moved_of_insertChild hl hc hi, ?_, fun d' ha => ?_⟩
  · rw [hlast, hiff]
    exact and_iff_left (Nat.le_refl _)
  · rw [hlast] at ha
    have hmoved := h.shaped.moved_of_insertChild hl hc ha
    refine ⟨hmoved, ?_⟩
    rw [hmoved.placed, List.insertIdx_length_self]

/-- The first of three children moves to a place among its siblings, which is counted without it,
and to their end; there is no fourth place. -/
theorem Reachable.moves_first_of_three : ∃ d : Document, Reachable false d ∧
    d.children ⟨1⟩ = [⟨2⟩, ⟨3⟩, ⟨4⟩] ∧
    (∃ d', d.insertChild ⟨1⟩ 1 ⟨2⟩ = .ok d' ∧ d'.children ⟨1⟩ = [⟨3⟩, ⟨2⟩, ⟨4⟩]) ∧
    (∃ d', d.appendChild ⟨1⟩ ⟨2⟩ = .ok d' ∧ d'.children ⟨1⟩ = [⟨3⟩, ⟨4⟩, ⟨2⟩]) ∧
    ¬ ∃ d', d.insertChild ⟨1⟩ 3 ⟨2⟩ = .ok d' := by
  have h1 : Reachable false _ := .createElement .empty (Element.named "svg")
  have h2 := h1.createText "a"
  have h3 := @Reachable.appendChild false _ ⟨1⟩ ⟨2⟩ h2 (by decide) (by decide)
  have h4 := h3.createText "b"
  have h5 := @Reachable.appendChild false _ ⟨1⟩ ⟨3⟩ h4 (by decide) (by decide)
  have h6 := h5.createText "c"
  have h7 := @Reachable.appendChild false _ ⟨1⟩ ⟨4⟩ h6 (by decide) (by decide)
  obtain ⟨hinsert, hmoved, -, happend⟩ := @Reachable.moves_child _ ⟨1⟩ ⟨2⟩ h7 (by decide)
  refine ⟨_, h7, by decide, ⟨_, by rfl, ?_⟩, ⟨_, by rfl, ?_⟩, fun hthird => ?_⟩
  · exact (hmoved 1 _ (by rfl)).placed.trans (by decide)
  · exact (happend _ (by rfl)).2.trans (by decide)
  · exact absurd ((hinsert 3).1 hthird).2 (by decide)

/-! ## Unwrapping -/

/-- An element under a node has been replaced by its children, and nothing else has changed. -/
structure Unwrapped (d d' : Document) (parent id : NodeId) : Prop where
  /-- The children stand, in order, where the element stood. -/
  placed : ∃ before after, d.children parent = before ++ id :: after ∧
    d'.children parent = before ++ d.children id ++ after
  parent_children : ∀ child ∈ d.children id, d'.parent? child = some parent
  detached : d'.parent? id = none
  childless : d'.children id = []
  parent?_eq : ∀ other, other ≠ id → other ∉ d.children id → d'.parent? other = d.parent? other
  children_eq : ∀ other, other ≠ id → other ≠ parent → d'.children other = d.children other
  /-- For the nodes above it, the element alone goes from the document order. -/
  order : ∀ above, TransGen d.IsParent above id →
    id ∈ d.descendants above ∧ d'.descendants above = (d.descendants above).erase id
  kind?_eq : ∀ other, d'.kind? other = d.kind? other
  declaration : d'.declaration = d.declaration
  doctype : d'.doctype = d.doctype

theorem Linked.descendants_spliced (h : d.Linked) (hp : d.parent? id = some parent)
    (hl' : (d.spliced parent id).Linked) {above : NodeId} (ha : above ≠ id) :
    (d.spliced parent id).descendants above = (d.descendants above).erase id := by
  obtain ⟨f, ht, hs, hn, -, -⟩ := h.exists_forest_below above
  have hid := h.not_mem_own_children id
  have hs' : (d.spliced parent id).Shows (f.splice id) :=
    hs.splice hid fun x hx => h.children_unwrap hp hx
  have ht' : (f.splice id).tops = (d.spliced parent id).children above := by
    rw [hs.tops_splice hid, ht, h.children_unwrap hp ha]
  rw [hl'.descendants_eq ht' hs', h.descendants_eq ht hs, f.preorder_splice, hn.erase_eq_filter]

theorem Linked.unwrapped (h : d.Linked) (hp : d.parent? id = some parent)
    (hl' : (d.spliced parent id).Linked) : Unwrapped d (d.spliced parent id) parent id := by
  obtain ⟨before, after, hsplit, hi⟩ := h.exists_siblings hp
  have hne : id ≠ parent := h.ne_of_parent? hp
  have hid := h.not_mem_own_children id
  have hchildren := h.children_spliced hp hsplit hi
  have hparents := h.parent?_spliced parent id
  refine ⟨⟨before, after, hsplit, ?_⟩, fun child hc => ?_, ?_, ?_, fun x hx hc => ?_,
    fun x hx hxp => ?_, fun above ha => ⟨h.mem_descendants_iff.2 ha, ?_⟩,
    kind?_spliced d parent id, (prolog_spliced d parent id).1, (prolog_spliced d parent id).2⟩
  · rw [hchildren, if_pos rfl]
  · have hc' : child ≠ id := by
      rintro rfl
      exact hid hc
    rw [hparents, if_neg hc', if_pos hc]
  · rw [hparents, if_pos rfl]
  · rw [hchildren, if_neg hne, if_pos rfl]
  · rw [hparents, if_neg hx, if_neg hc]
  · rw [hchildren, if_neg hxp, if_neg hx]
  · refine h.descendants_spliced hp hl' ?_
    rintro rfl
    exact h.climb.transGen.irrefl.irrefl above ha

/-- The only element under the root makes way for the elements under it. -/
theorem Shaped.childElements_spliced (hl : d.Linked) (h : d.Shaped)
    (hp : d.parent? id = some .root) (he : d.isElement id = true) :
    (d.spliced .root id).childElements .root = d.childElements id := by
  obtain ⟨before, after, hsplit, hi⟩ := hl.exists_siblings hp
  have hone := h.one_element
  rw [childElements, hsplit, List.filter_append, List.filter_cons, if_pos he,
    List.length_append, List.length_cons] at hone
  have hbefore : before.filter d.isElement = [] := List.length_eq_zero_iff.1 (by omega)
  have hafter : after.filter d.isElement = [] := List.length_eq_zero_iff.1 (by omega)
  have hkind : (d.spliced .root id).isElement = d.isElement :=
    funext fun x => isElement_congr (kind?_spliced d .root id x)
  rw [childElements, hl.children_spliced hp hsplit hi, if_pos rfl, hkind, List.filter_append,
    List.filter_append, hbefore, hafter, List.nil_append, List.append_nil, childElements]

/-- In a document whose payloads have not been overwritten, exactly the elements that stand under a
node are unwrapped, except that a document element must leave one element behind. -/
theorem Reachable.unwraps_element (h : Reachable false d) (id : NodeId) :
    ((∃ d', d.unwrap id = .ok d') ↔ ∃ parent, d.parent? id = some parent ∧
      d.isElement id = true ∧ (parent = .root → ∃ only, d.childElements id = [only])) ∧
    ∀ d', d.unwrap id = .ok d' → ∃ parent, d.parent? id = some parent ∧
      Unwrapped d d' parent id ∧
      (parent = .root → ∃ only, d.childElements id = [only] ∧ d'.childElements .root = [only]) := by
  have hl := h.linked
  simp only [← List.length_eq_one_iff]
  constructor
  · constructor
    · rintro ⟨d', hu⟩
      obtain ⟨parent, hp, he, hone, -⟩ := unwrap_eq_ok_iff.1 hu
      exact ⟨parent, hp, he, hone⟩
    · rintro ⟨parent, hp, he, hone⟩
      exact ⟨d.spliced parent id, unwrap_eq_ok_iff.2 ⟨parent, hp, he, hone, rfl⟩⟩
  · intro d' hu
    have hl' := hl.unwrap hu
    obtain ⟨parent, hp, he, hone, rfl⟩ := unwrap_eq_ok_iff.1 hu
    refine ⟨parent, hp, hl.unwrapped hp hl', ?_⟩
    rintro rfl
    obtain ⟨only, honly⟩ := List.length_eq_one_iff.1 (hone rfl)
    exact ⟨only, honly, (h.shaped.childElements_spliced hl hp he).trans honly⟩

/-- A document element makes way for a text and the one group below it, and this group for the text
below it; a text has nothing to make way for. -/
theorem Reachable.unwraps_document_element : ∃ d : Document, Reachable false d ∧
    d.children .root = [⟨1⟩] ∧ d.descendants .root = [⟨1⟩, ⟨2⟩, ⟨3⟩, ⟨4⟩] ∧
    (∃ d', d.unwrap ⟨1⟩ = .ok d' ∧ d'.descendants .root = [⟨2⟩, ⟨3⟩, ⟨4⟩] ∧
      d'.children ⟨1⟩ = []) ∧
    (∃ d', d.unwrap ⟨3⟩ = .ok d' ∧ d'.parent? ⟨4⟩ = some ⟨1⟩) ∧
    ¬ ∃ d', d.unwrap ⟨2⟩ = .ok d' := by
  have h1 : Reachable false _ := .createElement .empty (Element.named "svg")
  have h2 := @Reachable.appendChild false _ .root ⟨1⟩ h1 (by decide) (by decide)
  have h3 := h2.createText "a"
  have h4 := @Reachable.appendChild false _ ⟨1⟩ ⟨2⟩ h3 (by decide) (by decide)
  have h5 := h4.createElement (Element.named "g")
  have h6 := @Reachable.appendChild false _ ⟨1⟩ ⟨3⟩ h5 (by decide) (by decide)
  have h7 := h6.createText "b"
  have h8 := @Reachable.appendChild false _ ⟨3⟩ ⟨4⟩ h7 (by decide) (by decide)
  refine ⟨_, h8, by decide, by decide, ⟨_, by rfl, ?_, ?_⟩, ⟨_, by rfl, ?_⟩, fun htext => ?_⟩
  · obtain ⟨parent, -, hunwrapped, -⟩ := (Reachable.unwraps_element h8 ⟨1⟩).2 _ (by rfl)
    refine (hunwrapped.order .root (.single ?_)).2.trans (by decide)
    rw [IsParent]
    decide
  · obtain ⟨parent, -, hunwrapped, -⟩ := (Reachable.unwraps_element h8 ⟨1⟩).2 _ (by rfl)
    exact hunwrapped.childless
  · obtain ⟨parent, hp, hunwrapped, -⟩ := (Reachable.unwraps_element h8 ⟨3⟩).2 _ (by rfl)
    obtain rfl : (⟨1⟩ : NodeId) = parent := Option.some.inj (Eq.trans (by decide) hp)
    exact hunwrapped.parent_children ⟨4⟩ (by decide)
  · obtain ⟨parent, -, helement, -⟩ := (Reachable.unwraps_element h8 ⟨2⟩).1.1 htext
    exact absurd helement (by decide)

end SvgPress.Document
