import SvgPress.Proofs.Tree.Copies

/-!
# Payloads that fit their places

In a document as it is read, only the root and elements have children, there is one root node, and
at most one element stands under it. The edits keep that: they refuse exactly the calls that would
break it.
-/

namespace SvgPress.Document

/-- The payloads of the nodes fit their places. -/
structure Shaped (d : Document) : Prop where
  /-- Only the root and elements have children. -/
  container : ∀ parent child, child ∈ d.children parent → d.isContainer parent = true
  /-- The root is the only root node. -/
  root_iff : ∀ id, d.kind? id = some .root ↔ id = .root
  /-- At most one element stands under the root. -/
  one_element : (d.childElements .root).length ≤ 1

variable {d d' : Document} {id parent child : NodeId}

/-! ## Payloads that stay -/

theorem element?_congr (h : d'.kind? id = d.kind? id) : d'.element? id = d.element? id := by
  rw [element?, element?, h]

theorem isElement_congr (h : d'.kind? id = d.kind? id) : d'.isElement id = d.isElement id := by
  rw [isElement, isElement, element?_congr h]

theorem isContainer_congr (h : d'.kind? id = d.kind? id) :
    d'.isContainer id = d.isContainer id := by
  rw [isContainer, isContainer, h]

/-- Where payloads and child lists stay, so does the shape. -/
theorem Shaped.congr (h : d.Shaped) (hk : ∀ id, d'.kind? id = d.kind? id)
    (hc : ∀ id, d'.children id = d.children id) : d'.Shaped where
  container parent child hm := by
    rw [hc] at hm
    rw [isContainer_congr (hk parent)]
    exact h.container parent child hm
  root_iff id := by rw [hk]; exact h.root_iff id
  one_element := by
    have he : d'.childElements .root = d.childElements .root := by
      rw [childElements, childElements, hc]
      exact List.filter_congr fun id _ => isElement_congr (hk id)
    rw [he]
    exact h.one_element

/-! ## Single nodes -/

/-- Putting another element into an element keeps what kind of node every node is. -/
theorem kind?_setElement (hid : d.isElement id = true) (e : Element) (x : NodeId) :
    ((d.setKind id (.element e)).isContainer x = d.isContainer x) ∧
    ((d.setKind id (.element e)).isElement x = d.isElement x) ∧
    ((d.setKind id (.element e)).kind? x = some .root ↔ d.kind? x = some .root) := by
  obtain ⟨old, hold⟩ : ∃ old, d.kind? id = some (.element old) := by
    rw [isElement, element?] at hid
    cases hk : d.kind? id with
    | none => simp [hk] at hid
    | some kind => cases kind <;> simp_all [NodeKind.element?]
  simp only [isContainer, isElement, element?, kind?_setKind]
  by_cases he : x = id
  · subst he
    simp [hold, NodeKind.isContainer, NodeKind.element?]
  · simp [he]

theorem Shaped.setElement (h : d.Shaped) (hid : d.isElement id = true) (e : Element) :
    (d.setKind id (.element e)).Shaped where
  container parent child hm := by
    rw [children_setKind] at hm
    rw [(kind?_setElement hid e parent).1]
    exact h.container parent child hm
  root_iff x := by rw [(kind?_setElement hid e x).2.2, h.root_iff]
  one_element := by
    rw [childElements, children_setKind,
      List.filter_congr fun x _ => (kind?_setElement hid e x).2.1]
    exact h.one_element

theorem Shaped.modifyElement (h : d.Shaped) (id : NodeId) (f : Element → Element) :
    (d.modifyElement id f).Shaped := by
  rw [Document.modifyElement]
  split
  · rename_i e he
    exact h.setElement (by rw [isElement, he]; rfl) (f e)
  · exact h

theorem Shaped.create (hl : d.Linked) (h : d.Shaped) {kind : NodeKind} (hk : kind ≠ .root) :
    (d.create kind).1.Shaped := by
  have hold : ∀ {x}, d.Holds x → (d.create kind).1.kind? x = d.kind? x :=
    fun hx => kind?_create_of_holds hx kind
  refine ⟨fun parent child hm => ?_, fun x => ?_, ?_⟩
  · rw [children_create] at hm
    rw [isContainer_congr (hold (holds_of_mem_children hm))]
    exact h.container parent child hm
  · rw [← h.root_iff]
    by_cases hx : x = (d.create kind).2
    · have hnone : d.kind? x = none := by
        rw [← Option.not_isSome_iff_eq_none, isSome_kind?_iff, hx]
        exact not_holds_create kind
      rw [hnone, Document.kind?, node?_create, if_pos hx]
      simpa using hk
    · rw [Document.kind?, node?_create, if_neg hx, Document.kind?]
  · have he : (d.create kind).1.childElements .root = d.childElements .root := by
      rw [childElements, childElements, children_create]
      exact List.filter_congr fun x hx => isElement_congr (hold (hl.child_held hx))
    rw [he]
    exact h.one_element

/-! ## Moving nodes -/

/-- Where only child lists change, the shape depends on what stands in them. -/
theorem Shaped.of_children (h : d.Shaped) (hk : ∀ id, d'.kind? id = d.kind? id)
    (hc : ∀ parent child, child ∈ d'.children parent → d.isContainer parent = true)
    (hr : ((d'.children .root).filter d.isElement).length ≤ 1) : d'.Shaped where
  container parent child hm := by
    rw [isContainer_congr (hk parent)]
    exact hc parent child hm
  root_iff id := by rw [hk]; exact h.root_iff id
  one_element := by
    rw [childElements, List.filter_congr fun id _ => isElement_congr (hk id)]
    exact hr

theorem Shaped.detach (hl : d.Linked) (h : d.Shaped) (id : NodeId) : (d.detach id).Shaped := by
  refine h.of_children (kind?_detach d id) (fun parent child hm => ?_) ?_
  · rw [hl.children_detach] at hm
    exact h.container parent child (List.mem_of_mem_filter hm)
  · rw [hl.children_detach, List.filter_comm]
    exact (List.length_filter_le _ _).trans h.one_element

/-- A child gives the root no second element if it is none, or if there is no other one. -/
theorem addsDocumentElement_eq_false_iff : d.addsDocumentElement parent child = false ↔
    (parent = .root → d.isElement child = true → ∀ e ∈ d.childElements .root, e = child) := by
  rw [addsDocumentElement, Bool.eq_false_iff]
  simp only [ne_eq, Bool.and_eq_true, beq_iff_eq, List.any_eq_true, bne_iff_ne, not_and, not_exists,
    not_not]
  constructor
  · rintro h rfl he
    exact h ⟨rfl, he⟩
  · rintro h ⟨rfl, he⟩
    exact h rfl he

theorem Shaped.insertChild (hl : d.Linked) (h : d.Shaped) {index : Nat}
    (hi : d.insertChild parent index child = .ok d') : d'.Shaped := by
  obtain ⟨-, hcontainer, -, hsecond, hindex, rfl⟩ := insertChild_eq_ok_iff.1 hi
  have hp : (d.detach child).Holds parent := by
    rw [Holds, size_detach]
    exact holds_of_isContainer hcontainer
  have hd := h.detach hl child
  refine h.of_children (fun id => by simp) (fun above below hm => ?_) ?_
  · rw [children_attach hp] at hm
    split at hm
    · rename_i he
      rwa [he]
    · rw [← isContainer_congr (kind?_detach d child above)]
      exact hd.container above below hm
  · rw [children_attach hp]
    have hle : (((d.detach child).children .root).filter d.isElement).length ≤ 1 := by
      have h1 := hd.one_element
      rwa [childElements, List.filter_congr fun id _ => isElement_congr (kind?_detach d child id)]
        at h1
    split
    · rename_i he
      subst he
      rw [hl.placesUnder_eq] at hindex
      rw [((List.perm_insertIdx child _ hindex).filter d.isElement).length_eq, List.filter_cons]
      split
      · -- The new child is an element, so no other one stands there.
        rename_i helement
        have hnone : ((d.detach child).children .root).filter d.isElement = [] := by
          rw [hl.children_detach, List.filter_filter, List.filter_eq_nil_iff]
          intro x hx hxe
          simp only [Bool.and_eq_true, bne_iff_ne] at hxe
          exact hxe.2 (addsDocumentElement_eq_false_iff.1 hsecond rfl helement x
            (List.mem_filter.2 ⟨hx, hxe.1⟩))
        simp [hnone]
      · exact hle
    · exact hle

/-! ## Unwrapping -/

theorem Shaped.unwrap (hl : d.Linked) (h : d.Shaped) (hu : d.unwrap id = .ok d') : d'.Shaped := by
  obtain ⟨parent, hp, helement, hone, rfl⟩ := unwrap_eq_ok_iff.1 hu
  obtain ⟨before, after, hsplit, hi⟩ := hl.exists_siblings hp
  refine h.of_children (kind?_spliced d parent id) (fun above below hm => ?_) ?_
  · rw [hl.children_spliced hp hsplit hi] at hm
    split_ifs at hm with h1 h2
    · rw [h1]
      exact h.container parent id ((hl.parent_iff id parent).1 hp)
    · simp at hm
    · exact h.container above below hm
  · have hroot : NodeId.root ≠ id := (hl.ne_root_of_parent? hp).symm
    rw [hl.children_spliced hp hsplit hi, if_neg hroot]
    split
    · -- The only element under the root makes way for the only element under it.
      rename_i he
      subst he
      have h1 := h.one_element
      have h2 := hone rfl
      rw [childElements, hsplit, List.filter_append, List.filter_cons, if_pos helement,
        List.length_append, List.length_cons] at h1
      rw [childElements] at h2
      rw [List.filter_append, List.filter_append, List.length_append, List.length_append]
      omega
    · exact h.one_element

/-! ## Copies -/

theorem Shaped.graft {source : Document} {top : NodeId} (hl : d.Linked) (h : d.Shaped)
    (hls : source.Linked) (hs : source.Shaped) (ht : source.Holds top) (hr : top ≠ .root) :
    (d.graft source top).1.Shaped := by
  have hcontainer : ∀ {x : NodeId}, x.index < d.nodes.size →
      (d.graft source top).1.isContainer x = d.isContainer x :=
    fun hx => isContainer_congr (hls.kind?_graft_of_lt ht hx)
  refine ⟨fun parent child hm => ?_, fun x => ?_, ?_⟩
  · rcases hls.handle_cases (d := d) top parent with hlt | ⟨p, hp, rfl⟩ | hge
    · rw [hls.children_graft_of_lt ht hlt] at hm
      rw [hcontainer hlt]
      exact h.container parent child hm
    · rw [hls.children_graft_copyOf ht hp] at hm
      obtain ⟨c, hc, -⟩ := List.mem_map.1 hm
      rw [isContainer, hls.kind?_graft_copyOf ht hp]
      exact hs.container p c hc
    · rw [children, hls.node?_graft_of_ge ht hge] at hm
      simp at hm
  · rcases hls.handle_cases (d := d) top x with hlt | ⟨p, hp, rfl⟩ | hge
    · rw [hls.kind?_graft_of_lt ht hlt]
      exact h.root_iff x
    · -- The root stands below no node, so it is no node of the subtree.
      have hne : p ≠ .root := by
        rintro rfl
        rcases Relation.reflTransGen_iff_eq_or_transGen.1 (hls.mem_subtree_iff.1 hp) with he | ht
        · exact hr he.symm
        · exact hls.not_above_root top ht
      have hnew : d.copyOf source top p ≠ .root := by
        intro he
        have hle : d.nodes.size ≤ (d.copyOf source top p).index := size_le_index_copyOf
        have hroot := hl.root_held
        rw [he] at hle
        exact absurd hroot (Nat.not_lt.2 hle)
      rw [hls.kind?_graft_copyOf ht hp, hs.root_iff]
      simp [hne, hnew]
    · have hne : x ≠ .root := by
        rintro rfl
        have hroot := hl.root_held
        simp only [Holds] at hroot
        omega
      rw [kind?, hls.node?_graft_of_ge ht hge]
      simp [hne]
  · rw [childElements, hls.children_graft_of_lt ht hl.root_held,
      List.filter_congr fun x hx => isElement_congr (hls.kind?_graft_of_lt ht (hl.child_held hx))]
    exact h.one_element

end SvgPress.Document
