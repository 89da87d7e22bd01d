import SvgPress.Proofs.Tree.Built
import SvgPress.Proofs.Tree.Keeping

/-!
# Stores that grow

Reading adds nodes to a store, after the children of one node, and changes nothing else in it. Such
additions compose: trees after each other, and trees below a node that is new itself.
-/

namespace SvgPress.Document

/-- In the second store new trees stand after the children of a node of the first one; all else is
as it was. -/
structure Grown (d d' : Document) (parent : NodeId) (f : Forest NodeId) : Prop where
  size_le : d.nodes.size ≤ d'.nodes.size
  declaration : d'.declaration = d.declaration
  doctype : d'.doctype = d.doctype
  children_parent : d'.children parent = d.children parent ++ f.tops
  children_other : ∀ id, d.Holds id → id ≠ parent → d'.children id = d.children id
  kind?_eq : ∀ id, d.Holds id → d'.kind? id = d.kind? id
  shows : d'.Shows f
  new : ∀ id ∈ f.preorder, d.nodes.size ≤ id.index
  held : ∀ id ∈ f.preorder, d'.Holds id

namespace Grown

variable {d d₁ d₂ : Document} {parent id : NodeId} {f g below : Forest NodeId}

theorem refl (d : Document) (parent : NodeId) : Grown d d parent .nil where
  size_le := Nat.le_refl _
  declaration := rfl
  doctype := rfl
  children_parent := (List.append_nil _).symm
  children_other _ _ _ := rfl
  kind?_eq _ _ := rfl
  shows := trivial
  new _ hm := absurd hm List.not_mem_nil
  held _ hm := absurd hm List.not_mem_nil

theorem holds (h : Grown d d₁ parent f) (hid : d.Holds id) : d₁.Holds id :=
  Nat.lt_of_lt_of_le hid h.size_le

theorem kindOf_eq (h : Grown d d₁ parent f) (hid : d.Holds id) : d₁.kindOf id = d.kindOf id := by
  rw [kindOf, kindOf, h.kind?_eq id hid]

theorem ne_parent (h : Grown d d₁ parent f) (hp : d.Holds parent) (hid : id ∈ f.preorder) :
    id ≠ parent := by
  rintro rfl
  have hnew := h.new id hid
  rw [Holds] at hp
  omega

/-- Trees that are put after each other. -/
theorem trans (h : Grown d d₁ parent f) (h' : Grown d₁ d₂ parent g) (hp : d.Holds parent) :
    Grown d d₂ parent (f ++ g) where
  size_le := Nat.le_trans h.size_le h'.size_le
  declaration := h'.declaration.trans h.declaration
  doctype := h'.doctype.trans h.doctype
  children_parent := by
    rw [h'.children_parent, h.children_parent, Forest.tops_append, List.append_assoc]
  children_other id hid hne := by
    rw [h'.children_other id (h.holds hid) hne, h.children_other id hid hne]
  kind?_eq id hid := by rw [h'.kind?_eq id (h.holds hid), h.kind?_eq id hid]
  shows := shows_append.2 ⟨h.shows.congr fun id hm =>
    h'.children_other id (h.held id hm) (h.ne_parent hp hm), h'.shows⟩
  new id hm := by
    rw [Forest.preorder_append, List.mem_append] at hm
    rcases hm with hm | hm
    · exact h.new id hm
    · exact Nat.le_trans h.size_le (h'.new id hm)
  held id hm := by
    rw [Forest.preorder_append, List.mem_append] at hm
    rcases hm with hm | hm
    · exact h'.holds (h.held id hm)
    · exact h'.held id hm

/-- Trees that are put below a node that is new itself. -/
theorem nest (h : Grown d d₁ parent (.cons id .nil .nil)) (h' : Grown d₁ d₂ id below)
    (hp : d.Holds parent) : Grown d d₂ parent (.cons id below .nil) := by
  have hid : id ∈ (Forest.cons id .nil .nil).preorder := List.mem_cons_self
  have hne : id ≠ parent := h.ne_parent hp hid
  have hnew : ∀ x, d.Holds x → x ≠ id := by
    rintro x hx rfl
    exact absurd (h.new x hid) (Nat.not_le_of_lt hx)
  refine ⟨Nat.le_trans h.size_le h'.size_le, h'.declaration.trans h.declaration,
    h'.doctype.trans h.doctype, ?_, fun x hx hxp => ?_, fun x hx => ?_, ⟨?_, h'.shows, trivial⟩,
    fun x hm => ?_, fun x hm => ?_⟩
  · rw [h'.children_other parent (h.holds hp) hne.symm, h.children_parent]
    rfl
  · rw [h'.children_other x (h.holds hx) (hnew x hx), h.children_other x hx hxp]
  · rw [h'.kind?_eq x (h.holds hx), h.kind?_eq x hx]
  · rw [h'.children_parent, h.shows.1]
    rfl
  · simp only [Forest.preorder, List.append_nil, List.mem_cons] at hm
    rcases hm with rfl | hm
    · exact h.new x hid
    · exact Nat.le_trans h.size_le (h'.new x hm)
  · simp only [Forest.preorder, List.append_nil, List.mem_cons] at hm
    rcases hm with rfl | hm
    · exact h'.holds (h.held x hid)
    · exact h'.held x hm

theorem map_kindOf_append (h : Grown d d₁ parent f) (h' : Grown d₁ d₂ parent g) :
    (f ++ g).map d₂.kindOf = f.map d₁.kindOf ++ g.map d₂.kindOf := by
  rw [Forest.map_append, Forest.map_congr fun id hm => h'.kindOf_eq (h.held id hm)]

/-- The elements among the children are those before and those among the new tops. -/
theorem length_childElements (h : Grown d d₁ parent f) (hl : d.Linked) :
    (d₁.childElements parent).length = (d.childElements parent).length +
      ((f.map d₁.kindOf).tops.filter fun kind => kind.element?.isSome).length := by
  have hold : (d.children parent).filter d₁.isElement = d.childElements parent :=
    List.filter_congr fun id hid => isElement_congr (h.kind?_eq id (hl.child_held hid))
  rw [childElements, h.children_parent, List.filter_append, hold, List.length_append,
    Forest.tops_map, List.filter_map, List.length_map]
  congr 2
  exact List.filter_congr fun id _ => isElement_eq_kindOf d₁ id

/-- Away from the root, nothing changes in how many elements stand under it. -/
theorem childElements_root (h : Grown d d₁ parent f) (hl : d.Linked) (hp : parent ≠ .root) :
    d₁.childElements .root = d.childElements .root := by
  rw [childElements, childElements, h.children_other .root hl.root_held hp.symm]
  exact List.filter_congr fun id hid => isElement_congr (h.kind?_eq id (hl.child_held hid))

end Grown

/-! ## New trees -/

variable {d d₁ d' : Document} {parent id : NodeId} {f : Forest NodeId}

theorem detach_of_parent?_eq_none (h : d.parent? id = none) : d.detach id = d := by
  rw [Document.detach, h]

/-- A new node without a parent is appended to every container, as long as the root gets no second
element. -/
theorem Kept.appendChild_iff (h : Kept d d₁) (hl : d.Linked) (hl₁ : d₁.Linked)
    (hc : d.isContainer parent = true) (hnew : ¬ d.Holds id) (hnone : d₁.parent? id = none) :
    d₁.appendChild parent id = .ok d' ↔
      (parent = .root → d₁.isElement id = true → d.childElements .root = []) ∧
        d' = d₁.attach parent (d.children parent).length id := by
  have hp : d.Holds parent := holds_of_isContainer hc
  have hne : id ≠ .root := fun he => hnew (he ▸ hl.root_held)
  have hcontainer : d₁.isContainer parent = true := by
    rw [isContainer_congr (h.kind?_eq hp)]
    exact hc
  have habove : d₁.isAncestorOrSelf id parent = false := by
    rw [← Bool.not_eq_true, hl₁.isAncestorOrSelf_iff]
    exact fun hr => hnew (h.holds_of_below hl hp hr)
  have hadds : d₁.addsDocumentElement parent id = false ↔
      (parent = .root → d₁.isElement id = true → d.childElements .root = []) := by
    rw [addsDocumentElement_eq_false_iff, h.childElements_eq hl hl.root_held]
    refine forall₂_congr fun _ _ => ?_
    rw [List.eq_nil_iff_forall_not_mem]
    refine forall₂_congr fun x hx => ⟨fun he => ?_, False.elim⟩
    exact absurd (hl.child_held (List.mem_of_mem_filter hx)) (he ▸ hnew)
  have hplaces : d₁.placesUnder parent id = (d.children parent).length := by
    rw [hl₁.placesUnder_eq, detach_of_parent?_eq_none hnone, h.children_eq hp]
  rw [Document.appendChild, insertChild_eq_ok_iff, hadds, hplaces, detach_of_parent?_eq_none hnone]
  exact ⟨fun ho => ⟨ho.2.2.2.1, ho.2.2.2.2.2⟩,
    fun ho => ⟨hne, hcontainer, habove, ho.1, Nat.le_refl _, ho.2⟩⟩

/-- A tree of new nodes that is put after the children of an old node has grown there. -/
theorem Kept.grown_attach (h : Kept d d₁) (hp : d.Holds parent) (ht : f.tops = [id])
    (hf : d₁.Shows f) (hn : ∀ x ∈ f.preorder, d.nodes.size ≤ x.index)
    (hh : ∀ x ∈ f.preorder, d₁.Holds x) :
    Grown d (d₁.attach parent (d.children parent).length id) parent f := by
  have hp' : d₁.Holds parent := h.holds hp
  have hne : ∀ x ∈ f.preorder, x ≠ parent := by
    rintro x hx rfl
    exact Nat.not_le_of_lt hp (hn x hx)
  refine ⟨?_, h.declaration, h.doctype, ?_, fun x hx hxp => ?_, fun x hx => ?_,
    hf.congr fun x hx => ?_, hn, fun x hx => ?_⟩
  · rw [size_attach]
    exact h.size_le
  · rw [children_attach hp', if_pos rfl, h.children_eq hp, List.insertIdx_length_self, ht]
  · rw [children_attach hp', if_neg hxp, h.children_eq hx]
  · rw [kind?_attach, h.kind?_eq hx]
  · rw [children_attach hp', if_neg (hne x hx)]
  · rw [Holds, size_attach]
    exact hh x hx

/-! ## A new node -/

theorem kept_create (d : Document) (kind : NodeKind) : Kept d (d.create kind).1 := by
  refine ⟨rfl, rfl, fun x hx => ?_⟩
  rw [node?_create, if_neg]
  rintro rfl
  exact not_holds_create kind hx

theorem isElement_create (d : Document) (kind : NodeKind) :
    (d.create kind).1.isElement (d.create kind).2 = kind.element?.isSome := by
  rw [isElement, element?, kind?_create_self]
  rfl

theorem parent?_create_self (d : Document) (kind : NodeKind) :
    (d.create kind).1.parent? (d.create kind).2 = none := by
  rw [parent?, node?_create, if_pos rfl]
  rfl

/-- A new node gives the root a second element only where there is one already. -/
theorem appendChild_create_iff (hl : d.Linked) (hc : d.isContainer parent = true)
    (kind : NodeKind) :
    (d.create kind).1.appendChild parent (d.create kind).2 = .ok d' ↔
      (parent = .root → kind.element?.isSome = true → d.childElements .root = []) ∧
        d' = (d.create kind).1.attach parent (d.children parent).length (d.create kind).2 := by
  rw [(kept_create d kind).appendChild_iff hl (hl.create kind) hc (not_holds_create kind)
    (parent?_create_self d kind), isElement_create]

/-- A node that is new can be put after the children of every container, as long as the root gets no
second element. -/
theorem Sound.appendChild_create (h : d.Sound) (hc : d.isContainer parent = true) (kind : NodeKind)
    (he : parent = .root → kind.element?.isSome = true → d.childElements .root = []) :
    ∃ d', (d.create kind).1.appendChild parent (d.create kind).2 = .ok d' ∧
      Grown d d' parent (.cons (d.create kind).2 .nil .nil) ∧
      d'.kind? (d.create kind).2 = some kind := by
  have hchildren : (d.create kind).1.children (d.create kind).2 = [] := by
    rw [children, node?_create, if_pos rfl]
    rfl
  refine ⟨_, (appendChild_create_iff h.linked hc kind).2 ⟨he, rfl⟩,
    (kept_create d kind).grown_attach (holds_of_isContainer hc) rfl ⟨hchildren, trivial, trivial⟩
      (fun x hm => ?_) fun x hm => ?_, ?_⟩
  · obtain rfl := List.mem_singleton.1 hm
    exact Nat.le_refl _
  · obtain rfl := List.mem_singleton.1 hm
    exact holds_create kind
  · rw [kind?_attach, kind?_create_self]

end SvgPress.Document
