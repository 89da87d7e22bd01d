import SvgPress.Proofs.Tree.Payload
import SvgPress.Proofs.Walk.Trimming

/-!
# Replacing trees

A walk changes a document one tree after another. Each change puts a forest in the place of another
one among the children of a node, and leaves alone all that stands elsewhere. Such changes are
composed side by side, below a node, and one after the other.
-/

namespace SvgPress

open Document Relation

/-- Among the children of a node the second forest has taken the place of the first one; all else is
as it was. -/
structure Replaced (d d' : Document) (parent : NodeId) (f f' : Forest NodeId) : Prop where
  linked : d'.Linked
  size_eq : d'.nodes.size = d.nodes.size
  declaration : d'.declaration = d.declaration
  doctype : d'.doctype = d.doctype
  children_parent : ∀ before after, d.children parent = before ++ f.tops ++ after →
    d'.children parent = before ++ f'.tops ++ after
  children_other : ∀ x, x ≠ parent → x ∉ f.preorder → d'.children x = d.children x
  parent?_other : ∀ x, x ∉ f.preorder → d'.parent? x = d.parent? x
  kind?_other : ∀ x, x ∉ f.preorder → d'.kind? x = d.kind? x
  shows : d'.Shows f'
  subset : f'.preorder ⊆ f.preorder

variable {d d₁ d' : Document} {parent top id : NodeId}
  {f f₁ f' g g₁ below below₁ rest : Forest NodeId}

/-! ## Where a forest stands -/

theorem Stands.above (h : Stands d parent f) {x : NodeId} (hx : x ∈ f.preorder) :
    TransGen d.IsParent parent x := by
  obtain ⟨top, ht, hr⟩ := (h.linked.mem_preorder_iff h.shows).1 hx
  exact .head' (h.parents top ht) hr

/-- No node of a forest stands above it. -/
theorem Stands.not_mem (h : Stands d parent f) : parent ∉ f.preorder := fun hm =>
  h.linked.climb.transGen.irrefl.irrefl parent (h.above hm)

theorem Stands.not_mem_of_above (h : Stands d parent f) {a : NodeId}
    (ha : a ∈ d.ancestors parent) : a ∉ f.preorder := by
  intro hm
  rw [h.linked.mem_ancestors_iff] at ha
  exact h.linked.climb.transGen.irrefl.irrefl a (ha.trans (h.above hm))

theorem Stands.first (h : Stands d parent (.cons top below rest)) :
    Stands d parent (.cons top below .nil) where
  linked := h.linked
  shows := ⟨h.shows.1, h.shows.2.1, trivial⟩
  parents x hx := by
    obtain rfl := List.mem_singleton.1 hx
    exact h.parents x List.mem_cons_self
  nodup := by
    have hn := h.nodup
    simp only [Forest.preorder, List.nodup_cons, List.mem_append, not_or, List.append_nil] at hn ⊢
    exact ⟨hn.1.1, hn.2.of_append_left⟩

/-- The first tree has no node in common with the trees after it. -/
theorem Stands.disjoint_first (h : Stands d parent (.cons top below rest)) :
    ∀ x ∈ (Forest.cons top below .nil).preorder, x ∉ rest.preorder := by
  intro x hx
  simp only [Forest.preorder, List.append_nil, List.mem_cons] at hx
  rcases hx with rfl | hx
  · exact h.apart.2.1
  · exact h.apart.2.2 x hx

theorem Stands.setKind (h : Stands d parent f) (id : NodeId) (kind : NodeKind) :
    Stands (d.setKind id kind) parent f where
  linked := h.linked.setKind id kind
  shows := h.shows.congr fun x _ => children_setKind d id x kind
  parents x hx := by
    rw [parent?_setKind]
    exact h.parents x hx
  nodup := h.nodup

/-- What a store shows below a node stands below it. -/
theorem Stands.of_tops (hl : d.Linked) (hs : d.Shows f) (ht : f.tops = d.children parent) :
    Stands d parent f where
  linked := hl
  shows := hs
  parents top hm := by rwa [hl.parent_iff, ← ht]
  nodup := hl.nodup_preorder hs (ht ▸ hl.apart_children parent)

/-! ## Payloads from a node upwards -/

namespace Document

/-- The payloads of a node and of the nodes above it, the nearest first. -/
def lineage (d : Document) (id : NodeId) : List NodeKind :=
  (id :: d.ancestors id).map d.kindOf

/-- The payloads of the nodes above a node, the nearest first. -/
def kindsAbove (d : Document) (id : NodeId) : List NodeKind :=
  (d.ancestors id).map d.kindOf

theorem Linked.kindsAbove_eq (h : d.Linked) (hp : d.parent? id = some parent) :
    d.kindsAbove id = d.lineage parent := by
  rw [kindsAbove, h.ancestors_of_parent? hp, lineage]

theorem Linked.lineage_eq (h : d.Linked) (hp : d.parent? id = some parent) :
    d.lineage id = d.kindOf id :: d.lineage parent := by
  rw [← h.kindsAbove_eq hp]
  rfl

theorem Linked.lineage_root (h : d.Linked) : d.lineage .root = [d.kindOf .root] := by
  have hnil : d.ancestors .root = [] := by
    rw [List.eq_nil_iff_forall_not_mem]
    intro a ha
    exact h.not_above_root a (h.mem_ancestors_iff.1 ha)
  rw [lineage, hnil]
  rfl

theorem kindOf_congr (h : d'.kind? id = d.kind? id) : d'.kindOf id = d.kindOf id := by
  rw [kindOf, kindOf, h]

theorem ancestorsUpTo_congr {bound : Nat}
    (h : ∀ a ∈ id :: d.ancestorsUpTo bound id, d'.parent? a = d.parent? a) :
    d'.ancestorsUpTo bound id = d.ancestorsUpTo bound id := by
  induction bound generalizing id with
  | zero => rfl
  | succ bound ih =>
    rw [ancestorsUpTo, ancestorsUpTo, h id List.mem_cons_self]
    cases hp : d.parent? id with
    | none => rfl
    | some above =>
      have hrest : ∀ a ∈ above :: d.ancestorsUpTo bound above, d'.parent? a = d.parent? a := by
        intro a ha
        refine h a (List.mem_cons_of_mem _ ?_)
        rw [ancestorsUpTo, hp]
        exact ha
      exact congrArg (above :: ·) (ih hrest)

end Document

/-! ## Compositions -/

namespace Replaced

theorem refl (hl : d.Linked) (hs : d.Shows f) : Replaced d d parent f f where
  linked := hl
  size_eq := rfl
  declaration := rfl
  doctype := rfl
  children_parent _ _ h := h
  children_other _ _ _ := rfl
  parent?_other _ _ := rfl
  kind?_other _ _ := rfl
  shows := hs
  subset := List.Subset.refl _

theorem trans (h : Replaced d d₁ parent f f₁) (h' : Replaced d₁ d' parent f₁ f') :
    Replaced d d' parent f f' where
  linked := h'.linked
  size_eq := h'.size_eq.trans h.size_eq
  declaration := h'.declaration.trans h.declaration
  doctype := h'.doctype.trans h.doctype
  children_parent before after hsplit :=
    h'.children_parent before after (h.children_parent before after hsplit)
  children_other x hx hf :=
    (h'.children_other x hx fun hm => hf (h.subset hm)).trans (h.children_other x hx hf)
  parent?_other x hf :=
    (h'.parent?_other x fun hm => hf (h.subset hm)).trans (h.parent?_other x hf)
  kind?_other x hf := (h'.kind?_other x fun hm => hf (h.subset hm)).trans (h.kind?_other x hf)
  shows := h'.shows
  subset := List.Subset.trans h'.subset h.subset

/-- A forest that takes the place of all that is below a node is what is below it then. -/
theorem children_eq (h : Replaced d d' parent f f') (ht : f.tops = d.children parent) :
    d'.children parent = f'.tops := by
  have hchildren := h.children_parent [] [] (by simpa using ht.symm)
  simpa using hchildren

/-- Forests side by side are replaced one after the other. -/
theorem append (h : Replaced d d₁ parent f f₁) (h' : Replaced d₁ d' parent g g₁)
    (hp : parent ∉ f.preorder) (hd : ∀ x ∈ f.preorder, x ∉ g.preorder) :
    Replaced d d' parent (f ++ g) (f₁ ++ g₁) where
  linked := h'.linked
  size_eq := h'.size_eq.trans h.size_eq
  declaration := h'.declaration.trans h.declaration
  doctype := h'.doctype.trans h.doctype
  children_parent before after hsplit := by
    have hfirst := h.children_parent before (g.tops ++ after) (by simpa using hsplit)
    have hlater := h'.children_parent (before ++ f₁.tops) after (by simpa using hfirst)
    simpa using hlater
  children_other x hx hm := by
    rw [Forest.preorder_append, List.mem_append, not_or] at hm
    exact (h'.children_other x hx hm.2).trans (h.children_other x hx hm.1)
  parent?_other x hm := by
    rw [Forest.preorder_append, List.mem_append, not_or] at hm
    exact (h'.parent?_other x hm.2).trans (h.parent?_other x hm.1)
  kind?_other x hm := by
    rw [Forest.preorder_append, List.mem_append, not_or] at hm
    exact (h'.kind?_other x hm.2).trans (h.kind?_other x hm.1)
  shows := by
    refine shows_append.2 ⟨h.shows.congr fun x hx => ?_, h'.shows⟩
    have hxf : x ∈ f.preorder := h.subset hx
    refine h'.children_other x ?_ (hd x hxf)
    rintro rfl
    exact hp hxf
  subset := by
    rw [Forest.preorder_append, Forest.preorder_append]
    exact List.append_subset.2 ⟨List.subset_append_of_subset_left _ h.subset,
      List.subset_append_of_subset_right _ h'.subset⟩

/-- What is replaced below the top of a tree is replaced in the tree. -/
theorem nest (h : Replaced d d' top below below₁) (hs : Stands d parent (.cons top below .nil)) :
    Replaced d d' parent (.cons top below .nil) (.cons top below₁ .nil) := by
  have hparent := hs.not_mem
  simp only [Forest.preorder, List.append_nil, List.mem_cons, not_or] at hparent
  have hout : ∀ x, x ∉ (Forest.cons top below .nil).preorder → x ≠ top ∧ x ∉ below.preorder := by
    intro x hx
    simpa [Forest.preorder] using hx
  refine ⟨h.linked, h.size_eq, h.declaration, h.doctype, fun before after hsplit => ?_,
    fun x _ hx => ?_, fun x hx => h.parent?_other x (hout x hx).2,
    fun x hx => h.kind?_other x (hout x hx).2, ⟨?_, h.shows, trivial⟩, ?_⟩
  · rw [h.children_other parent hparent.1 hparent.2]
    exact hsplit
  · exact h.children_other x (hout x hx).1 (hout x hx).2
  · exact h.children_eq hs.shows.1.symm
  · simp only [Forest.preorder, List.append_nil]
    exact List.cons_subset_cons top h.subset

theorem stands_nested (h : Replaced d d' top below below₁)
    (hs : Stands d parent (.cons top below .nil)) : Stands d' parent (.cons top below₁ .nil) := by
  have htop : d'.children top = below₁.tops := h.children_eq hs.shows.1.symm
  have hinside : Stands d' top below₁ := .of_tops h.linked h.shows htop.symm
  refine ⟨h.linked, ⟨htop, h.shows, trivial⟩, fun x hx => ?_, ?_⟩
  · obtain rfl := List.mem_singleton.1 hx
    rw [h.parent?_other x hs.apart.1]
    exact hs.parents x List.mem_cons_self
  · simp only [Forest.preorder, List.append_nil, List.nodup_cons]
    exact ⟨hinside.not_mem, hinside.nodup⟩

/-- What stands elsewhere stands there still. -/
theorem stands {p : NodeId} (h : Replaced d d' parent f f') (hg : Stands d p g)
    (hd : ∀ x ∈ g.preorder, x ≠ parent ∧ x ∉ f.preorder) : Stands d' p g where
  linked := h.linked
  shows := hg.shows.congr fun x hx => h.children_other x (hd x hx).1 (hd x hx).2
  parents x hx := by
    rw [h.parent?_other x (hd x (g.tops_subset_preorder hx)).2]
    exact hg.parents x hx
  nodup := hg.nodup

/-- The trees after the first one stand where they stood once it has been replaced. -/
theorem stands_after (h : Replaced d d₁ parent (.cons top below .nil) f₁)
    (hf : Stands d parent (.cons top below rest)) : Stands d₁ parent rest := by
  refine h.stands hf.after_top fun x hx => ⟨?_, fun hm => hf.disjoint_first x hm hx⟩
  rintro rfl
  exact hf.after_top.not_mem hx

/-- The first tree is replaced before the trees after it. -/
theorem cons (h : Replaced d d₁ parent (.cons top below .nil) f₁)
    (h' : Replaced d₁ d' parent rest g₁) (hf : Stands d parent (.cons top below rest)) :
    Replaced d d' parent (.cons top below rest) (f₁ ++ g₁) :=
  h.append h' hf.first.not_mem hf.disjoint_first

theorem lineage_eq (h : Replaced d d' parent f f') (hf : Stands d parent f) :
    d'.lineage parent = d.lineage parent := by
  have hout : ∀ a ∈ parent :: d.ancestors parent, a ∉ f.preorder := by
    intro a ha
    rcases List.mem_cons.1 ha with rfl | ha
    · exact hf.not_mem
    · exact hf.not_mem_of_above ha
  have hancestors : d'.ancestors parent = d.ancestors parent := by
    rw [ancestors, ancestors, h.size_eq]
    exact ancestorsUpTo_congr fun a ha => h.parent?_other a (hout a ha)
  rw [lineage, lineage, hancestors]
  exact List.map_congr_left fun a ha => kindOf_congr (h.kind?_other a (hout a ha))

theorem map_kindOf_eq (h : Replaced d d' parent f f') (hd : ∀ x ∈ g.preorder, x ∉ f.preorder) :
    g.map d'.kindOf = g.map d.kindOf :=
  Forest.map_congr fun x hx => kindOf_congr (h.kind?_other x (hd x hx))

/-! ## Single changes -/

theorem setKind (hf : Stands d parent f) (hid : id ∈ f.preorder) (kind : NodeKind) :
    Replaced d (d.setKind id kind) parent f f where
  linked := hf.linked.setKind id kind
  size_eq := by simp [Document.setKind]
  declaration := rfl
  doctype := rfl
  children_parent before after hsplit := by rwa [children_setKind]
  children_other x _ _ := children_setKind d id x kind
  parent?_other x _ := parent?_setKind d id x kind
  kind?_other x hx := by
    rw [kind?_setKind, if_neg]
    rintro rfl
    exact hx hid
  shows := (hf.setKind id kind).shows
  subset := List.Subset.refl _

theorem detach (hf : Stands d parent (.cons top below .nil)) :
    Replaced d (d.detach top) parent (.cons top below .nil) .nil := by
  have hl := hf.linked
  have hp : d.parent? top = some parent := hf.parents top List.mem_cons_self
  refine ⟨hl.detach top, size_detach d top, (prolog_detach d top).1, (prolog_detach d top).2,
    fun before after hsplit => ?_, fun x hx _ => ?_, fun x hx => ?_,
    fun x _ => kind?_detach d top x, trivial, List.nil_subset _⟩
  · have hn := hl.nodup parent
    rw [hl.children_detach, ← hn.erase_eq_filter, hsplit]
    rw [hsplit] at hn
    simp only [Forest.tops, List.append_assoc, List.singleton_append, List.nil_append] at hn ⊢
    have hbefore : top ∉ before := by
      intro hm
      exact (List.nodup_append.1 hn).2.2 top hm top List.mem_cons_self rfl
    rw [List.erase_append_right _ hbefore, List.erase_cons_head]
  · have hnot : top ∉ d.children x := by
      rw [← hl.parent_iff, hp]
      simpa using Ne.symm hx
    rw [hl.children_detach, List.filter_eq_self]
    intro y hy
    rw [bne_iff_ne]
    rintro rfl
    exact hnot hy
  · rw [parent?_detach, if_neg]
    rintro rfl
    exact hx List.mem_cons_self

theorem unwrap (hf : Stands d parent (.cons id below .nil)) (hu : d.unwrap id = .ok d') :
    Replaced d d' parent (.cons id below .nil) below := by
  have hl := hf.linked
  have hp : d.parent? id = some parent := hf.parents id List.mem_cons_self
  have hchildren : d.children id = below.tops := hf.shows.1
  have hlinked := hl.unwrap hu
  obtain ⟨parent', hp', -, -, rfl⟩ := unwrap_eq_ok_iff.1 hu
  obtain rfl : parent = parent' := Option.some.inj (hp.symm.trans hp')
  have hout : ∀ x, x ∉ (Forest.cons id below .nil).preorder → x ≠ id ∧ x ∉ below.preorder := by
    intro x hx
    simpa [Forest.preorder] using hx
  have hother : ∀ x, x ≠ parent → x ≠ id →
      (d.spliced parent id).children x = d.children x := by
    intro x hx hxid
    rw [hl.children_unwrap hp hxid, replaced_of_not_mem]
    rw [← hl.parent_iff, hp]
    simpa using Ne.symm hx
  refine ⟨hlinked, size_spliced d parent id, ?_, ?_, fun before after hsplit => ?_,
    fun x hx hm => hother x hx (hout x hm).1, fun x hm => ?_,
    fun x _ => kind?_spliced d parent id x, ?_, ?_⟩
  · exact (prolog_spliced d parent id).1
  · exact (prolog_spliced d parent id).2
  · rw [Forest.tops, Forest.tops, List.append_assoc, List.singleton_append] at hsplit
    have hn : (before ++ id :: after).Nodup := hsplit ▸ hl.nodup parent
    rw [hl.children_unwrap hp (hl.ne_of_parent? hp).symm, hsplit, replaced_split hn, hchildren]
  · rw [hl.parent?_spliced, if_neg (hout x hm).1, if_neg]
    rw [hchildren]
    exact fun hm' => (hout x hm).2 (below.tops_subset_preorder hm')
  · refine hf.shows.2.1.congr fun x hx => hother x ?_ ?_
    · rintro rfl
      exact hf.not_mem (List.mem_cons_of_mem _ (List.mem_append_left _ hx))
    · rintro rfl
      exact hf.apart.1 hx
  · intro x hx
    exact List.mem_cons_of_mem _ (List.mem_append_left _ hx)

end Replaced

end SvgPress
