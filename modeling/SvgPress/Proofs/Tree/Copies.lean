import SvgPress.Proofs.Tree.Plans

/-!
# Copies of subtrees

A copy of a subtree is made of new nodes, one for each node of the subtree. The copies are linked
among themselves as their originals are, and the nodes that were there before do not notice. So the
links of a store stay consistent when a subtree of the same or of another store is copied into it.
-/

namespace SvgPress.Document

/-- A node and everything below it, in document order. -/
def subtree (source : Document) (top : NodeId) : List NodeId :=
  top :: source.descendants top

/-- The copy that `graft` makes of a node of the subtree below `top`. -/
def copyOf (d source : Document) (top id : NodeId) : NodeId :=
  ⟨d.nodes.size + (source.subtree top).idxOf id⟩

/-- What `graft` makes of a node of the subtree below `top`. -/
def copyNode (d source : Document) (top id : NodeId) : Node :=
  { kind := source.kindOf id
    parent := if id = top then none else (source.parent? id).map (d.copyOf source top)
    children := (source.children id).map (d.copyOf source top) }

variable {d source : Document} {top id other : NodeId}

/-! ## The subtree -/

theorem Linked.mem_subtree_iff (h : source.Linked) :
    id ∈ source.subtree top ↔ Relation.ReflTransGen source.IsParent top id := by
  rw [subtree, List.mem_cons, h.mem_descendants_iff, Relation.reflTransGen_iff_eq_or_transGen]

theorem Linked.nodup_subtree (h : source.Linked) (top : NodeId) : (source.subtree top).Nodup := by
  refine List.nodup_cons.2 ⟨fun hm => ?_, h.nodup_descendants top⟩
  exact h.climb.transGen.irrefl.irrefl top (h.mem_descendants_iff.1 hm)

theorem Linked.holds_of_mem_subtree (h : source.Linked) (ht : source.Holds top)
    (hm : id ∈ source.subtree top) : source.Holds id := by
  rcases Relation.ReflTransGen.cases_tail (h.mem_subtree_iff.1 hm) with rfl | ⟨p, -, hp⟩
  · exact ht
  · exact holds_of_parent? hp

theorem Linked.child_mem_subtree (h : source.Linked) (hm : id ∈ source.subtree top)
    (hc : other ∈ source.children id) : other ∈ source.subtree top := by
  rw [h.mem_subtree_iff] at hm ⊢
  exact hm.tail ((h.parent_iff other id).2 hc)

/-- Above a node of the subtree other than its top there is another node of the subtree. -/
theorem Linked.parent_mem_subtree (h : source.Linked) (hm : id ∈ source.subtree top)
    (hne : id ≠ top) (hp : source.parent? id = some other) : other ∈ source.subtree top := by
  rw [h.mem_subtree_iff] at hm ⊢
  rcases Relation.ReflTransGen.cases_tail hm with he | ⟨p, htp, hpid⟩
  · exact absurd he hne
  · obtain rfl := Option.some.inj (hp.symm.trans hpid)
    exact htp

/-- The top of the subtree does not stand below any of its nodes. -/
theorem Linked.parent_top_not_mem (h : source.Linked) (hm : other ∈ source.subtree top) :
    source.parent? top ≠ some other := by
  intro hp
  exact h.climb.transGen.irrefl.irrefl top (.tail' (h.mem_subtree_iff.1 hm) hp)

/-! ## The handles of copies -/

theorem size_le_index_copyOf : d.nodes.size ≤ (d.copyOf source top id).index :=
  Nat.le_add_right _ _

theorem index_copyOf_lt (hm : id ∈ source.subtree top) :
    (d.copyOf source top id).index < d.nodes.size + (source.subtree top).length :=
  Nat.add_lt_add_left (List.idxOf_lt_length_of_mem hm) _

theorem copyOf_inj (hm : id ∈ source.subtree top)
    (he : d.copyOf source top id = d.copyOf source top other) : id = other := by
  simp only [copyOf, NodeId.mk.injEq, Nat.add_left_cancel_iff] at he
  exact (List.idxOf_inj hm).1 he

/-- A handle is that of an old node, that of a copy, or that of no node. -/
theorem Linked.handle_cases (h : source.Linked) (top : NodeId) (x : NodeId) :
    x.index < d.nodes.size ∨ (∃ id ∈ source.subtree top, x = d.copyOf source top id) ∨
      d.nodes.size + (source.subtree top).length ≤ x.index := by
  by_cases h1 : x.index < d.nodes.size
  · exact .inl h1
  · by_cases h2 : d.nodes.size + (source.subtree top).length ≤ x.index
    · exact .inr (.inr h2)
    · have hlt : x.index - d.nodes.size < (source.subtree top).length := by omega
      refine .inr (.inl ⟨(source.subtree top)[x.index - d.nodes.size], List.getElem_mem hlt, ?_⟩)
      obtain ⟨i⟩ := x
      simp only [copyOf, NodeId.mk.injEq]
      rw [(h.nodup_subtree top).idxOf_getElem]
      simp only at h1
      omega

/-! ## The nodes that a plan makes -/

theorem Linked.copyOf_eq (h : source.Linked) {before after : List NodeId}
    (hm : before ++ id :: after = source.subtree top) :
    d.copyOf source top id = ⟨d.nodes.size + before.length⟩ := by
  have hn := h.nodup_subtree top
  rw [← hm, List.nodup_append] at hn
  have hnot : id ∉ before := fun hb => hn.2.2 id hb id List.mem_cons_self rfl
  rw [copyOf, ← hm, List.idxOf_append_of_notMem hnot, List.idxOf_cons_self, Nat.add_zero]

theorem add_length_append_cons (base : Nat) (before below : List NodeId) (id : NodeId) :
    base + (before ++ id :: below).length = base + before.length + 1 + below.length := by
  rw [List.length_append, List.length_cons]
  omega

/-- The handles that are given to trees of the subtree are those of their copies. -/
theorem Linked.handles_eq (h : source.Linked) {f : Forest NodeId} {before after : List NodeId}
    (hm : before ++ (f.preorder ++ after) = source.subtree top) :
    f.handles (d.nodes.size + before.length) = f.tops.map (d.copyOf source top) := by
  induction f generalizing before with
  | nil => rfl
  | cons id below rest _ ihr =>
    simp only [Forest.preorder, List.cons_append, List.append_assoc] at hm
    have hbeside : (before ++ id :: below.preorder) ++ (rest.preorder ++ after) =
        source.subtree top := by simpa using hm
    have hrest := ihr hbeside
    rw [add_length_append_cons] at hrest
    rw [Forest.handles, Forest.tops, List.map_cons, h.copyOf_eq hm, hrest]

/-- The nodes that are made for trees of the subtree are the copies of their nodes. -/
theorem Linked.made_eq (h : source.Linked) {f : Forest NodeId} (hs : source.Shows f)
    {before after : List NodeId} (hm : before ++ (f.preorder ++ after) = source.subtree top)
    {parent : Option NodeId} (hp : ∀ id ∈ f.tops, (d.copyNode source top id).parent = parent) :
    (f.map source.kindOf).made parent (d.nodes.size + before.length) =
      f.preorder.map (d.copyNode source top) := by
  induction f generalizing before after parent with
  | nil => rfl
  | cons id below rest ihb ihr =>
    obtain ⟨h1, h2, h3⟩ := hs
    simp only [Forest.preorder, List.cons_append, List.append_assoc] at hm
    have hid : d.copyOf source top id = ⟨d.nodes.size + before.length⟩ := h.copyOf_eq hm
    have hmem : id ∈ source.subtree top := by
      rw [← hm]
      exact List.mem_append_right _ List.mem_cons_self
    have hunder : (before ++ [id]) ++ (below.preorder ++ (rest.preorder ++ after)) =
        source.subtree top := by simpa using hm
    have hbeside : (before ++ id :: below.preorder) ++ (rest.preorder ++ after) =
        source.subtree top := by simpa using hm
    have hparent : ∀ c ∈ below.tops,
        (d.copyNode source top c).parent = some ⟨d.nodes.size + before.length⟩ := by
      intro c hc
      have hc' : source.parent? c = some id := (h.parent_iff c id).2 (h1 ▸ hc)
      have hne : c ≠ top := by
        rintro rfl
        exact h.parent_top_not_mem hmem hc'
      simp only [copyNode, if_neg hne, hc', Option.map_some, hid]
    have hlast : d.nodes.size + (before ++ [id]).length = d.nodes.size + before.length + 1 := by
      rw [List.length_append, List.length_singleton, Nat.add_assoc]
    have hhandles := h.handles_eq (d := d) hunder
    have hbelow := ihb h2 hunder hparent
    have hrest := ihr h3 hbeside fun c hc => hp c (List.mem_cons_of_mem _ hc)
    rw [hlast] at hhandles hbelow
    rw [add_length_append_cons] at hrest
    have htop : d.copyNode source top id =
        ⟨source.kindOf id, parent, below.tops.map (d.copyOf source top)⟩ := by
      rw [← hp id List.mem_cons_self, ← h1]
      rfl
    rw [Forest.map, Forest.made, Forest.preorder, List.map_cons, List.map_append,
      Forest.handles_map, Forest.preorder_map, List.length_map, hhandles, hbelow, hrest, htop]

/-! ## What is found after copying -/

section

variable (hs : source.Linked) (ht : source.Holds top)

include hs ht

/-- The store after copying holds the old nodes, followed by the copies in document order. -/
theorem Linked.toList_graft : (d.graft source top).1.nodes.toList =
    d.nodes.toList ++ (source.subtree top).map (d.copyNode source top) := by
  obtain ⟨f, hf, hshows, -, -, -⟩ := hs.exists_forest_below top
  have hsubtree : [] ++ ((Forest.cons top f .nil).preorder ++ []) = source.subtree top := by
    rw [subtree, hs.descendants_eq hf hshows]
    simp [Forest.preorder]
  have htop : ∀ id ∈ (Forest.cons top f .nil).tops, (d.copyNode source top id).parent = none := by
    intro id hm
    obtain rfl := List.mem_singleton.1 hm
    exact if_pos rfl
  have htree : source.Shows (.cons top f .nil) := ⟨hf.symm, hshows, trivial⟩
  have hmade := hs.made_eq htree hsubtree htop
  rw [hs.graft_eq ht hf hshows, extend, Array.toList_append, ← hsubtree]
  simpa using hmade

theorem Linked.snd_graft : (d.graft source top).2 = d.copyOf source top top := by
  obtain ⟨f, hf, hshows, -, -, -⟩ := hs.exists_forest_below top
  rw [hs.graft_eq ht hf hshows, copyOf, subtree, List.idxOf_cons_self, Nat.add_zero]

theorem Linked.size_graft :
    (d.graft source top).1.nodes.size = d.nodes.size + (source.subtree top).length := by
  rw [← Array.length_toList, hs.toList_graft ht]
  simp

theorem Linked.node?_graft_of_lt (h : id.index < d.nodes.size) :
    (d.graft source top).1.node? id = d.node? id := by
  rw [node?, node?, ← Array.getElem?_toList, hs.toList_graft ht,
    List.getElem?_append_left (by simpa using h), Array.getElem?_toList]

/-- A copy is found with the payload of its original, and linked to the other copies. -/
theorem Linked.node?_graft_copyOf (hm : id ∈ source.subtree top) :
    (d.graft source top).1.node? (d.copyOf source top id) = some (d.copyNode source top id) := by
  have hi := List.idxOf_lt_length_of_mem hm
  rw [node?, ← Array.getElem?_toList, hs.toList_graft ht, copyOf,
    List.getElem?_append_right (by simp), List.getElem?_map]
  simp only [Array.length_toList, Nat.add_sub_cancel_left, List.getElem?_eq_getElem hi,
    List.getElem_idxOf, Option.map_some]

theorem Linked.node?_graft_of_ge
    (h : d.nodes.size + (source.subtree top).length ≤ id.index) :
    (d.graft source top).1.node? id = none := by
  rw [← Option.not_isSome_iff_eq_none, isSome_node?_iff, Holds, hs.size_graft ht]
  omega

theorem Linked.kind?_graft_copyOf (hm : id ∈ source.subtree top) :
    (d.graft source top).1.kind? (d.copyOf source top id) = source.kind? id := by
  rw [kind?, hs.node?_graft_copyOf ht hm, kind?_eq_some_kindOf (hs.holds_of_mem_subtree ht hm)]
  rfl

theorem Linked.children_graft_copyOf (hm : id ∈ source.subtree top) :
    (d.graft source top).1.children (d.copyOf source top id) =
      (source.children id).map (d.copyOf source top) := by
  rw [children, hs.node?_graft_copyOf ht hm]
  rfl

theorem Linked.parent?_graft_copyOf (hm : id ∈ source.subtree top) :
    (d.graft source top).1.parent? (d.copyOf source top id) =
      if id = top then none else (source.parent? id).map (d.copyOf source top) := by
  rw [parent?, hs.node?_graft_copyOf ht hm]
  rfl

theorem Linked.parent?_graft_of_lt (h : id.index < d.nodes.size) :
    (d.graft source top).1.parent? id = d.parent? id := by
  rw [parent?, parent?, hs.node?_graft_of_lt ht h]

theorem Linked.children_graft_of_lt (h : id.index < d.nodes.size) :
    (d.graft source top).1.children id = d.children id := by
  rw [children, children, hs.node?_graft_of_lt ht h]

theorem Linked.kind?_graft_of_lt (h : id.index < d.nodes.size) :
    (d.graft source top).1.kind? id = d.kind? id := by
  rw [kind?, kind?, hs.node?_graft_of_lt ht h]

/-- A copied subtree is linked as its original is, apart from its top. -/
theorem Linked.isParent_graft_iff {parent child : NodeId} :
    (d.graft source top).1.IsParent parent child ↔
      d.IsParent parent child ∨ ∃ p c, p ∈ source.subtree top ∧ c ∈ source.subtree top ∧
        source.IsParent p c ∧ parent = d.copyOf source top p ∧ child = d.copyOf source top c := by
  have hnew : ∀ {c}, ¬ d.IsParent parent (d.copyOf source top c) := by
    intro c hp
    exact absurd (holds_of_parent? hp) (Nat.not_lt.2 size_le_index_copyOf)
  simp only [IsParent] at hnew ⊢
  rcases hs.handle_cases (d := d) top child with hlt | ⟨c, hc, rfl⟩ | hge
  · rw [hs.parent?_graft_of_lt ht hlt]
    refine ⟨.inl, ?_⟩
    rintro (hp | ⟨p, c, -, -, -, -, rfl⟩)
    · exact hp
    · exact absurd hlt (Nat.not_lt.2 size_le_index_copyOf)
  · rw [hs.parent?_graft_copyOf ht hc]
    constructor
    · intro hp
      split_ifs at hp with he
      obtain ⟨p, hpc, rfl⟩ := Option.map_eq_some_iff.1 hp
      exact .inr ⟨p, c, hs.parent_mem_subtree hc he hpc, hc, hpc, rfl, rfl⟩
    · rintro (hp | ⟨p, c', hpm, -, hpc, rfl, he⟩)
      · exact absurd hp hnew
      · obtain rfl := copyOf_inj hc he
        have hne : c ≠ top := by
          rintro rfl
          exact hs.parent_top_not_mem hpm hpc
        rw [if_neg hne, hpc]
        rfl
  · rw [parent?, hs.node?_graft_of_ge ht hge]
    constructor
    · intro hp
      exact absurd hp (by simp)
    · rintro (hp | ⟨p, c, -, hc, -, -, rfl⟩)
      · exact absurd (holds_of_parent? hp) (by simp only [Holds]; omega)
      · exact absurd (index_copyOf_lt hc) (Nat.not_lt.2 hge)

/-- Following parents from a copy ends at the copy of the top. -/
theorem Linked.wellFounded_graft (h : d.Linked) : WellFounded (d.graft source top).1.IsParent := by
  have hcopies : ∀ c, Acc (d.graft source top).1.IsParent (d.copyOf source top c) := by
    intro c
    induction c using hs.climb.induction with
    | _ c ih =>
      refine ⟨_, fun above ha => ?_⟩
      rcases (hs.isParent_graft_iff ht).1 ha with hp | ⟨p, c', -, hc, hpc, rfl, he⟩
      · exact absurd (holds_of_parent? hp) (Nat.not_lt.2 size_le_index_copyOf)
      · obtain rfl := copyOf_inj hc he.symm
        exact ih p hpc
  refine ⟨fun id => ?_⟩
  induction id using h.climb.induction with
  | _ id ih =>
    refine ⟨_, fun above ha => ?_⟩
    rcases (hs.isParent_graft_iff ht).1 ha with hp | ⟨p, c, -, -, -, rfl, -⟩
    · exact ih above hp
    · exact hcopies p

/-- Copying a subtree keeps links consistent. -/
theorem Linked.graft (h : d.Linked) : (d.graft source top).1.Linked where
  root_held := by
    have hr := h.root_held
    rw [Holds, hs.size_graft ht]
    exact Nat.lt_of_lt_of_le hr (Nat.le_add_right _ _)
  root_parent := by rw [hs.parent?_graft_of_lt ht h.root_held]; exact h.root_parent
  parent_iff child parent := by
    rw [← IsParent, hs.isParent_graft_iff ht]
    rcases hs.handle_cases (d := d) top parent with hlt | ⟨p, hp, rfl⟩ | hge
    · rw [hs.children_graft_of_lt ht hlt, ← h.parent_iff]
      refine ⟨?_, .inl⟩
      rintro (hpc | ⟨p, c, -, -, -, rfl, -⟩)
      · exact hpc
      · exact absurd hlt (Nat.not_lt.2 size_le_index_copyOf)
    · rw [hs.children_graft_copyOf ht hp, List.mem_map]
      constructor
      · rintro (hpc | ⟨p', c, -, -, hpc, he, rfl⟩)
        · exact absurd (h.parent_held hpc) (Nat.not_lt.2 size_le_index_copyOf)
        · obtain rfl := copyOf_inj hp he
          exact ⟨c, (hs.parent_iff c p).1 hpc, rfl⟩
      · rintro ⟨c, hc, rfl⟩
        exact .inr ⟨p, c, hp, hs.child_mem_subtree hp hc, (hs.parent_iff c p).2 hc, rfl, rfl⟩
    · rw [children, hs.node?_graft_of_ge ht hge]
      simp only [Option.map_none, Option.getD_none, List.not_mem_nil, iff_false, not_or]
      refine ⟨fun hpc => ?_, ?_⟩
      · exact absurd (h.parent_held hpc) (by simp only [Holds]; omega)
      · rintro ⟨p, c, hp, -, -, rfl, -⟩
        exact absurd (index_copyOf_lt hp) (Nat.not_lt.2 hge)
  nodup id := by
    rcases hs.handle_cases (d := d) top id with hlt | ⟨p, hp, rfl⟩ | hge
    · rw [hs.children_graft_of_lt ht hlt]
      exact h.nodup id
    · rw [hs.children_graft_copyOf ht hp]
      refine (List.nodup_map_iff_inj_on (hs.nodup p)).2 fun a ha b _ he => ?_
      exact copyOf_inj (hs.child_mem_subtree hp ha) he
    · rw [children, hs.node?_graft_of_ge ht hge]
      exact List.nodup_nil
  climb := hs.wellFounded_graft ht h

end

end SvgPress.Document
