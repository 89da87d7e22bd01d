import SvgPress.Proofs.Tree.Forest

/-!
# Plans of subtrees

A subtree is copied in two rounds: one writes down its payloads in document order, each with the
place of its parent, and one makes a node for each entry. Both are read off the forest that the
store shows: it has one plan, and following the plan adds one list of nodes to the store.
-/

namespace SvgPress

namespace Forest

variable {α β : Type}

/-- The plan of trees whose tops have the given parent, with `next` as the place of the first. -/
def plan : Forest NodeKind → (parent : Option Nat) → (next : Nat) → List (NodeKind × Option Nat)
  | nil, _, _ => []
  | cons kind below rest, parent, next =>
    (kind, parent) :: (below.plan (some next) (next + 1) ++
      rest.plan parent (next + 1 + below.preorder.length))

/-- The handles of the tops, if the nodes are made in document order from a place on. -/
def handles : Forest α → (next : Nat) → List NodeId
  | nil, _ => []
  | cons _ below rest, next => ⟨next⟩ :: rest.handles (next + 1 + below.preorder.length)

/-- The nodes that are made for trees whose tops have the given parent, from a place on. -/
def made : Forest NodeKind → (parent : Option NodeId) → (next : Nat) → List Node
  | nil, _, _ => []
  | cons kind below rest, parent, next =>
    ⟨kind, parent, below.handles (next + 1)⟩ :: (below.made (some ⟨next⟩) (next + 1) ++
      rest.made parent (next + 1 + below.preorder.length))

@[simp] theorem preorder_map (h : α → β) (f : Forest α) :
    (f.map h).preorder = f.preorder.map h := by
  induction f with
  | nil => rfl
  | cons top below rest ihb ihr => simp [preorder, map, ihb, ihr]

@[simp] theorem handles_map (h : α → β) (f : Forest α) (next : Nat) :
    (f.map h).handles next = f.handles next := by
  induction f generalizing next with
  | nil => rfl
  | cons top below rest _ ihr => simp [handles, map, ihr]

@[simp] theorem length_made (f : Forest NodeKind) (parent : Option NodeId) (next : Nat) :
    (f.made parent next).length = f.preorder.length := by
  induction f generalizing parent next with
  | nil => rfl
  | cons kind below rest ihb ihr => simp [made, preorder, ihb, ihr]

end Forest

namespace Document

/-- What a node is; a handle without a node counts as the root. -/
def kindOf (d : Document) (id : NodeId) : NodeKind :=
  (d.kind? id).getD .root

variable {d : Document} {f : Forest NodeId} {id : NodeId}

theorem kind?_eq_some_kindOf (h : d.Holds id) : d.kind? id = some (d.kindOf id) := by
  obtain ⟨kind, hk⟩ := Option.isSome_iff_exists.1 (isSome_kind?_iff.2 h)
  rw [kindOf, hk]
  rfl

theorem isElement_eq_kindOf (d : Document) (id : NodeId) :
    d.isElement id = (d.kindOf id).element?.isSome := by
  rw [isElement, element?, kindOf]
  cases d.kind? id <;> rfl

/-! ## Writing a plan -/

/-- A walk over the trees of a forest plans them, and then goes on with what is pending. -/
theorem Shows.planFrom_eq (h : d.Shows f) (hh : ∀ id ∈ f.preorder, d.Holds id)
    (parent : Option Nat) (pending : List (NodeId × Option Nat)) (bound next : Nat) :
    d.planFrom (f.preorder.length + bound) (f.tops.map (·, parent) ++ pending) next =
      (f.map d.kindOf).plan parent next ++
        d.planFrom bound pending (next + f.preorder.length) := by
  induction f generalizing parent pending bound next with
  | nil => simp [Forest.preorder, Forest.tops, Forest.map, Forest.plan]
  | cons id below rest ihb ihr =>
    obtain ⟨h1, h2, h3⟩ := h
    simp only [Forest.preorder, List.mem_cons, List.mem_append] at hh
    have hbelow := ihb h2 (fun x hx => hh x (.inr (.inl hx))) (some next)
      (rest.tops.map (·, parent) ++ pending) (rest.preorder.length + bound) (next + 1)
    have hrest := ihr h3 (fun x hx => hh x (.inr (.inr hx))) parent pending bound
      (next + 1 + below.preorder.length)
    have hbound : (Forest.cons id below rest).preorder.length + bound =
        below.preorder.length + (rest.preorder.length + bound) + 1 := by
      simp only [Forest.preorder, List.length_cons, List.length_append]
      omega
    have hnext : next + (Forest.cons id below rest).preorder.length =
        next + 1 + below.preorder.length + rest.preorder.length := by
      simp only [Forest.preorder, List.length_cons, List.length_append]
      omega
    rw [hbound, hnext, Forest.tops, List.map_cons, List.cons_append, planFrom,
      kind?_eq_some_kindOf (hh id (.inl rfl))]
    simp only [h1]
    rw [hbelow, hrest, Forest.map, Forest.plan, Forest.preorder_map, List.length_map,
      List.cons_append, List.append_assoc]

/-! ## Following a plan -/

/-- Documents with the same prolog and the same nodes are the same. -/
theorem ext_node? {d' : Document} (hdeclaration : d.declaration = d'.declaration)
    (hdoctype : d.doctype = d'.doctype) (h : ∀ id, d.node? id = d'.node? id) : d = d' := by
  have hnodes : d.nodes = d'.nodes := Array.ext_getElem? fun i => h ⟨i⟩
  cases d
  cases d'
  simp_all

theorem ext_links {d' : Document} (hdeclaration : d.declaration = d'.declaration)
    (hdoctype : d.doctype = d'.doctype) (hk : ∀ id, d.kind? id = d'.kind? id)
    (hp : ∀ id, d.parent? id = d'.parent? id) (hc : ∀ id, d.children id = d'.children id) :
    d = d' := by
  refine ext_node? hdeclaration hdoctype fun id => ?_
  have hkind := hk id
  have hparent := hp id
  have hchildren := hc id
  rw [kind?, kind?] at hkind
  rw [parent?, parent?] at hparent
  rw [children, children] at hchildren
  cases hn : d.node? id with
  | none => simpa [hn, eq_comm] using hkind
  | some node =>
    rw [hn] at hkind hparent hchildren
    obtain ⟨node', hn', hkind'⟩ := Option.map_eq_some_iff.1 hkind.symm
    rw [hn'] at hparent hchildren ⊢
    obtain ⟨kind, parent, children⟩ := node
    obtain ⟨kind', parent', children'⟩ := node'
    simp_all

/-- The store with more nodes at its end. -/
def extend (d : Document) (nodes : List Node) : Document :=
  { d with nodes := d.nodes ++ nodes.toArray }

/-- New nodes come behind those that there are. -/
theorem node?_extend (d : Document) (nodes : List Node) (id : NodeId) :
    (d.extend nodes).node? id =
      if id.index < d.nodes.size then d.node? id else nodes[id.index - d.nodes.size]? := by
  simp [node?, extend, Array.getElem?_append]

@[simp] theorem size_extend (d : Document) (nodes : List Node) :
    (d.extend nodes).nodes.size = d.nodes.size + nodes.length := by
  simp [extend]

theorem extend_extend (d : Document) (nodes more : List Node) :
    (d.extend nodes).extend more = d.extend (nodes ++ more) := by
  simp [extend]

/-- A node is created behind those that there are, and stands under none. -/
theorem create_eq_extend (d : Document) (kind : NodeKind) :
    (d.create kind).1 = d.extend [⟨kind, none, []⟩] := by
  simp [create, extend]

theorem modifyNode_modifyNode (d : Document) (id : NodeId) (g h : Node → Node) :
    (d.modifyNode id g).modifyNode id h = d.modifyNode id (h ∘ g) := by
  refine ext_node? rfl rfl fun other => ?_
  simp only [node?_modifyNode]
  split <;> simp

/-- Nodes at the end of the store do not matter to a change of a node before them. -/
theorem modifyNode_extend (h : d.Holds id) (nodes : List Node) (g : Node → Node) :
    (d.extend nodes).modifyNode id g = (d.modifyNode id g).extend nodes := by
  refine ext_node? rfl rfl fun other => ?_
  simp only [node?_modifyNode, node?_extend, size_modifyNode]
  by_cases he : other = id
  · subst he
    simp [show other.index < d.nodes.size from h]
  · simp [he]

theorem modifyNode_extend_last (d : Document) (node : Node) (g : Node → Node) :
    (d.extend [node]).modifyNode ⟨d.nodes.size⟩ g = d.extend [g node] := by
  refine ext_node? rfl rfl fun other => ?_
  obtain ⟨i⟩ := other
  simp only [node?_modifyNode, node?_extend, NodeId.mk.injEq]
  by_cases he : i = d.nodes.size
  · subst he
    simp
  · by_cases hlt : i < d.nodes.size
    · simp [he, hlt]
    · obtain ⟨n, hn⟩ : ∃ n, i - d.nodes.size = n + 1 := ⟨i - d.nodes.size - 1, by omega⟩
      simp [he, hlt, hn]

/-- The store where a parent, if there is one, has more children at the end of its list. -/
def adopt (d : Document) : (parent : Option NodeId) → (children : List NodeId) → Document
  | none, _ => d
  | some parent, children => d.modifyChildren parent (· ++ children)

@[simp] theorem size_adopt (d : Document) (parent : Option NodeId) (children : List NodeId) :
    (d.adopt parent children).nodes.size = d.nodes.size := by
  cases parent with
  | none => rfl
  | some parent => exact size_modifyNode _ _ _

theorem adopt_nil (d : Document) (parent : Option NodeId) : d.adopt parent [] = d := by
  cases parent with
  | none => rfl
  | some parent =>
    refine ext_node? rfl rfl fun other => ?_
    simp only [adopt, modifyChildren, node?_modifyNode, List.append_nil]
    split <;> simp

/-- Children that are adopted one after the other come in that order. -/
theorem adopt_adopt (d : Document) (parent : Option NodeId) (children more : List NodeId) :
    (d.adopt parent children).adopt parent more = d.adopt parent (children ++ more) := by
  cases parent with
  | none => rfl
  | some parent =>
    simp only [adopt, modifyChildren, modifyNode_modifyNode, Function.comp_def, List.append_assoc]

/-- Adopting by a node that was there does not touch the new nodes. -/
theorem adopt_extend {parent : Option NodeId} (hp : ∀ p ∈ parent, d.Holds p) (nodes : List Node)
    (children : List NodeId) :
    (d.extend nodes).adopt parent children = (d.adopt parent children).extend nodes := by
  cases parent with
  | none => rfl
  | some parent => exact modifyNode_extend (hp parent rfl) nodes _

/-- One entry of a plan adds a node and makes it the last child of its parent. -/
theorem follow_eq {ids : Array NodeId} (kind : NodeKind) {parent : Option Nat}
    {above : Option NodeId} (ha : parent.bind (ids[·]?) = above) (hh : ∀ p ∈ above, d.Holds p) :
    follow (d, ids) (kind, parent) =
      ((d.adopt above [⟨d.nodes.size⟩]).extend [⟨kind, above, []⟩], ids.push ⟨d.nodes.size⟩) := by
  cases above with
  | none =>
    simp only [follow, ha]
    rw [create_eq_extend]
    rfl
  | some above =>
    have hset : (d.create kind).1.setParent ⟨d.nodes.size⟩ (some above) =
        d.extend [⟨kind, some above, []⟩] := by
      rw [create_eq_extend, setParent, modifyNode_extend_last]
    simp only [follow, ha]
    rw [← adopt_extend hh, ← hset]
    rfl

/-- The handles of so many nodes, made one after the other. -/
def madeIds (base count : Nat) : Array NodeId :=
  ((List.range' base count).map NodeId.mk).toArray

theorem getElem?_madeIds {base count i : Nat} (h : i < count) :
    (madeIds base count)[i]? = some ⟨base + i⟩ := by
  simp [madeIds, h]

theorem push_madeIds (base count : Nat) :
    (madeIds base count).push ⟨base + count⟩ = madeIds base (count + 1) := by
  simp [madeIds, List.range'_1_concat]

theorem adopt_extend_top (d : Document) (kind : NodeKind) (above : Option NodeId)
    (tops children : List NodeId) :
    ((d.adopt above tops).extend [⟨kind, above, []⟩]).adopt (some ⟨d.nodes.size⟩) children =
      (d.adopt above tops).extend [⟨kind, above, children⟩] := by
  have hlast := modifyNode_extend_last (d.adopt above tops) ⟨kind, above, []⟩
    fun node => { node with children := node.children ++ children }
  rwa [size_adopt] at hlast

/-- Following the plan of trees adds the nodes that are made for them, and their parent adopts the
tops. -/
theorem foldl_follow_plan (f : Forest NodeKind) {base next : Nat} (hs : d.nodes.size = base + next)
    {parent : Option Nat} (hp : ∀ p ∈ parent, p < next) {above : Option NodeId}
    (ha : above = parent.map fun p => ⟨base + p⟩) :
    (f.plan parent next).foldl follow (d, madeIds base next) =
      ((d.adopt above (f.handles d.nodes.size)).extend (f.made above d.nodes.size),
        madeIds base (next + f.preorder.length)) := by
  induction f generalizing d next parent above with
  | nil =>
    simp only [Forest.plan, Forest.handles, Forest.made, Forest.preorder, List.foldl_nil, adopt_nil]
    simp [extend]
  | cons kind below rest ihb ihr =>
    have habove : parent.bind ((madeIds base next)[·]?) = above := by
      cases parent with
      | none => exact ha.symm
      | some p => rw [Option.bind_some, getElem?_madeIds (hp p rfl), ha, Option.map_some]
    have hheld : ∀ p ∈ above, d.Holds p := by
      intro p hm
      rw [ha] at hm
      obtain ⟨q, hq, rfl⟩ := Option.map_eq_some_iff.1 hm
      have hlt := hp q hq
      simp only [Holds]
      omega
    have hfirst := follow_eq kind habove hheld
    rw [hs, push_madeIds, ← hs] at hfirst
    -- The top is made without children; it adopts those below it while they are made.
    have hbelow := @ihb ((d.adopt above [⟨d.nodes.size⟩]).extend [⟨kind, above, []⟩]) (next + 1)
      (by simp [hs, Nat.add_assoc]) (some next)
      (fun p hm => by obtain rfl := Option.some.inj hm; omega) (some ⟨d.nodes.size⟩)
      (by rw [hs]; rfl)
    rw [adopt_extend_top, extend_extend] at hbelow
    simp only [size_extend, size_adopt, List.length_singleton, List.singleton_append] at hbelow
    -- The trees after it are made when all of this stands in the store.
    obtain ⟨nodes, hnodes⟩ : ∃ nodes, nodes =
        (⟨kind, above, below.handles (d.nodes.size + 1)⟩ : Node) ::
          below.made (some ⟨d.nodes.size⟩) (d.nodes.size + 1) := ⟨_, rfl⟩
    have hlength : nodes.length = below.preorder.length + 1 := by
      rw [hnodes, List.length_cons, Forest.length_made]
    have hrest := @ihr ((d.adopt above [⟨d.nodes.size⟩]).extend nodes)
      (next + 1 + below.preorder.length) (by rw [size_extend, size_adopt, hlength]; omega) parent
      (fun p hm => by have hlt := hp p hm; omega) above ha
    rw [adopt_extend (fun p hm => by rw [Holds, size_adopt]; exact hheld p hm), adopt_adopt,
      extend_extend, size_extend, size_adopt, hlength, List.singleton_append] at hrest
    have hplace : d.nodes.size + (below.preorder.length + 1) =
        d.nodes.size + 1 + below.preorder.length := by omega
    rw [hplace] at hrest
    rw [Forest.plan, List.foldl_cons, hfirst, List.foldl_append, hbelow, ← hnodes, hrest, hnodes,
      Forest.handles, Forest.made, Forest.preorder, List.length_cons, List.length_append]
    congr 2
    omega

/-! ## Copying -/

variable {source : Document} {top : NodeId}

/-- No bound from the number of nodes on changes the plan of a subtree. -/
theorem Linked.planFrom_eq (h : d.Linked) (ht : d.Holds top) (hf : f.tops = d.children top)
    (hs : d.Shows f) {bound : Nat} (hb : d.nodes.size ≤ bound) :
    d.planFrom bound [(top, none)] 0 =
      ((Forest.cons top f .nil).map d.kindOf).plan none 0 := by
  have hshows : d.Shows (.cons top f .nil) := ⟨hf.symm, hs, trivial⟩
  have hheld : ∀ id ∈ (Forest.cons top f .nil).preorder, d.Holds id := fun id hm =>
    h.holds_of_mem_preorder hshows (List.forall_mem_singleton.2 ht) hm
  have hle := (h.length_tree_le ht hf hs).trans hb
  have hplan := hshows.planFrom_eq hheld none [] (bound - (Forest.cons top f .nil).preorder.length) 0
  rw [Nat.add_sub_cancel' hle] at hplan
  simpa [Forest.tops, planFrom] using hplan

/-- A copy of a subtree adds the nodes that are made for the tree that the other store shows. -/
theorem Linked.graft_eq (h : source.Linked) (ht : source.Holds top)
    (hf : f.tops = source.children top) (hs : source.Shows f) :
    d.graft source top =
      (d.extend (((Forest.cons top f .nil).map source.kindOf).made none d.nodes.size),
        ⟨d.nodes.size⟩) := by
  have hfollow := @foldl_follow_plan d ((Forest.cons top f .nil).map source.kindOf) d.nodes.size 0
    rfl none (fun _ hm => absurd hm (by simp)) none rfl
  have hplan : source.subtreePlan top = _ := h.planFrom_eq ht hf hs (Nat.le_refl _)
  have hempty : (#[] : Array NodeId) = madeIds d.nodes.size 0 := rfl
  rw [graft, hplan, hempty, hfollow]
  simp only
  rw [getElem?_madeIds (by simp [Forest.preorder, Forest.map])]
  rfl

end Document

end SvgPress
