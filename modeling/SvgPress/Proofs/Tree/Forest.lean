import SvgPress.Proofs.Tree.Links

/-!
# Forests in a store

A `Forest` is a list of trees as a value of its own, without a store. A store with consistent links
shows a forest below any list of nodes; the depth-first walk from these nodes is the preorder of the
forest, and it meets no node twice. The loops that keep pending nodes on a stack come to an end,
since each of their rounds leaves one node less to be met.
-/

namespace SvgPress

/-- Trees side by side. -/
inductive Forest (α : Type) where
  /-- No tree. -/
  | nil
  /-- A tree, given by its top and what stands below it, and the trees after it. -/
  | cons (top : α) (below rest : Forest α)
deriving DecidableEq

namespace Forest

variable {α β : Type}

/-- The tops of the trees. -/
def tops : Forest α → List α
  | nil => []
  | cons top _ rest => top :: rest.tops

/-- All nodes, each before those below it. -/
def preorder : Forest α → List α
  | nil => []
  | cons top below rest => top :: (below.preorder ++ rest.preorder)

/-- The trees of one forest followed by those of another. -/
def append : Forest α → Forest α → Forest α
  | nil, after => after
  | cons top below rest, after => cons top below (rest.append after)

instance : Append (Forest α) := ⟨append⟩

/-- The forest of the same shape with other labels. -/
def map (f : α → β) : Forest α → Forest β
  | nil => nil
  | cons top below rest => cons (f top) (below.map f) (rest.map f)

@[simp] theorem nil_append (f : Forest α) : nil ++ f = f := rfl

@[simp] theorem cons_append (top : α) (below rest f : Forest α) :
    cons top below rest ++ f = cons top below (rest ++ f) := rfl

@[simp] theorem append_nil (f : Forest α) : f ++ nil = f := by
  induction f with
  | nil => rfl
  | cons top below rest _ ih => rw [cons_append, ih]

@[simp] theorem tops_append (f g : Forest α) : (f ++ g).tops = f.tops ++ g.tops := by
  induction f with
  | nil => rfl
  | cons top below rest _ ih => simp [tops, ih]

@[simp] theorem preorder_append (f g : Forest α) :
    (f ++ g).preorder = f.preorder ++ g.preorder := by
  induction f with
  | nil => rfl
  | cons top below rest _ ih => simp [preorder, ih]

@[simp] theorem tops_map (h : α → β) (f : Forest α) : (f.map h).tops = f.tops.map h := by
  induction f with
  | nil => rfl
  | cons top below rest _ ih => simp [tops, map, ih]

theorem isEmpty_tops_iff {f : Forest α} : f.tops.isEmpty = true ↔ f = nil := by
  cases f <;> simp [tops]

theorem append_assoc (f g h : Forest α) : f ++ g ++ h = f ++ (g ++ h) := by
  induction f with
  | nil => rfl
  | cons top below rest _ ih => rw [cons_append, cons_append, cons_append, ih]

theorem append_eq_nil {f g : Forest α} : f ++ g = nil ↔ f = nil ∧ g = nil := by
  cases f <;> simp

theorem map_congr {h k : α → β} {f : Forest α} (he : ∀ x ∈ f.preorder, h x = k x) :
    f.map h = f.map k := by
  induction f with
  | nil => rfl
  | cons top below rest ihb ihr =>
    simp only [preorder, List.mem_cons, List.mem_append] at he
    simp only [map]
    rw [he top (.inl rfl), ihb fun x hx => he x (.inr (.inl hx)),
      ihr fun x hx => he x (.inr (.inr hx))]

end Forest

namespace Document

/-- The forest is the one that the child lists of the store describe below its tops. -/
def Shows (d : Document) : Forest NodeId → Prop
  | .nil => True
  | .cons id below rest => d.children id = below.tops ∧ d.Shows below ∧ d.Shows rest

variable {d : Document} {id other : NodeId} {f : Forest NodeId}

theorem shows_append {g : Forest NodeId} : d.Shows (f ++ g) ↔ d.Shows f ∧ d.Shows g := by
  induction f with
  | nil => simp [Shows]
  | cons id below rest _ ih => simp [Shows, ih, and_assoc]

theorem Shows.congr {d' : Document} (h : d.Shows f)
    (hc : ∀ id ∈ f.preorder, d'.children id = d.children id) : d'.Shows f := by
  induction f with
  | nil => trivial
  | cons id below rest ihb ihr =>
    obtain ⟨h1, h2, h3⟩ := h
    simp only [Forest.preorder, List.mem_cons, List.mem_append] at hc
    exact ⟨(hc id (.inl rfl)).trans h1, ihb h2 fun x hx => hc x (.inr (.inl hx)),
      ihr h3 fun x hx => hc x (.inr (.inr hx))⟩

/-- A bounded depth-first walk meets the first nodes of the preorder. -/
theorem Shows.preorderFrom_eq (h : d.Shows f) (bound : Nat) :
    d.preorderFrom bound f.tops = f.preorder.take bound := by
  induction bound generalizing f with
  | zero => cases f <;> simp [Forest.tops, preorderFrom]
  | succ bound ih =>
    cases f with
    | nil => simp [Forest.tops, Forest.preorder, preorderFrom]
    | cons id below rest =>
      obtain ⟨h1, h2, h3⟩ := h
      have hrest := ih (f := below ++ rest) (shows_append.2 ⟨h2, h3⟩)
      rw [Forest.tops_append, Forest.preorder_append] at hrest
      simp only [Forest.tops, Forest.preorder, preorderFrom, List.take_succ_cons]
      rw [h1, hrest]

/-! ## Every list of nodes has a forest -/

/-- Going down comes to an end: no node is deeper than the store is large. -/
theorem Linked.descend (h : d.Linked) : WellFounded fun child parent => d.IsParent parent child := by
  refine Subrelation.wf (fun {child parent} hp => ?_)
    (measure fun id => d.nodes.size - (d.ancestors id).length).wf
  have hlt := h.length_ancestorsUpTo_lt d.nodes.size child
  have heq := h.ancestors_of_parent? hp
  show d.nodes.size - (d.ancestors child).length < d.nodes.size - (d.ancestors parent).length
  rw [ancestors] at heq ⊢
  rw [heq, List.length_cons] at hlt ⊢
  omega

theorem Linked.exists_forest (h : d.Linked) (ids : List NodeId) :
    ∃ f : Forest NodeId, f.tops = ids ∧ d.Shows f := by
  have hbelow : ∀ id, ∃ f : Forest NodeId, f.tops = d.children id ∧ d.Shows f := by
    intro id
    induction id using h.descend.induction with
    | _ id ih =>
      have hsub : ∀ l, l ⊆ d.children id → ∃ f : Forest NodeId, f.tops = l ∧ d.Shows f := by
        intro l
        induction l with
        | nil => exact fun _ => ⟨.nil, rfl, trivial⟩
        | cons child l ihl =>
          intro hl
          obtain ⟨hc, hl⟩ := List.cons_subset.1 hl
          obtain ⟨below, hb, hsb⟩ := ih child ((h.parent_iff child id).2 hc)
          obtain ⟨rest, hr, hsr⟩ := ihl hl
          exact ⟨.cons child below rest, by rw [Forest.tops, hr], hb.symm, hsb, hsr⟩
      exact hsub _ (List.Subset.refl _)
  induction ids with
  | nil => exact ⟨.nil, rfl, trivial⟩
  | cons id rest ih =>
    obtain ⟨below, hb, hsb⟩ := hbelow id
    obtain ⟨f, hf, hsf⟩ := ih
    exact ⟨.cons id below f, by rw [Forest.tops, hf], hb.symm, hsb, hsf⟩

/-- The nodes of a forest are its tops and all nodes below them. -/
theorem Linked.mem_preorder_iff (h : d.Linked) (hf : d.Shows f) :
    other ∈ f.preorder ↔ ∃ top ∈ f.tops, Relation.ReflTransGen d.IsParent top other := by
  induction f with
  | nil => simp [Forest.preorder, Forest.tops]
  | cons id below rest ihb ihr =>
    obtain ⟨h1, h2, h3⟩ := hf
    simp only [Forest.preorder, Forest.tops, List.mem_cons, List.mem_append, exists_eq_or_imp,
      ihb h2, ihr h3, ← or_assoc]
    have hid : (other = id ∨ ∃ top ∈ below.tops, Relation.ReflTransGen d.IsParent top other) ↔
        Relation.ReflTransGen d.IsParent id other := by
      rw [Relation.ReflTransGen.cases_head_iff, ← h1, eq_comm]
      simp only [← h.parent_iff, IsParent]
    rw [hid]

theorem reflTransGen_total {a b x : NodeId} (ha : Relation.ReflTransGen d.IsParent a x)
    (hb : Relation.ReflTransGen d.IsParent b x) :
    Relation.ReflTransGen d.IsParent a b ∨ Relation.ReflTransGen d.IsParent b a := by
  have hu : Relator.RightUnique (Function.swap d.IsParent) := by
    intro c p q hp hq
    exact Option.some.inj (Eq.trans hp.symm hq)
  rw [← Relation.reflTransGen_swap] at ha hb
  rcases Relation.ReflTransGen.total_of_right_unique hu ha hb with hr | hr
  · exact .inr (Relation.reflTransGen_swap.1 hr)
  · exact .inl (Relation.reflTransGen_swap.1 hr)

/-- Neither of two nodes stands above the other, and they differ. -/
def Apart (d : Document) (a b : NodeId) : Prop :=
  ¬ Relation.ReflTransGen d.IsParent a b ∧ ¬ Relation.ReflTransGen d.IsParent b a

theorem Linked.apart_children (h : d.Linked) (id : NodeId) :
    (d.children id).Pairwise d.Apart := by
  have key : ∀ a b, a ∈ d.children id → b ∈ d.children id → a ≠ b →
      ¬ Relation.ReflTransGen d.IsParent a b := by
    intro a b ha hb hab hr
    rw [← h.parent_iff] at ha hb
    rcases Relation.ReflTransGen.cases_tail hr with he | ⟨p, hap, hp⟩
    · exact hab he.symm
    · -- The parent of `b` is the parent of `a`, so `a` would stand above its own parent.
      obtain rfl := Option.some.inj (hb.symm.trans hp)
      exact h.climb.transGen.irrefl.irrefl a (.trans_right hap (.single ha))
  exact (h.nodup id).imp_of_mem fun ha hb hab => ⟨key _ _ ha hb hab, key _ _ hb ha hab.symm⟩

/-- A forest whose tops stand apart holds no node twice. -/
theorem Linked.nodup_preorder (h : d.Linked) (hf : d.Shows f) (ha : f.tops.Pairwise d.Apart) :
    f.preorder.Nodup := by
  induction f with
  | nil => exact List.nodup_nil
  | cons id below rest ihb ihr =>
    obtain ⟨h1, h2, h3⟩ := hf
    obtain ⟨hid, hrest⟩ := List.pairwise_cons.1 ha
    have hunder : ∀ x, x ∈ below.preorder → Relation.TransGen d.IsParent id x := by
      intro x hx
      obtain ⟨top, ht, hr⟩ := (h.mem_preorder_iff h2).1 hx
      rw [← h1, ← h.parent_iff] at ht
      exact .head' ht hr
    have hapart : ∀ x, x ∈ rest.preorder → ¬ Relation.ReflTransGen d.IsParent id x := by
      intro x hx hix
      obtain ⟨top, ht, hr⟩ := (h.mem_preorder_iff h3).1 hx
      rcases reflTransGen_total hix hr with hc | hc
      · exact (hid top ht).1 hc
      · exact (hid top ht).2 hc
    simp only [Forest.preorder, List.nodup_cons, List.mem_append, not_or, List.nodup_append]
    refine ⟨⟨fun hx => ?_, fun hx => hapart id hx .refl⟩, ?_, ihr h3 hrest, ?_⟩
    · exact h.climb.transGen.irrefl.irrefl id (hunder id hx)
    · exact ihb h2 (h1 ▸ h.apart_children id)
    · rintro x hx y hy rfl
      exact hapart x hy (hunder x hx).to_reflTransGen

theorem Linked.holds_of_mem_preorder (h : d.Linked) (hf : d.Shows f) (ht : ∀ top ∈ f.tops, d.Holds top)
    (hm : other ∈ f.preorder) : d.Holds other := by
  obtain ⟨top, htop, hr⟩ := (h.mem_preorder_iff hf).1 hm
  rcases Relation.ReflTransGen.cases_tail hr with rfl | ⟨p, -, hp⟩
  · exact ht _ htop
  · exact holds_of_parent? hp

theorem Linked.length_preorder_le (h : d.Linked) (hf : d.Shows f) (ht : ∀ top ∈ f.tops, d.Holds top)
    (ha : f.tops.Pairwise d.Apart) : f.preorder.length ≤ d.nodes.size :=
  length_le_size_of_nodup (h.nodup_preorder hf ha) fun _ hm => h.holds_of_mem_preorder hf ht hm

theorem Linked.length_tree_le (h : d.Linked) (hid : d.Holds id) (ht : f.tops = d.children id)
    (hf : d.Shows f) : (Forest.cons id f .nil).preorder.length ≤ d.nodes.size :=
  h.length_preorder_le ⟨ht.symm, hf, trivial⟩ (List.forall_mem_singleton.2 hid)
    (List.pairwise_singleton _ _)

/-! ## The walk -/

theorem Linked.exists_forest_below (h : d.Linked) (id : NodeId) :
    ∃ f : Forest NodeId, f.tops = d.children id ∧ d.Shows f ∧ f.preorder.Nodup ∧
      (∀ x ∈ f.preorder, d.Holds x) ∧ f.preorder.length ≤ d.nodes.size := by
  obtain ⟨f, ht, hs⟩ := h.exists_forest (d.children id)
  have ha : f.tops.Pairwise d.Apart := ht ▸ h.apart_children id
  have hh : ∀ top ∈ f.tops, d.Holds top := fun top hm => h.child_held (ht ▸ hm)
  exact ⟨f, ht, hs, h.nodup_preorder hs ha, fun x hx => h.holds_of_mem_preorder hs hh hx,
    h.length_preorder_le hs hh ha⟩

/-- No bound from the number of nodes on changes what a walk meets below a node. -/
theorem Linked.preorderFrom_children_eq (h : d.Linked) {bound : Nat} (hb : d.nodes.size ≤ bound)
    (id : NodeId) : d.preorderFrom bound (d.children id) = d.descendants id := by
  obtain ⟨f, ht, hs, -, -, hl⟩ := h.exists_forest_below id
  rw [descendants, ← ht, hs.preorderFrom_eq, hs.preorderFrom_eq, List.take_of_length_le hl,
    List.take_of_length_le (hl.trans hb)]

/-- The descendants of a node are the preorder of the forest below it. -/
theorem Linked.descendants_eq (h : d.Linked) (ht : f.tops = d.children id) (hs : d.Shows f) :
    d.descendants id = f.preorder := by
  have hl : f.preorder.length ≤ d.nodes.size :=
    h.length_preorder_le hs (fun top hm => h.child_held (ht ▸ hm)) (ht ▸ h.apart_children id)
  rw [descendants, ← ht, hs.preorderFrom_eq, List.take_of_length_le hl]

theorem Linked.nodup_descendants (h : d.Linked) (id : NodeId) : (d.descendants id).Nodup := by
  obtain ⟨f, ht, hs, hn, -, -⟩ := h.exists_forest_below id
  rwa [h.descendants_eq ht hs]

theorem Linked.mem_descendants_iff (h : d.Linked) :
    other ∈ d.descendants id ↔ Relation.TransGen d.IsParent id other := by
  obtain ⟨f, ht, hs, -, -, -⟩ := h.exists_forest_below id
  rw [h.descendants_eq ht hs, h.mem_preorder_iff hs, ht, Relation.TransGen.head'_iff]
  simp only [← h.parent_iff, IsParent]

theorem Linked.exists_parent (h : d.Linked) (hx : other ∈ d.descendants id) :
    ∃ parent, d.parent? other = some parent ∧ Relation.ReflTransGen d.IsParent id parent := by
  obtain ⟨parent, hreach, hp⟩ := Relation.TransGen.tail'_iff.1 (h.mem_descendants_iff.1 hx)
  exact ⟨parent, hp, hreach⟩

theorem Linked.mem_descendants_of_child (h : d.Linked) {c x : NodeId}
    (hx : x = id ∨ x ∈ d.descendants id) (hc : c ∈ d.children x) : c ∈ d.descendants id := by
  rw [h.mem_descendants_iff] at hx ⊢
  have hp : d.IsParent x c := (h.parent_iff c x).2 hc
  rcases hx with rfl | hx
  · exact .single hp
  · exact hx.tail hp

/-- Where a node and all below it keep their child lists, it keeps its descendants. -/
theorem Linked.descendants_congr {d' : Document} (h : d.Linked) (h' : d'.Linked)
    (hc : ∀ x, Relation.ReflTransGen d.IsParent id x → d'.children x = d.children x) :
    d'.descendants id = d.descendants id := by
  obtain ⟨f, ht, hs, -, -, -⟩ := h.exists_forest_below id
  have hs' : d'.Shows f := by
    refine hs.congr fun x hx => hc x ?_
    obtain ⟨top, htop, hx⟩ := (h.mem_preorder_iff hs).1 hx
    rw [ht, ← h.parent_iff] at htop
    exact .head htop hx
  rw [h.descendants_eq ht hs, h'.descendants_eq (ht.trans (hc id .refl).symm) hs']

/-! ## Loops over pending nodes -/

/-- One round of a loop over pending nodes: one of them, whichever it is, makes way for its
children, in whatever order. -/
def Round (d : Document) (next pending : List NodeId) : Prop :=
  ∃ id rest, pending.Perm (id :: rest) ∧ next.Perm (d.children id ++ rest)

/-- One round of a loop over pending pairs of nodes from two stores: one of the pairs makes way for
the pairs of their children, if there are as many on both sides. -/
def PairRound (a b : Document) (next pending : List (NodeId × NodeId)) : Prop :=
  ∃ m n rest, pending.Perm ((m, n) :: rest) ∧ (a.children m).length = (b.children n).length ∧
    next.Perm ((a.children m).zip (b.children n) ++ rest)

/-- The nodes that a loop has still to meet. -/
def toMeet (d : Document) (pending : List NodeId) : List NodeId :=
  pending.flatMap fun id => id :: d.descendants id

theorem Linked.toMeet_tops (h : d.Linked) (hs : d.Shows f) : d.toMeet f.tops = f.preorder := by
  induction f with
  | nil => rfl
  | cons id below rest _ ihr =>
    obtain ⟨h1, h2, h3⟩ := hs
    have hrest : (rest.tops.flatMap fun id => id :: d.descendants id) = rest.preorder := ihr h3
    rw [Forest.tops, toMeet, List.flatMap_cons, h.descendants_eq h1.symm h2, hrest,
      List.cons_append, Forest.preorder]

/-- A node that makes way for its children leaves one node less to be met. -/
theorem Linked.toMeet_children (h : d.Linked) (id : NodeId) :
    d.toMeet (d.children id) = d.descendants id := by
  obtain ⟨f, ht, hs, -, -, -⟩ := h.exists_forest_below id
  rw [← ht, h.toMeet_tops hs, h.descendants_eq ht hs]

theorem Linked.wellFounded_round (h : d.Linked) : WellFounded d.Round := by
  refine Subrelation.wf (fun {next pending} hr => ?_)
    (measure fun pending => (d.toMeet pending).length).wf
  obtain ⟨id, rest, hp, hn⟩ := hr
  have hpending : (d.toMeet pending).length =
      ((id :: d.descendants id) ++ d.toMeet rest).length := (hp.flatMap_right _).length_eq
  have hnext : (d.toMeet next).length = (d.toMeet (d.children id) ++ d.toMeet rest).length := by
    rw [toMeet, (hn.flatMap_right _).length_eq, List.flatMap_append]
    rfl
  rw [h.toMeet_children] at hnext
  show (d.toMeet next).length < (d.toMeet pending).length
  rw [hnext, hpending, List.cons_append, List.length_cons]
  exact Nat.lt_succ_self _

/-- Loops over pending pairs of nodes come to an end, whatever the other store. -/
theorem Linked.wellFounded_pairRound (h : d.Linked) (b : Document) :
    WellFounded (d.PairRound b) := by
  refine Subrelation.wf (fun {next pending} hr => ?_)
    (InvImage.wf (List.map Prod.fst) h.wellFounded_round)
  obtain ⟨m, n, rest, hp, hl, hn⟩ := hr
  refine ⟨m, rest.map Prod.fst, hp.map Prod.fst, ?_⟩
  have hfst := hn.map Prod.fst
  rwa [List.map_append, List.map_fst_zip (Nat.le_of_eq hl)] at hfst

/-- A comparison looks at one pair for each node of the first store at most. -/
theorem Shows.sameFrom_eq (h : d.Shows f) (b : Document) {pending : List (NodeId × NodeId)}
    (hp : pending.map Prod.fst = f.tops) {bound bound' : Nat} (hb : f.preorder.length ≤ bound)
    (hb' : f.preorder.length ≤ bound') :
    sameFrom d b bound pending = sameFrom d b bound' pending := by
  induction bound generalizing f pending bound' with
  | zero =>
    cases f with
    | nil =>
      obtain rfl := List.map_eq_nil_iff.1 hp
      rw [sameFrom, sameFrom]
    | cons => simp [Forest.preorder] at hb
  | succ bound ih =>
    cases f with
    | nil =>
      obtain rfl := List.map_eq_nil_iff.1 hp
      rw [sameFrom, sameFrom]
    | cons m below rest =>
      obtain ⟨h1, h2, h3⟩ := h
      obtain ⟨⟨m', n⟩, pending, rfl, hm, hrest⟩ := List.map_eq_cons_iff.1 hp
      obtain rfl : m' = m := hm
      simp only [Forest.preorder, List.length_cons, List.length_append] at hb hb'
      obtain ⟨bound', rfl⟩ : ∃ n, bound' = n + 1 := ⟨bound' - 1, by omega⟩
      rw [sameFrom, sameFrom]
      by_cases hl : (d.children m').length = (b.children n).length
      · have hfst : ((d.children m').zip (b.children n) ++ pending).map Prod.fst =
            (below ++ rest).tops := by
          rw [List.map_append, List.map_fst_zip (Nat.le_of_eq hl), hrest, h1, Forest.tops_append]
        have hsize : (below ++ rest).preorder.length = below.preorder.length + rest.preorder.length :=
          by simp
        have hsame : sameFrom d b bound ((d.children m').zip (b.children n) ++ pending) =
            sameFrom d b bound' ((d.children m').zip (b.children n) ++ pending) :=
          ih (shows_append.2 ⟨h2, h3⟩) hfst (by omega) (by omega)
        rw [hsame]
      · have hne : ((d.children m').length == (b.children n).length) = false :=
          beq_eq_false_iff_ne.2 hl
        rw [hne, Bool.and_false, Bool.false_and, Bool.false_and]

/-- No bound from the number of nodes on changes how two documents compare. -/
theorem Linked.sameFrom_eq (h : d.Linked) (b : Document) {bound : Nat} (hb : d.nodes.size ≤ bound) :
    sameFrom d b bound [(.root, .root)] = sameFrom d b d.nodes.size [(.root, .root)] := by
  obtain ⟨f, ht, hs, -, -, -⟩ := h.exists_forest_below .root
  have hle := h.length_tree_le h.root_held ht hs
  have hshows : d.Shows (.cons .root f .nil) := ⟨ht.symm, hs, trivial⟩
  exact hshows.sameFrom_eq b rfl (hle.trans hb) hle

end Document

end SvgPress
