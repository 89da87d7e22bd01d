import SvgPress.Document.Edit
import Mathlib.Data.List.InsertIdx
import Mathlib.Data.List.Nodup
import Mathlib.Data.List.Perm.Subperm
import Mathlib.Logic.Relation
import Mathlib.Order.WellFounded
import Mathlib.Tactic.Common

/-!
# Consistent links

The links of a store are consistent when every child list and the recorded parents say the same,
no child list repeats a node, and nobody stands below itself. Detaching, moving and unwrapping
nodes keeps links consistent. In such a store the nodes above a node are all found within the bound
that `ancestors` sets.
-/

namespace SvgPress.Document

/-- The document has a node behind the handle. -/
def Holds (d : Document) (id : NodeId) : Prop :=
  id.index < d.nodes.size

instance (d : Document) (id : NodeId) : Decidable (d.Holds id) :=
  inferInstanceAs (Decidable (id.index < d.nodes.size))

/-- The recorded parent of a node. -/
def IsParent (d : Document) (parent child : NodeId) : Prop :=
  d.parent? child = some parent

/-- The links of the store are consistent. -/
structure Linked (d : Document) : Prop where
  /-- There is a root. -/
  root_held : d.Holds .root
  /-- It stands under no node. -/
  root_parent : d.parent? .root = none
  /-- A node is listed among the children of its parent and nowhere else. -/
  parent_iff : ∀ child parent, d.parent? child = some parent ↔ child ∈ d.children parent
  /-- A node is listed once. -/
  nodup : ∀ id, (d.children id).Nodup
  /-- Following parents comes to an end. -/
  climb : WellFounded d.IsParent

variable {d : Document} {id other parent child : NodeId}

/-! ## Handles -/

theorem isSome_node?_iff : (d.node? id).isSome ↔ d.Holds id := by
  simp [node?, Holds]

theorem holds_of_parent? (h : d.parent? child = some parent) : d.Holds child := by
  rw [← isSome_node?_iff]
  cases hn : d.node? child with
  | none => simp [parent?, hn] at h
  | some node => rfl

theorem holds_of_mem_children (h : child ∈ d.children parent) : d.Holds parent := by
  rw [← isSome_node?_iff]
  cases hn : d.node? parent with
  | none => simp [children, hn] at h
  | some node => rfl

theorem isSome_kind?_iff : (d.kind? id).isSome ↔ d.Holds id := by
  rw [← isSome_node?_iff, kind?, Option.isSome_map]

theorem Linked.parent_held (h : d.Linked) (hp : d.parent? child = some parent) : d.Holds parent :=
  holds_of_mem_children ((h.parent_iff child parent).1 hp)

theorem Linked.child_held (h : d.Linked) (hc : child ∈ d.children parent) : d.Holds child :=
  holds_of_parent? ((h.parent_iff child parent).2 hc)

theorem Linked.not_mem_children (h : d.Linked) (hc : d.parent? child = none) :
    child ∉ d.children parent := by
  intro hm
  rw [← h.parent_iff, hc] at hm
  exact absurd hm (by simp)

theorem Linked.ne_of_parent? (h : d.Linked) (hp : d.parent? child = some parent) :
    child ≠ parent := by
  rintro rfl
  exact h.climb.irrefl.irrefl child hp

theorem Linked.ne_root_of_parent? (h : d.Linked) (hp : d.parent? id = some parent) :
    id ≠ .root := by
  rintro rfl
  rw [h.root_parent] at hp
  exact absurd hp (by simp)

theorem Linked.not_above_root (h : d.Linked) (id : NodeId) :
    ¬ Relation.TransGen d.IsParent id .root := by
  intro ht
  obtain ⟨child, -, hc⟩ := Relation.TransGen.tail'_iff.1 ht
  exact h.ne_root_of_parent? hc rfl

/-! ## Following parents -/

/-- The nodes that a bounded climb gives stand above the node, and all of them do. -/
theorem transGen_of_mem_ancestorsUpTo {bound : Nat} (h : other ∈ d.ancestorsUpTo bound id) :
    Relation.TransGen d.IsParent other id := by
  induction bound generalizing id with
  | zero => simp [ancestorsUpTo] at h
  | succ bound ih =>
    simp only [ancestorsUpTo] at h
    cases hp : d.parent? id with
    | none => simp [hp] at h
    | some parent =>
      rw [hp] at h
      rcases List.mem_cons.1 h with rfl | h
      · exact .single hp
      · exact (ih h).tail hp

/-- A climb that used less than its bound has come to its end, so a larger bound adds nothing. -/
theorem ancestorsUpTo_eq_of_length_lt {bound larger : Nat}
    (h : (d.ancestorsUpTo bound id).length < bound) (hl : bound ≤ larger) :
    d.ancestorsUpTo larger id = d.ancestorsUpTo bound id := by
  induction bound generalizing id larger with
  | zero => exact absurd h (Nat.not_lt_zero _)
  | succ bound ih =>
    obtain ⟨larger, rfl⟩ : ∃ k, larger = k + 1 := ⟨larger - 1, by omega⟩
    simp only [ancestorsUpTo] at h ⊢
    cases hp : d.parent? id with
    | none => rfl
    | some parent =>
      simp only [hp, List.length_cons] at h ⊢
      rw [ih (by omega) (by omega)]

theorem length_le_size_of_nodup {ids : List NodeId} (hn : ids.Nodup) (hh : ∀ id ∈ ids, d.Holds id) :
    ids.length ≤ d.nodes.size := by
  have hinj : Function.Injective NodeId.index := by
    rintro ⟨i⟩ ⟨j⟩ rfl
    rfl
  have hsub : ids.map (·.index) ⊆ List.range d.nodes.size := by
    intro i hi
    obtain ⟨id, hid, rfl⟩ := List.mem_map.1 hi
    exact List.mem_range.2 (hh id hid)
  have hle := (List.subperm_of_subset (hn.map hinj) hsub).length_le
  simpa using hle

/-- A climb meets no node twice and does not meet the node it starts from. -/
theorem Linked.nodup_climb (h : d.Linked) (bound : Nat) (id : NodeId) :
    (id :: d.ancestorsUpTo bound id).Nodup := by
  induction bound generalizing id with
  | zero => simp [ancestorsUpTo]
  | succ bound ih =>
    rw [List.nodup_cons]
    refine ⟨fun hm => ?_, ?_⟩
    · exact h.climb.transGen.irrefl.irrefl id (transGen_of_mem_ancestorsUpTo hm)
    · simp only [ancestorsUpTo]
      cases hp : d.parent? id with
      | none => simp
      | some parent => exact ih parent

theorem Linked.holds_of_mem_climb (h : d.Linked) {bound : Nat}
    (hm : other ∈ d.ancestorsUpTo bound id) : d.Holds other := by
  obtain ⟨child, hc, -⟩ := Relation.TransGen.head'_iff.1 (transGen_of_mem_ancestorsUpTo hm)
  exact h.parent_held hc

/-- The bound of `ancestors` is more than a climb needs. -/
theorem Linked.length_ancestorsUpTo_lt (h : d.Linked) (bound : Nat) (id : NodeId) :
    (d.ancestorsUpTo bound id).length < d.nodes.size := by
  by_cases hid : d.Holds id
  · have hle := length_le_size_of_nodup (h.nodup_climb bound id) (by
      intro other hm
      rcases List.mem_cons.1 hm with rfl | hm
      · exact hid
      · exact h.holds_of_mem_climb hm)
    rw [List.length_cons] at hle
    omega
  · have hp : d.parent? id = none := by
      by_contra hc
      obtain ⟨parent, hp⟩ := Option.ne_none_iff_exists'.1 hc
      exact hid (holds_of_parent? hp)
    have hroot := h.root_held
    have hnil : d.ancestorsUpTo bound id = [] := by cases bound <;> simp [ancestorsUpTo, hp]
    rw [hnil]
    exact lt_of_le_of_lt (Nat.zero_le _) hroot

/-- No bound from the number of nodes on changes what a climb meets. -/
theorem Linked.ancestorsUpTo_eq (h : d.Linked) {bound : Nat} (hb : d.nodes.size ≤ bound)
    (id : NodeId) : d.ancestorsUpTo bound id = d.ancestors id :=
  ancestorsUpTo_eq_of_length_lt (h.length_ancestorsUpTo_lt _ id) hb

theorem Linked.ancestors_of_parent? (h : d.Linked) (hp : d.parent? child = some parent) :
    d.ancestors child = parent :: d.ancestors parent := by
  rw [← h.ancestorsUpTo_eq (Nat.le_succ _) child, ancestorsUpTo, hp]
  rfl

/-- The nodes above a node are those that following parents reaches. -/
theorem Linked.mem_ancestors_iff (h : d.Linked) :
    other ∈ d.ancestors id ↔ Relation.TransGen d.IsParent other id := by
  refine ⟨transGen_of_mem_ancestorsUpTo, fun ht => ?_⟩
  induction ht with
  | single hp => simp [h.ancestors_of_parent? hp]
  | tail _ hp ih => rw [h.ancestors_of_parent? hp]; exact List.mem_cons_of_mem _ ih

/-- `isAncestorOrSelf` answers whether following parents, perhaps not at all, leads to a node. -/
theorem Linked.isAncestorOrSelf_iff (h : d.Linked) :
    d.isAncestorOrSelf other id = true ↔ Relation.ReflTransGen d.IsParent other id := by
  rw [Relation.reflTransGen_iff_eq_or_transGen, ← h.mem_ancestors_iff]
  simp [isAncestorOrSelf]

/-! ## Changing payloads and adding nodes -/

theorem Linked.of_links (h : d.Linked) {d' : Document} (hs : d'.nodes.size = d.nodes.size)
    (hp : ∀ id, d'.parent? id = d.parent? id) (hc : ∀ id, d'.children id = d.children id) :
    d'.Linked where
  root_held := by simpa [Holds, hs] using h.root_held
  root_parent := by rw [hp]; exact h.root_parent
  parent_iff child parent := by rw [hp, hc]; exact h.parent_iff child parent
  nodup id := by rw [hc]; exact h.nodup id
  climb := Subrelation.wf (fun {a b} hab => by rwa [IsParent, hp] at hab) h.climb

theorem Linked.setKind (h : d.Linked) (id : NodeId) (kind : NodeKind) :
    (d.setKind id kind).Linked :=
  h.of_links (by simp [Document.setKind]) (by simp) (by simp)

theorem not_holds_create (kind : NodeKind) : ¬ d.Holds (d.create kind).2 :=
  Nat.lt_irrefl _

theorem parent?_create (kind : NodeKind) (id : NodeId) :
    (d.create kind).1.parent? id = d.parent? id := by
  simp only [parent?, node?_create]
  split
  · rename_i h
    subst h
    have hn : d.node? (d.create kind).2 = none := by
      rw [← Option.not_isSome_iff_eq_none, isSome_node?_iff]
      exact not_holds_create kind
    rw [hn]
    rfl
  · rfl

theorem children_create (kind : NodeKind) (id : NodeId) :
    (d.create kind).1.children id = d.children id := by
  simp only [children, node?_create]
  split
  · rename_i h
    subst h
    have hn : d.node? (d.create kind).2 = none := by
      rw [← Option.not_isSome_iff_eq_none, isSome_node?_iff]
      exact not_holds_create kind
    rw [hn]
    rfl
  · rfl

@[simp] theorem size_create (kind : NodeKind) :
    (d.create kind).1.nodes.size = d.nodes.size + 1 := by
  simp [create]

theorem holds_create_of_holds (h : d.Holds id) (kind : NodeKind) :
    (d.create kind).1.Holds id := by
  rw [Holds, size_create]
  exact Nat.lt_succ_of_lt h

theorem holds_create (kind : NodeKind) : (d.create kind).1.Holds (d.create kind).2 := by
  simp [Holds, create]

theorem kind?_create_of_holds (h : d.Holds id) (kind : NodeKind) :
    (d.create kind).1.kind? id = d.kind? id := by
  have hne : id ≠ (d.create kind).2 := by
    rintro rfl
    exact not_holds_create kind h
  rw [Document.kind?, node?_create, if_neg hne, Document.kind?]

theorem kind?_create_self (kind : NodeKind) :
    (d.create kind).1.kind? (d.create kind).2 = some kind := by
  rw [Document.kind?, node?_create, if_pos rfl]
  rfl

theorem Linked.create (h : d.Linked) (kind : NodeKind) : (d.create kind).1.Linked where
  root_held := holds_create_of_holds h.root_held kind
  root_parent := by rw [parent?_create]; exact h.root_parent
  parent_iff child parent := by
    rw [parent?_create, children_create]
    exact h.parent_iff child parent
  nodup id := by rw [children_create]; exact h.nodup id
  climb := Subrelation.wf (fun {a b} hab => by rwa [IsParent, parent?_create] at hab) h.climb

/-! ## Moving nodes -/

@[simp] theorem size_detach (d : Document) (id : NodeId) :
    (d.detach id).nodes.size = d.nodes.size := by
  simp only [detach]
  split <;> simp [setParent, modifyChildren]

@[simp] theorem kind?_detach (d : Document) (id other : NodeId) :
    (d.detach id).kind? other = d.kind? other := by
  simp only [detach]
  split <;> simp

theorem prolog_detach (d : Document) (id : NodeId) :
    (d.detach id).declaration = d.declaration ∧ (d.detach id).doctype = d.doctype := by
  rw [detach]
  cases d.parent? id with
  | none => exact ⟨rfl, rfl⟩
  | some parent => exact ⟨rfl, rfl⟩

theorem parent?_detach (d : Document) (id other : NodeId) :
    (d.detach id).parent? other = if other = id then none else d.parent? other := by
  simp only [detach]
  split
  · rename_i hp
    split
    · rename_i he
      rw [he, hp]
    · rfl
  · rw [parent?_modifyChildren, parent?_setParent]
    split
    · cases d.node? other <;> rfl
    · rfl

/-- A detached node is in no child list; the lists are unchanged otherwise. -/
theorem Linked.children_detach (h : d.Linked) (id other : NodeId) :
    (d.detach id).children other = (d.children other).filter (· != id) := by
  have hkeep : id ∉ d.children other →
      d.children other = (d.children other).filter (· != id) := by
    intro hn
    rw [eq_comm, List.filter_eq_self]
    intro x hx
    have hne : x ≠ id := by
      rintro rfl
      exact hn hx
    simpa using hne
  simp only [detach]
  split
  · rename_i hp
    exact hkeep (h.not_mem_children hp)
  · rename_i parent hp
    rw [children_modifyChildren, children_setParent]
    split
    · rfl
    · rename_i hne
      refine hkeep fun hm => hne ?_
      have he : parent = other := by
        rw [← h.parent_iff, hp] at hm
        exact Option.some.inj hm
      subst he
      refine ⟨rfl, ?_⟩
      rw [isSome_node?_iff, Holds, setParent, size_modifyNode]
      exact h.parent_held hp

theorem Linked.detach (h : d.Linked) (id : NodeId) : (d.detach id).Linked where
  root_held := by simpa [Holds] using h.root_held
  root_parent := by rw [parent?_detach, h.root_parent, ite_self]
  parent_iff child parent := by
    rw [parent?_detach, h.children_detach, List.mem_filter, ← h.parent_iff]
    by_cases he : child = id <;> simp [he]
  nodup other := by rw [h.children_detach]; exact (h.nodup other).filter _
  climb := by
    refine Subrelation.wf (fun {a b} hab => ?_) h.climb
    rw [IsParent, parent?_detach] at hab
    split at hab
    · exact absurd hab (by simp)
    · exact hab

@[simp] theorem size_attach (d : Document) (parent : NodeId) (index : Nat) (child : NodeId) :
    (d.attach parent index child).nodes.size = d.nodes.size := by
  simp [attach, setParent, modifyChildren]

@[simp] theorem kind?_attach (d : Document) (parent : NodeId) (index : Nat) (child other : NodeId) :
    (d.attach parent index child).kind? other = d.kind? other := by
  simp [attach]

theorem parent?_attach (hc : d.Holds child) (parent : NodeId) (index : Nat) (other : NodeId) :
    (d.attach parent index child).parent? other =
      if other = child then some parent else d.parent? other := by
  rw [attach, parent?_setParent, parent?_modifyChildren]
  split
  · rename_i he
    subst he
    have hs : ((d.modifyChildren parent (·.insertIdx index other)).node? other).isSome := by
      rw [isSome_node?_iff, Holds, modifyChildren, size_modifyNode]
      exact hc
    obtain ⟨node, hn⟩ := Option.isSome_iff_exists.1 hs
    rw [hn]
    rfl
  · rfl

/-- An attached node stands at its place among the children of the new parent. -/
theorem children_attach (hp : d.Holds parent) (index : Nat) (child other : NodeId) :
    (d.attach parent index child).children other =
      if other = parent then (d.children other).insertIdx index child else d.children other := by
  rw [attach, children_setParent, children_modifyChildren]
  by_cases he : other = parent
  · subst he
    simp [isSome_node?_iff.2 hp]
  · simp [he]

/-- Nodes that do not stand below `child` are still reached by climbing when `child` is put under
one of them. -/
theorem climb_attach (hw : WellFounded d.IsParent)
    (hn : ¬ Relation.ReflTransGen d.IsParent child parent) :
    WellFounded fun above id =>
      (if id = child then some parent else d.parent? id) = some above := by
  -- First the nodes outside the subtree of `child`, whose parents are as before.
  have outside : ∀ id, ¬ Relation.ReflTransGen d.IsParent child id →
      Acc (fun above id => (if id = child then some parent else d.parent? id) = some above) id := by
    intro id
    induction id using hw.induction with
    | _ id ih =>
      intro hid
      refine ⟨_, fun above ha => ?_⟩
      have hne : id ≠ child := by
        rintro rfl
        exact hid .refl
      rw [if_neg hne] at ha
      exact ih above ha fun hr => hid (hr.tail ha)
  refine ⟨fun id => ?_⟩
  induction id using hw.induction with
  | _ id ih =>
    refine ⟨_, fun above ha => ?_⟩
    split at ha
    · obtain rfl := Option.some.inj ha
      exact outside parent hn
    · exact ih above ha

/-- A node without a parent can be put under any node that does not stand below it. -/
theorem Linked.attach (h : d.Linked) {index : Nat} (hc : d.Holds child) (hr : child ≠ .root)
    (hnone : d.parent? child = none) (hp : d.Holds parent)
    (hn : ¬ Relation.ReflTransGen d.IsParent child parent)
    (hi : index ≤ (d.children parent).length) : (d.attach parent index child).Linked where
  root_held := by simpa [Holds] using h.root_held
  root_parent := by rw [parent?_attach hc, if_neg hr.symm]; exact h.root_parent
  parent_iff other above := by
    rw [parent?_attach hc, children_attach hp]
    have hfree : child ∉ d.children above := h.not_mem_children hnone
    by_cases he : above = parent
    · subst he
      rw [if_pos rfl, List.mem_insertIdx hi, ← h.parent_iff]
      by_cases ho : other = child <;> simp [ho]
    · rw [if_neg he, ← h.parent_iff]
      by_cases ho : other = child
      · subst ho
        simp [hnone, Ne.symm he]
      · simp [ho]
  nodup other := by
    rw [children_attach hp]
    split
    · rename_i he
      subst he
      rw [(List.perm_insertIdx child _ hi).nodup_iff, List.nodup_cons]
      exact ⟨h.not_mem_children hnone, h.nodup other⟩
    · exact h.nodup other
  climb := by
    refine Subrelation.wf (fun {a b} hab => ?_) (climb_attach h.climb hn)
    rwa [IsParent, parent?_attach hc] at hab

/-- The places that an insertion counts are those in the child list once the node has left it. -/
theorem Linked.placesUnder_eq (h : d.Linked) (parent child : NodeId) :
    d.placesUnder parent child = ((d.detach child).children parent).length := by
  rw [h.children_detach, ← (h.nodup parent).erase_eq_filter, List.length_erase, placesUnder]
  by_cases hm : child ∈ d.children parent
  · simp [hm, (h.parent_iff child parent).2 hm]
  · have hp : d.parent? child ≠ some parent := by rwa [Ne, h.parent_iff]
    simp [hm, hp]

/-- What an insertion asks for, and what it then does. -/
theorem insertChild_eq_ok_iff {index : Nat} {d' : Document} :
    d.insertChild parent index child = .ok d' ↔
      child ≠ .root ∧ d.isContainer parent = true ∧ d.isAncestorOrSelf child parent = false ∧
      d.addsDocumentElement parent child = false ∧ index ≤ d.placesUnder parent child ∧
      d' = (d.detach child).attach parent index child := by
  simp only [insertChild]
  split_ifs with h1 h2 h3 h4 h5
  · simp [h1]
  · simp only [Bool.not_eq_true'] at h2
    simp [h2]
  · simp [h3]
  · simp [h4]
  · have hle : ¬ index ≤ d.placesUnder parent child := by omega
    simp [hle]
  · rw [Except.ok.injEq, eq_comm]
    refine ⟨fun he => ⟨h1, by simpa using h2, by simpa using h3, by simpa using h4, by omega, he⟩,
      fun he => he.2.2.2.2.2⟩

theorem holds_of_isContainer (h : d.isContainer id = true) : d.Holds id := by
  rw [← isSome_kind?_iff]
  cases hk : d.kind? id with
  | none => simp [isContainer, hk] at h
  | some kind => rfl

theorem isParent_of_detach (h : (d.detach id).IsParent parent child) : d.IsParent parent child := by
  rw [IsParent, parent?_detach] at h
  split at h
  · exact absurd h (by simp)
  · exact h

/-- An insertion that is not refused keeps links consistent. -/
theorem Linked.insertChild (h : d.Linked) {index : Nat} {d' : Document} (hc : d.Holds child)
    (hi : d.insertChild parent index child = .ok d') : d'.Linked := by
  obtain ⟨hroot, hcontainer, habove, -, hindex, rfl⟩ := insertChild_eq_ok_iff.1 hi
  have hp := holds_of_isContainer hcontainer
  refine (h.detach child).attach ?_ hroot ?_ ?_ ?_ ?_
  · rwa [Holds, size_detach]
  · rw [parent?_detach, if_pos rfl]
  · rwa [Holds, size_detach]
  · intro hr
    have hr' : Relation.ReflTransGen d.IsParent child parent :=
      Relation.ReflTransGen.mono (fun _ _ => isParent_of_detach) _ _ hr
    rw [← h.isAncestorOrSelf_iff, habove] at hr'
    exact absurd hr' (by simp)
  · rwa [← h.placesUnder_eq]

/-! ## Unwrapping -/

theorem size_foldl_setParent (children : List NodeId) (parent : NodeId) (d : Document) :
    (children.foldl (fun d child => d.setParent child (some parent)) d).nodes.size =
      d.nodes.size := by
  induction children generalizing d with
  | nil => rfl
  | cons child rest ih => rw [List.foldl_cons, ih]; simp [setParent]

theorem kind?_foldl_setParent (children : List NodeId) (parent : NodeId) (d : Document)
    (id : NodeId) :
    (children.foldl (fun d child => d.setParent child (some parent)) d).kind? id = d.kind? id := by
  induction children generalizing d with
  | nil => rfl
  | cons child rest ih => rw [List.foldl_cons, ih, kind?_setParent]

theorem children_foldl_setParent (children : List NodeId) (parent : NodeId) (d : Document)
    (id : NodeId) :
    (children.foldl (fun d child => d.setParent child (some parent)) d).children id =
      d.children id := by
  induction children generalizing d with
  | nil => rfl
  | cons child rest ih => rw [List.foldl_cons, ih, children_setParent]

theorem parent?_foldl_setParent (children : List NodeId) (parent : NodeId) (d : Document)
    (hh : ∀ child ∈ children, d.Holds child) (id : NodeId) :
    (children.foldl (fun d child => d.setParent child (some parent)) d).parent? id =
      if id ∈ children then some parent else d.parent? id := by
  induction children generalizing d with
  | nil => rfl
  | cons child rest ih =>
    have hrest : ∀ other ∈ rest, (d.setParent child (some parent)).Holds other := by
      intro other ho
      rw [Holds, setParent, size_modifyNode]
      exact hh other (List.mem_cons_of_mem _ ho)
    rw [List.foldl_cons, ih _ hrest, parent?_setParent]
    by_cases he : id = child
    · subst he
      obtain ⟨node, hn⟩ := Option.isSome_iff_exists.1
        (isSome_node?_iff.2 (hh id List.mem_cons_self))
      simp [hn]
    · simp [he]

theorem prolog_foldl_setParent (children : List NodeId) (parent : NodeId) (d : Document) :
    (children.foldl (fun d child => d.setParent child (some parent)) d).declaration =
        d.declaration ∧
      (children.foldl (fun d child => d.setParent child (some parent)) d).doctype = d.doctype := by
  induction children generalizing d with
  | nil => exact ⟨rfl, rfl⟩
  | cons child rest ih => exact ih (d.setParent child (some parent))

/-- The document after an element below `parent` has been replaced by its children. -/
def spliced (d : Document) (parent id : NodeId) : Document :=
  let index := (d.indexInParent? id).getD 0
  let children := d.children id
  let adopted := children.foldl (fun d child => d.setParent child (some parent)) d
  let emptied := adopted.modifyNode id fun node => { node with parent := none, children := [] }
  emptied.modifyChildren parent fun siblings =>
    siblings.take index ++ children ++ siblings.drop (index + 1)

/-- What unwrapping asks for, and what it then does. -/
theorem unwrap_eq_ok_iff {d' : Document} :
    d.unwrap id = .ok d' ↔
      ∃ parent, d.parent? id = some parent ∧ d.isElement id = true ∧
        (parent = .root → (d.childElements id).length = 1) ∧ d' = d.spliced parent id := by
  simp only [unwrap]
  cases hp : d.parent? id with
  | none => simp
  | some parent =>
    simp only [Option.some.injEq, exists_eq_left']
    split_ifs with h1 h2
    · simp only [Bool.not_eq_true'] at h1
      simp [h1]
    · simp only [Bool.and_eq_true, decide_eq_true_eq, bne_iff_ne] at h2
      simp [h2]
    · simp only [Bool.and_eq_true, decide_eq_true_eq, bne_iff_ne, not_and, not_not] at h2
      rw [Except.ok.injEq, eq_comm]
      exact ⟨fun he => ⟨by simpa using h1, h2, he⟩, fun he => he.2.2⟩

@[simp] theorem size_spliced (d : Document) (parent id : NodeId) :
    (d.spliced parent id).nodes.size = d.nodes.size := by
  simp only [spliced, modifyChildren, size_modifyNode, size_foldl_setParent]

@[simp] theorem kind?_spliced (d : Document) (parent id other : NodeId) :
    (d.spliced parent id).kind? other = d.kind? other := by
  simp only [spliced, kind?_modifyChildren]
  rw [← kind?_foldl_setParent (d.children id) parent d other]
  simp only [kind?, node?_modifyNode]
  split <;> simp [Function.comp_def]

theorem prolog_spliced (d : Document) (parent id : NodeId) :
    (d.spliced parent id).declaration = d.declaration ∧
      (d.spliced parent id).doctype = d.doctype :=
  prolog_foldl_setParent (d.children id) parent d

theorem Linked.parent?_spliced (h : d.Linked) (parent id other : NodeId) :
    (d.spliced parent id).parent? other =
      if other = id then none else if other ∈ d.children id then some parent
      else d.parent? other := by
  have hh : ∀ child ∈ d.children id, d.Holds child := fun child hc => h.child_held hc
  simp only [spliced, parent?_modifyChildren]
  rw [← parent?_foldl_setParent (d.children id) parent d hh other]
  simp only [parent?, node?_modifyNode]
  split
  · cases (List.foldl _ d (d.children id)).node? other <;> rfl
  · rfl

/-- A node is found in the child list of its parent, with its siblings before and after it. -/
theorem Linked.exists_siblings (h : d.Linked) (hp : d.parent? id = some parent) :
    ∃ before after, d.children parent = before ++ id :: after ∧
      d.indexInParent? id = some before.length := by
  obtain ⟨before, after, hsplit⟩ := List.append_of_mem ((h.parent_iff id parent).1 hp)
  have hn := h.nodup parent
  rw [hsplit, List.nodup_append] at hn
  refine ⟨before, after, hsplit, ?_⟩
  rw [indexInParent?, hp, Option.bind_some, hsplit, List.idxOf?_eq_some_iff]
  refine ⟨by simp, by simp, fun j hj he => ?_⟩
  rw [List.getElem_append_left hj] at he
  exact hn.2.2 id (he ▸ List.getElem_mem hj) id List.mem_cons_self rfl

/-- An unwrapped element has no children, and they stand in its place. -/
theorem Linked.children_spliced (h : d.Linked) (hp : d.parent? id = some parent)
    {before after : List NodeId} (hsplit : d.children parent = before ++ id :: after)
    (hi : d.indexInParent? id = some before.length) (other : NodeId) :
    (d.spliced parent id).children other =
      if other = parent then before ++ d.children id ++ after
      else if other = id then [] else d.children other := by
  have hne : id ≠ parent := h.ne_of_parent? hp
  have hheld : d.Holds parent := h.parent_held hp
  simp only [spliced, children_modifyChildren, hi, Option.getD_some]
  have hchildren : ∀ other, (((d.children id).foldl (fun d child => d.setParent child (some parent))
      d).modifyNode id fun node => { node with parent := none, children := [] }).children other =
        if other = id then [] else d.children other := by
    intro other
    rw [← children_foldl_setParent (d.children id) parent d other]
    simp only [children, node?_modifyNode]
    split
    · cases (List.foldl _ d _).node? other <;> rfl
    · rfl
  rw [hchildren]
  by_cases he : other = parent
  · subst he
    have hnode : (((d.children id).foldl (fun d child => d.setParent child (some other))
        d).modifyNode id fun node => { node with parent := none, children := [] }).node?
          other |>.isSome := by
      rwa [isSome_node?_iff, Holds, size_modifyNode, size_foldl_setParent]
    have hdrop : (before ++ id :: after).drop (before.length + 1) = after := by
      rw [← List.drop_drop, List.drop_left]
      rfl
    rw [if_pos rfl, if_pos ⟨rfl, hnode⟩, if_neg hne.symm, hsplit, List.take_left, hdrop]
  · simp [he]

/-- What stands above a node after unwrapping stood above it before. -/
theorem Linked.transGen_of_spliced (h : d.Linked) (hp : d.parent? id = some parent)
    {above below : NodeId} (hab : (d.spliced parent id).IsParent above below) :
    Relation.TransGen d.IsParent above below := by
  rw [IsParent, h.parent?_spliced] at hab
  split_ifs at hab with h1 h2
  · obtain rfl := Option.some.inj hab
    exact .tail (.single hp) ((h.parent_iff below id).2 h2)
  · exact .single hab

theorem mem_replace {before after replacement : List NodeId} (hn : (before ++ id :: after).Nodup) :
    other ∈ before ++ replacement ++ after ↔
      other ∈ replacement ∨ (other ∈ before ++ id :: after ∧ other ≠ id) := by
  rw [List.nodup_append, List.nodup_cons] at hn
  obtain ⟨-, ⟨hafter, -⟩, hbefore⟩ := hn
  have hbefore' : id ∉ before := fun hb => hbefore id hb id List.mem_cons_self rfl
  simp only [List.mem_append, List.mem_cons]
  by_cases he : other = id
  · subst he
    simp [hafter, hbefore']
  · simp only [he, false_or, ne_eq, not_false_eq_true, and_true]
    tauto

theorem nodup_replace {before after replacement : List NodeId} (hn : (before ++ id :: after).Nodup)
    (hr : replacement.Nodup) (hd : ∀ x ∈ before ++ id :: after, x ∉ replacement) :
    (before ++ replacement ++ after).Nodup := by
  rw [List.nodup_append, List.nodup_cons] at hn
  obtain ⟨hbefore, ⟨-, hafter⟩, happart⟩ := hn
  rw [List.append_assoc, List.nodup_append, List.nodup_append]
  refine ⟨hbefore, ⟨hr, hafter, ?_⟩, ?_⟩
  · rintro x hx y hy rfl
    exact hd x (by simp [hy]) hx
  · intro x hx y hy
    rcases List.mem_append.1 hy with hy | hy
    · rintro rfl
      exact hd x (by simp [hx]) hy
    · exact happart x hx y (List.mem_cons_of_mem _ hy)

/-- An unwrapped element is listed nowhere, and its children where it was. -/
theorem Linked.parent_iff_spliced (h : d.Linked) (hp : d.parent? id = some parent)
    (child above : NodeId) : (d.spliced parent id).parent? child = some above ↔
      child ∈ (d.spliced parent id).children above := by
  obtain ⟨before, after, hsplit, hi⟩ := h.exists_siblings hp
  have hn : (before ++ id :: after).Nodup := hsplit ▸ h.nodup parent
  rw [h.parent?_spliced, h.children_spliced hp hsplit hi]
  by_cases ha : above = parent
  · subst ha
    rw [if_pos rfl, mem_replace hn, ← hsplit, ← h.parent_iff child above]
    have hid : id ∉ d.children id := fun hm => h.ne_of_parent? ((h.parent_iff id id).2 hm) rfl
    by_cases hc : child = id
    · simp [hc, hid]
    · by_cases hk : child ∈ d.children id <;> simp [hc, hk]
  · rw [if_neg ha]
    by_cases hc : child = id
    · subst hc
      have hother : d.parent? child ≠ some above := by
        rw [hp]
        simpa using Ne.symm ha
      by_cases hi : above = child
      · simp [hi]
      · simpa [hi, ← h.parent_iff] using hother
    · by_cases hi : above = id
      · subst hi
        by_cases hk : child ∈ d.children above
        · simp [hc, hk, Ne.symm ha]
        · simpa [hc, hk] using mt (h.parent_iff child above).1 hk
      · by_cases hk : child ∈ d.children id
        · have hother : child ∉ d.children above := by
            rw [← h.parent_iff, (h.parent_iff child id).2 hk]
            simpa using Ne.symm hi
          simp [hc, hi, hk, hother, Ne.symm ha]
        · simp [hc, hi, hk, h.parent_iff]

/-- Unwrapping keeps links consistent. -/
theorem Linked.unwrap (h : d.Linked) {d' : Document} (hu : d.unwrap id = .ok d') : d'.Linked := by
  obtain ⟨parent, hp, -, -, rfl⟩ := unwrap_eq_ok_iff.1 hu
  have hroot : id ≠ .root := h.ne_root_of_parent? hp
  refine ⟨?_, ?_, h.parent_iff_spliced hp, fun other => ?_, ?_⟩
  · simpa [Holds] using h.root_held
  · have hnot : NodeId.root ∉ d.children id := h.not_mem_children h.root_parent
    rw [h.parent?_spliced, if_neg hroot.symm, if_neg hnot, h.root_parent]
  · obtain ⟨before, after, hsplit, hi⟩ := h.exists_siblings hp
    rw [h.children_spliced hp hsplit hi]
    split_ifs
    · -- A node that stands beside the element does not stand below it.
      refine nodup_replace (hsplit ▸ h.nodup parent) (h.nodup id) fun x hx hx' => ?_
      rw [← hsplit, ← h.parent_iff] at hx
      rw [← h.parent_iff, hx] at hx'
      exact h.ne_of_parent? hp (Option.some.inj hx').symm
    · exact List.nodup_nil
    · exact h.nodup other
  · exact Subrelation.wf (fun {_ _} hab => h.transGen_of_spliced hp hab) h.climb.transGen

end SvgPress.Document
