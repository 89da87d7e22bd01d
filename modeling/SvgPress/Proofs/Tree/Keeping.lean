import SvgPress.Proofs.Tree.Payload

/-!
# Stores that keep what they had

A store keeps what another one had if every node of that one is found in it as it was. Nodes may
have come after them, but no old node leads to a new one. So the trees that stood in the old store
stand in the new one, and two such documents are the same.
-/

namespace SvgPress

namespace Document

open Relation

/-- All nodes of the first store are found in the second one as they were, with what precedes the
tree. -/
structure Kept (d d' : Document) : Prop where
  declaration : d'.declaration = d.declaration
  doctype : d'.doctype = d.doctype
  node?_eq : ∀ id, d.Holds id → d'.node? id = d.node? id

variable {d d' source : Document} {id other top : NodeId} {f : Forest NodeId}

namespace Kept

theorem refl (d : Document) : Kept d d :=
  ⟨rfl, rfl, fun _ _ => rfl⟩

theorem kind?_eq (h : Kept d d') (hid : d.Holds id) : d'.kind? id = d.kind? id := by
  rw [kind?, kind?, h.node?_eq id hid]

theorem parent?_eq (h : Kept d d') (hid : d.Holds id) : d'.parent? id = d.parent? id := by
  rw [parent?, parent?, h.node?_eq id hid]

theorem children_eq (h : Kept d d') (hid : d.Holds id) : d'.children id = d.children id := by
  rw [children, children, h.node?_eq id hid]

theorem childElements_eq (h : Kept d d') (hl : d.Linked) (hid : d.Holds id) :
    d'.childElements id = d.childElements id := by
  rw [childElements, childElements, h.children_eq hid]
  exact List.filter_congr fun x hx => isElement_congr (h.kind?_eq (hl.child_held hx))

theorem holds (h : Kept d d') (hid : d.Holds id) : d'.Holds id := by
  rw [← isSome_node?_iff] at hid ⊢
  rwa [h.node?_eq id (isSome_node?_iff.1 hid)]

theorem size_le (h : Kept d d') : d.nodes.size ≤ d'.nodes.size := by
  by_contra hlt
  have hheld : d.Holds ⟨d'.nodes.size⟩ := Nat.lt_of_not_le hlt
  exact Nat.lt_irrefl _ (h.holds hheld)

theorem shows (h : Kept d d') (hs : d.Shows f) (hh : ∀ id ∈ f.preorder, d.Holds id) : d'.Shows f :=
  hs.congr fun id hid => h.children_eq (hh id hid)

/-- No old node leads to a new one. -/
theorem holds_of_above (h : Kept d d') (hl : d.Linked) (hl' : d'.Linked) (hid : d.Holds id)
    (hr : ReflTransGen d'.IsParent id other) : d.Holds other := by
  induction hr with
  | refl => exact hid
  | @tail above below _ hp ih =>
    have hchild : below ∈ d'.children above := (hl'.parent_iff below above).1 hp
    rw [h.children_eq ih] at hchild
    exact hl.child_held hchild

/-- No new node leads to an old one. -/
theorem holds_of_below (h : Kept d d') (hl : d.Linked) (hid : d.Holds id)
    (hr : ReflTransGen d'.IsParent other id) : d.Holds other := by
  induction hr using ReflTransGen.head_induction_on with
  | refl => exact hid
  | head hp _ ih =>
    rw [IsParent, h.parent?_eq ih] at hp
    exact hl.parent_held hp

/-- What stands below the root says the same as before. -/
theorem payloads_eq (h : Kept d d') (hl : d.Linked) (hl' : d'.Linked) :
    d'.payloads = d.payloads := by
  obtain ⟨f, ht, hs, -, hh, -⟩ := hl.exists_forest_below .root
  have ht' : f.tops = d'.children .root := by rw [ht, h.children_eq hl.root_held]
  rw [hl.payloads_eq ht hs, hl'.payloads_eq ht' (h.shows hs hh)]
  refine Forest.map_congr fun id hid => ?_
  rw [kindOf, kindOf, h.kind?_eq (hh id hid)]

theorem same (h : Kept d d') (hl : d.Linked) (hl' : d'.Linked) : d'.same d = true :=
  (hl'.same_iff hl (h.kind?_eq hl.root_held)).2
    ⟨h.declaration, h.doctype, h.payloads_eq hl hl'⟩

end Kept

/-- Copying a subtree keeps what there was. -/
theorem Linked.kept_graft (hs : source.Linked) (ht : source.Holds top) :
    Kept d (d.graft source top).1 := by
  obtain ⟨f, hf, hshows, -, -, -⟩ := hs.exists_forest_below top
  have hgraft := hs.graft_eq (d := d) ht hf hshows
  refine ⟨?_, ?_, fun id hid => hs.node?_graft_of_lt ht hid⟩
  · rw [hgraft]
    rfl
  · rw [hgraft]
    rfl

end Document

end SvgPress
