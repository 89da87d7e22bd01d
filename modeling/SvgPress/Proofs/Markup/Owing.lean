import SvgPress.Markup.Writer
import SvgPress.Proofs.Tree.Keeping

/-!
# What the writer owes

A pending piece costs the writer at most so many steps: a node stands for itself and all that is
below it. The bound of the writer covers what it owes for a node of a linked store, whatever the
payloads are. So a document is written from any store that has kept its nodes, and a refusal to
write comes out the same.
-/

namespace SvgPress.Markup

open Document

/-- The number of steps that a pending piece takes at most. A node below another one takes one step,
one for the line break before it, and two for its end tag. -/
def cost (d : Document) : Pending → Nat
  | .node id _ _ => 4 * (d.descendants id).length + 3
  | .lineBreak _ => 1
  | .endTag _ => 1

/-- The number of steps that pending pieces take at most. -/
def costs (d : Document) : List Pending → Nat
  | [] => 0
  | piece :: pending => cost d piece + costs d pending

/-- All pending nodes are nodes of the document. -/
def HeldBy (d : Document) (pending : List Pending) : Prop :=
  ∀ id depth preserving, .node id depth preserving ∈ pending → d.Holds id

variable {style : Style} {d d' : Document} {id : NodeId} {e : Element} {depth : Nat} {around : Bool}

theorem cost_pos (d : Document) (piece : Pending) : 0 < cost d piece := by
  cases piece <;> simp [cost]

theorem costs_append (d : Document) (pending pending' : List Pending) :
    costs d (pending ++ pending') = costs d pending + costs d pending' := by
  induction pending with
  | nil => exact (Nat.zero_add _).symm
  | cons piece pending ih => rw [List.cons_append, costs, costs, ih, Nat.add_assoc]

theorem HeldBy.append {pending pending' : List Pending} (h : HeldBy d pending)
    (h' : HeldBy d pending') : HeldBy d (pending ++ pending') := by
  intro id depth preserving hm
  rcases List.mem_append.1 hm with hm | hm
  · exact h id depth preserving hm
  · exact h' id depth preserving hm

theorem HeldBy.tail {piece : Pending} {pending : List Pending} (h : HeldBy d (piece :: pending)) :
    HeldBy d pending :=
  fun id depth preserving hm => h id depth preserving (List.mem_cons_of_mem _ hm)

/-! ## Elements with children -/

/-- What is owed for nodes side by side costs four steps for each node that they stand for. -/
theorem costs_flatMap_le (d : Document) {owe : NodeId → List Pending} {ids : List NodeId}
    (h : ∀ c ∈ ids, costs d (owe c) ≤ 4 * (d.descendants c).length + 4) :
    costs d (ids.flatMap owe) ≤ 4 * (d.toMeet ids).length := by
  induction ids with
  | nil => simp [costs]
  | cons c ids ih =>
    have hfirst := h c List.mem_cons_self
    have hrest := ih fun x hx => h x (List.mem_cons_of_mem _ hx)
    have hlength : (d.toMeet (c :: ids)).length =
        (d.descendants c).length + 1 + (d.toMeet ids).length := by
      rw [toMeet, List.flatMap_cons, List.length_append, List.length_cons]
      rfl
    rw [List.flatMap_cons, costs_append, hlength]
    omega

/-- An element with children owes less after its start tag than it did before. -/
theorem costs_owedBelow_le (hl : d.Linked) (style : Style) (id : NodeId) (e : Element) (depth : Nat)
    (around : Bool) :
    costs d (owedBelow style d id e depth around) ≤ 4 * (d.descendants id).length + 2 := by
  rw [owedBelow, costs_append, ← hl.toMeet_children]
  refine Nat.add_le_add (costs_flatMap_le d fun c _ => ?_) ?_
  · simp only
    split <;> simp only [costs, cost] <;>
      omega
  · split <;> simp [costs, cost]

theorem heldBy_owedBelow (hl : d.Linked) (style : Style) (id : NodeId) (e : Element) (depth : Nat)
    (around : Bool) : HeldBy d (owedBelow style d id e depth around) := by
  rw [owedBelow]
  refine HeldBy.append (fun x level preserving hm => ?_) fun x level preserving hm => ?_
  · obtain ⟨c, hc, hm⟩ := List.mem_flatMap.1 hm
    have hx : x = c := by
      simp only at hm
      split at hm <;> simp_all
    exact hx ▸ hl.child_held hc
  · split at hm <;> simp at hm

theorem owedBelow_of_kept (hl : d.Linked) (hk : Kept d d') (hid : d.Holds id) :
    owedBelow style d' id e depth around = owedBelow style d id e depth around := by
  have hbreaks : breaksLines style d' id (preservesBlanks around e) =
      breaksLines style d id (preservesBlanks around e) := by
    have hany : ((d.children id).any fun c => (d'.kind? c).any (·.isCharacterData)) =
        (d.children id).any fun c => (d.kind? c).any (·.isCharacterData) := by
      rw [Bool.eq_iff_iff, List.any_eq_true, List.any_eq_true]
      refine exists_congr fun c => and_congr_right fun hc => ?_
      rw [hk.kind?_eq (hl.child_held hc)]
    rw [breaksLines, breaksLines, hk.children_eq hid, hany]
  rw [owedBelow, owedBelow, hbreaks, hk.children_eq hid]

/-! ## Writing -/

/-- Where two bounds cover what is owed, the same is written from a store and from one that has kept
its nodes. -/
theorem writePending_of_kept (hl : d.Linked) (hk : Kept d d') {pending : List Pending}
    (hh : HeldBy d pending) {bound bound' : Nat} (hb : costs d pending ≤ bound)
    (hb' : costs d pending ≤ bound') (written : String) :
    writePending style d' bound' pending written = writePending style d bound pending written := by
  induction bound generalizing pending bound' written with
  | zero =>
    cases pending with
    | nil => cases bound' <;> rfl
    | cons piece pending =>
      have hpos := cost_pos d piece
      rw [costs] at hb
      omega
  | succ bound ih =>
    cases pending with
    | nil => cases bound' <;> rfl
    | cons piece pending =>
      have hpos := cost_pos d piece
      rw [costs] at hb hb'
      obtain ⟨bound', rfl⟩ : ∃ n, bound' = n + 1 := ⟨bound' - 1, by omega⟩
      -- What stands behind the piece is covered by what is left of both bounds.
      have hrest : ∀ written, writePending style d' bound' pending written =
          writePending style d bound pending written :=
        fun written => ih hh.tail (by omega) (by omega) written
      cases piece with
      | lineBreak depth =>
        rw [writePending, writePending]
        exact hrest _
      | endTag name =>
        rw [writePending, writePending]
        exact hrest _
      | node id depth preserving =>
        have hid : d.Holds id := hh id depth preserving List.mem_cons_self
        rw [writePending, writePending, hk.kind?_eq hid, hk.children_eq hid]
        cases d.kind? id with
        | none => exact hrest _
        | some kind =>
          cases kind with
          | root => rfl
          | element e =>
            simp only
            split
            · exact hrest _
            · rw [owedBelow_of_kept hl hk hid]
              have hbelow := costs_owedBelow_le hl style id e depth preserving
              rw [cost] at hb hb'
              refine ih ((heldBy_owedBelow hl style id e depth preserving).append hh.tail) ?_ ?_ _
              · rw [costs_append]
                omega
              · rw [costs_append]
                omega
          | text content => exact hrest _
          | cdata content => exact hrest _
          | comment content => exact hrest _
          | instruction target content => exact hrest _

/-- The bound of the writer covers a node and all that stands below it. -/
theorem costs_node_le (hl : d.Linked) (hid : d.Holds id) (depth : Nat) (preserving : Bool) :
    costs d [.node id depth preserving] ≤ 4 * d.nodes.size + 1 := by
  obtain ⟨f, ht, hs, -, -, -⟩ := hl.exists_forest_below id
  have hle := hl.length_tree_le hid ht hs
  simp only [Forest.preorder, List.append_nil, List.length_cons] at hle
  rw [costs, cost, hl.descendants_eq ht hs]
  simp only [costs]
  omega

theorem writeNode_of_kept (hl : d.Linked) (hk : Kept d d') (hid : d.Holds id) (written : String) :
    writeNode style d' id written = writeNode style d id written := by
  have hheld : HeldBy d [.node id 0 false] := by
    intro x depth preserving hm
    obtain ⟨rfl, -, -⟩ := Pending.node.inj (List.mem_singleton.1 hm)
    exact hid
  have hcosts := costs_node_le hl hid 0 false
  have hsize := hk.size_le
  exact writePending_of_kept hl hk hheld hcosts (by omega) written

theorem writeTopLevel_of_kept (hl : d.Linked) (hk : Kept d d') {ids : List NodeId}
    (hh : ∀ id ∈ ids, d.Holds id) (first : Bool) (written : String) :
    writeTopLevel style d' first ids written = writeTopLevel style d first ids written := by
  induction ids generalizing first written with
  | nil => rfl
  | cons id rest ih =>
    have hid := hh id List.mem_cons_self
    have hrest := ih fun x hx => hh x (List.mem_cons_of_mem _ hx)
    simp only [writeTopLevel, hk.kind?_eq hid, writeNode_of_kept hl hk hid, hrest]

/-- A document is written from a store as it was from one whose nodes that store has kept. -/
theorem write_of_kept (hl : d.Linked) (hk : Kept d d') (style : Style) :
    write style d' = write style d := by
  have hroot := hl.root_held
  have helements : d'.documentElement? = d.documentElement? := by
    rw [documentElement?, documentElement?, hk.childElements_eq hl hroot]
  rw [write, write, helements, hk.declaration, hk.doctype, hk.children_eq hroot]
  have hheld : ∀ id ∈ d.children .root, d.Holds id := fun id hid => hl.child_held hid
  simp only [writeTopLevel_of_kept hl hk hheld]

end SvgPress.Markup
