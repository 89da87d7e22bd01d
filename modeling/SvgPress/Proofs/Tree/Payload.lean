import SvgPress.Proofs.Tree.Shape

/-!
# What a document says

Read without its store, a document is a forest of payloads below the root. Two documents with
consistent links are the same exactly when what precedes their trees and their payloads agree.
-/

namespace SvgPress

namespace Forest

variable {α β γ : Type}

theorem map_map (h : β → γ) (k : α → β) (f : Forest α) :
    (f.map k).map h = f.map fun x => h (k x) := by
  induction f with
  | nil => rfl
  | cons top below rest ihb ihr => simp only [map, ihb, ihr]

theorem map_append (h : α → β) (f g : Forest α) : (f ++ g).map h = f.map h ++ g.map h := by
  induction f with
  | nil => rfl
  | cons top below rest _ ih => simp only [cons_append, map, ih]

/-- Forests with equally many trees in front are equal part by part. -/
theorem append_inj {f f' g g' : Forest α} (hl : f.tops.length = f'.tops.length) :
    f ++ g = f' ++ g' ↔ f = f' ∧ g = g' := by
  induction f generalizing f' with
  | nil =>
    cases f' with
    | nil => simp
    | cons top below rest => simp [tops] at hl
  | cons top below rest _ ih =>
    cases f' with
    | nil => simp [tops] at hl
    | cons top' below' rest' =>
      simp only [tops, List.length_cons, Nat.add_right_cancel_iff] at hl
      simp only [cons_append, cons.injEq, ih hl, and_assoc]

/-- No root stands in the trees, and only elements have something below them. -/
def Fits : Forest NodeKind → Prop
  | nil => True
  | cons kind below rest =>
    kind ≠ .root ∧ (kind.element? = none → below = .nil) ∧ below.Fits ∧ rest.Fits

end Forest

namespace Document

/-- What the given nodes are and what stands below them, as far as `bound` goes. -/
def payloadsUpTo (d : Document) : (bound : Nat) → List NodeId → Forest NodeKind
  | 0, _ => .nil
  | _ + 1, [] => .nil
  | bound + 1, id :: rest =>
    .cons (d.kindOf id) (payloadsUpTo d bound (d.children id)) (payloadsUpTo d bound rest)

/-- What stands below the root. -/
def payloads (d : Document) : Forest NodeKind :=
  d.payloadsUpTo d.nodes.size (d.children .root)

variable {a b d : Document} {f g : Forest NodeId} {id : NodeId} {bound : Nat}

theorem Shows.payloadsUpTo_eq (h : d.Shows f) (hb : f.preorder.length ≤ bound) :
    d.payloadsUpTo bound f.tops = f.map d.kindOf := by
  induction f generalizing bound with
  | nil => cases bound <;> rfl
  | cons id below rest ihb ihr =>
    obtain ⟨h1, h2, h3⟩ := h
    simp only [Forest.preorder, List.length_cons, List.length_append] at hb
    obtain ⟨bound, rfl⟩ : ∃ n, bound = n + 1 := ⟨bound - 1, by omega⟩
    simp only [Forest.tops, Forest.map, payloadsUpTo]
    rw [h1, ihb h2 (by omega), ihr h3 (by omega)]

/-- The payloads of a document are those of any forest that its store shows below the root. -/
theorem Linked.payloads_eq (h : d.Linked) (ht : f.tops = d.children .root) (hs : d.Shows f) :
    d.payloads = f.map d.kindOf := by
  have hl : f.preorder.length ≤ d.nodes.size :=
    h.length_preorder_le hs (fun top hm => h.child_held (ht ▸ hm)) (ht ▸ h.apart_children .root)
  rw [payloads, ← ht, hs.payloadsUpTo_eq hl]

/-! ## Payloads that fit their places -/

theorem Shaped.kindOf_root (hs : d.Shaped) : d.kindOf .root = .root := by
  rw [kindOf, (hs.root_iff .root).2 rfl]
  rfl

theorem Shaped.kindOf_ne_root (hs : d.Shaped) (hl : d.Linked) (ht : f.tops = d.children .root)
    (hf : d.Shows f) : ∀ x ∈ f.preorder, d.kindOf x ≠ .root := by
  intro x hx hk
  have hheld : d.Holds x := hl.holds_of_mem_preorder hf (fun top hm => hl.child_held (ht ▸ hm)) hx
  have hsome := kind?_eq_some_kindOf hheld
  rw [hk, hs.root_iff] at hsome
  subst hsome
  rw [← hl.descendants_eq ht hf, hl.mem_descendants_iff] at hx
  exact hl.climb.transGen.irrefl.irrefl _ hx

theorem Shaped.fits_map (hs : d.Shaped) (hf : d.Shows f)
    (hr : ∀ x ∈ f.preorder, d.kindOf x ≠ .root) : (f.map d.kindOf).Fits := by
  induction f with
  | nil => trivial
  | cons id below rest ihb ihr =>
    obtain ⟨h1, h2, h3⟩ := hf
    simp only [Forest.preorder, List.mem_cons, List.mem_append] at hr
    refine ⟨hr id (.inl rfl), fun he => ?_, ihb h2 fun x hx => hr x (.inr (.inl hx)),
      ihr h3 fun x hx => hr x (.inr (.inr hx))⟩
    cases below with
    | nil => rfl
    | cons top b r =>
      have hcontainer := hs.container id top (by rw [h1, Forest.tops]; exact List.mem_cons_self)
      have hroot := hr id (.inl rfl)
      rw [kindOf] at he hroot
      rw [isContainer] at hcontainer
      cases hk : d.kind? id with
      | none => simp [hk] at hcontainer
      | some kind =>
        rw [hk] at he hroot hcontainer
        cases kind <;> simp_all [NodeKind.isContainer, NodeKind.element?]

theorem Shaped.fits_payloads (hs : d.Shaped) (hl : d.Linked) : d.payloads.Fits := by
  obtain ⟨f, ht, hf, -, -, -⟩ := hl.exists_forest_below .root
  rw [hl.payloads_eq ht hf]
  exact hs.fits_map hf (hs.kindOf_ne_root hl ht hf)

/-! ## Comparing -/

/-- Comparing the trees of two stores pairwise compares their payloads. -/
theorem sameFrom_iff (hf : a.Shows f) (hg : b.Shows g) (hfh : ∀ id ∈ f.preorder, a.Holds id)
    (hgh : ∀ id ∈ g.preorder, b.Holds id) (hl : f.tops.length = g.tops.length)
    (hb : f.preorder.length ≤ bound) :
    sameFrom a b bound (f.tops.zip g.tops) = true ↔ f.map a.kindOf = g.map b.kindOf := by
  induction bound generalizing f g with
  | zero =>
    cases f with
    | cons => simp [Forest.preorder] at hb
    | nil =>
      cases g with
      | cons => simp [Forest.tops] at hl
      | nil => exact iff_of_true rfl rfl
  | succ bound ih =>
    cases f with
    | nil =>
      cases g with
      | cons => simp [Forest.tops] at hl
      | nil => exact iff_of_true rfl rfl
    | cons m below rest =>
      cases g with
      | nil => simp [Forest.tops] at hl
      | cons n below' rest' =>
        obtain ⟨hf1, hf2, hf3⟩ := hf
        obtain ⟨hg1, hg2, hg3⟩ := hg
        simp only [Forest.preorder, List.mem_cons, List.mem_append] at hfh hgh
        simp only [Forest.preorder, List.length_cons, List.length_append] at hb
        simp only [Forest.tops, List.length_cons, Nat.add_right_cancel_iff] at hl
        simp only [Forest.tops, List.zip_cons_cons, sameFrom, Bool.and_eq_true, beq_iff_eq, hf1, hg1,
          kind?_eq_some_kindOf (hfh m (.inl rfl)), kind?_eq_some_kindOf (hgh n (.inl rfl)),
          Option.some.injEq, Forest.map, Forest.cons.injEq, and_assoc]
        refine and_congr_right fun _ => ?_
        by_cases hbelow : below.tops.length = below'.tops.length
        · -- The pairs below these two come before the pairs after them, as in one forest.
          have hboth := ih (f := below ++ rest) (g := below' ++ rest')
            (shows_append.2 ⟨hf2, hf3⟩) (shows_append.2 ⟨hg2, hg3⟩)
            (fun id hm => hfh id (.inr (by simpa using hm)))
            (fun id hm => hgh id (.inr (by simpa using hm)))
            (by simp [hbelow, hl]) (by simpa using by omega)
          rw [Forest.tops_append, Forest.tops_append, List.zip_append hbelow, Forest.map_append,
            Forest.map_append, Forest.append_inj (by simp [hbelow])] at hboth
          simp only [hbelow, hboth, true_and]
        · refine iff_of_false (fun h => hbelow h.1) fun h => hbelow ?_
          have htops := congrArg (fun f => f.tops.length) h.1
          simpa using htops

/-- Documents with consistent links are the same exactly when all they say is. -/
theorem Linked.same_iff (ha : a.Linked) (hb : b.Linked) (hk : a.kind? .root = b.kind? .root) :
    a.same b = true ↔
      a.declaration = b.declaration ∧ a.doctype = b.doctype ∧ a.payloads = b.payloads := by
  obtain ⟨f, hft, hfs, -, hfh, -⟩ := ha.exists_forest_below .root
  obtain ⟨g, hgt, hgs, -, hgh, -⟩ := hb.exists_forest_below .root
  have hheld : ∀ top ∈ (Forest.cons NodeId.root f .nil).tops, a.Holds top := by
    intro top hm
    obtain rfl := List.mem_singleton.1 hm
    exact ha.root_held
  have hshows : a.Shows (.cons .root f .nil) := ⟨hft.symm, hfs, trivial⟩
  have hsize := ha.length_tree_le ha.root_held hft hfs
  have hsame : sameFrom a b a.nodes.size
      ((Forest.cons NodeId.root f .nil).tops.zip (Forest.cons NodeId.root g .nil).tops) = true ↔ _ :=
    sameFrom_iff hshows ⟨hgt.symm, hgs, trivial⟩
    (fun id hm => ha.holds_of_mem_preorder hshows hheld hm)
    (by
      intro id hm
      simp only [Forest.preorder, List.append_nil, List.mem_cons] at hm
      rcases hm with rfl | hm
      · exact hb.root_held
      · exact hgh id hm)
    rfl hsize
  rw [show a.same b = true ↔ _ from Iff.of_eq (by rw [same, Bool.and_eq_true, Bool.and_eq_true])]
  have hkind : a.kindOf .root = b.kindOf .root := by rw [kindOf, kindOf, hk]
  simp only [Forest.tops, List.zip_cons_cons, List.zip_nil_right, Forest.map, Forest.cons.injEq,
    hkind, true_and, and_true] at hsame
  rw [hsame, ha.payloads_eq hft hfs, hb.payloads_eq hgt hgs, beq_iff_eq, beq_iff_eq, and_assoc]

end Document

end SvgPress
