import SvgPress.Proofs.Tree.Reachable

/-!
# What the traversals meet

The child lists of a store with consistent links describe one tree below every node. Walking down
from a node meets the nodes of that tree in document order, each once; walking up from a node meets
exactly the nodes that it stands below. Two documents compare as their trees of payloads do, in
whatever order the pairs of nodes are looked at.
-/

namespace SvgPress.Document

open Relation

variable {a b d d' : Document} {id m n top : NodeId} {f g : Forest NodeId}

/-! ## One tree below every node -/

/-- The child lists leave no choice of the forest below given nodes. -/
theorem Shows.unique (hf : d.Shows f) (hg : d.Shows g) (ht : f.tops = g.tops) : f = g := by
  induction f generalizing g with
  | nil =>
    cases g with
    | nil => rfl
    | cons top below rest => simp [Forest.tops] at ht
  | cons top below rest ihb ihr =>
    cases g with
    | nil => simp [Forest.tops] at ht
    | cons top' below' rest' =>
      obtain ⟨hf1, hf2, hf3⟩ := hf
      obtain ⟨hg1, hg2, hg3⟩ := hg
      simp only [Forest.tops, List.cons.injEq] at ht
      obtain ⟨rfl, hrest⟩ := ht
      have hbelow : below.tops = below'.tops := hf1.symm.trans hg1
      rw [ihb hf2 hg2 hbelow, ihr hf3 hg3 hrest]

theorem Linked.existsUnique_tree (h : d.Linked) (id : NodeId) :
    ∃! f : Forest NodeId, d.Shows (.cons id f .nil) := by
  obtain ⟨f, ht, hs, -, -, -⟩ := h.exists_forest_below id
  refine ⟨f, ⟨ht.symm, hs, trivial⟩, fun g hg => ?_⟩
  obtain ⟨hg1, hg2, -⟩ := hg
  exact hg2.unique hs (hg1.symm.trans ht.symm)

/-! ## Walking down -/

/-- `descendants` is the one walk that meets, for each child in turn, the child and what the walk
from the child meets. -/
theorem Linked.eq_descendants_iff (h : d.Linked) (walk : NodeId → List NodeId) :
    walk = d.descendants ↔
      ∀ id, walk id = (d.children id).flatMap fun child => child :: walk child := by
  constructor
  · rintro rfl id
    exact (h.toMeet_children id).symm
  · intro hwalk
    funext id
    induction id using h.descend.induction with
    | _ id ih =>
      have hchildren : ∀ child ∈ d.children id, walk child = d.descendants child :=
        fun child hc => ih child ((h.parent_iff child id).2 hc)
      have hmeet : d.descendants id =
          (d.children id).flatMap fun child => child :: d.descendants child :=
        (h.toMeet_children id).symm
      rw [hwalk, hmeet]
      exact List.flatMap_congr fun child hc => by rw [hchildren child hc]

/-- Walking down from a node meets the nodes from which walking up leads to it. -/
theorem Linked.mem_descendants_iff_above (h : d.Linked) :
    n ∈ d.descendants id ↔ n ≠ id ∧ d.isAncestorOrSelf id n = true := by
  rw [h.mem_descendants_iff, h.isAncestorOrSelf_iff, reflTransGen_iff_eq_or_transGen]
  constructor
  · intro ht
    have hne : n ≠ id := by
      rintro rfl
      exact h.climb.transGen.irrefl.irrefl n ht
    exact ⟨hne, .inr ht⟩
  · rintro ⟨hne, he | ht⟩
    · exact absurd he hne
    · exact ht

theorem Linked.isAttached_iff (h : d.Linked) :
    d.isAttached n = true ↔ n = .root ∨ n ∈ d.descendants .root := by
  rw [h.mem_descendants_iff_above, isAttached]
  by_cases hn : n = .root
  · subst hn
    simp [isAncestorOrSelf]
  · simp [hn]

/-! ## Comparing -/

/-- Two nodes of two stores agree in their payloads and in the number of their children. -/
def Agree (a b : Document) (m n : NodeId) : Prop :=
  a.kind? m = b.kind? n ∧ (a.children m).length = (b.children n).length

/-- Comparing what stands at pairs of nodes, with the pending pairs taken in any order: a pair that
does not agree ends the comparison, and a pair that agrees makes way for the pairs of children. -/
inductive Compares (a b : Document) : (pending : List (NodeId × NodeId)) → (answer : Bool) → Prop
  | done : Compares a b [] true
  | differ {pending rest : List (NodeId × NodeId)} {m n : NodeId}
      (hp : pending.Perm ((m, n) :: rest)) (h : ¬ Agree a b m n) : Compares a b pending false
  | next {pending rest next : List (NodeId × NodeId)} {m n : NodeId} {answer : Bool}
      (hp : pending.Perm ((m, n) :: rest)) (h : Agree a b m n)
      (hn : next.Perm ((a.children m).zip (b.children n) ++ rest))
      (hr : Compares a b next answer) : Compares a b pending answer

/-- Read without the stores, what stands at two nodes is the same tree. -/
def Alike (a b : Document) (m n : NodeId) : Prop :=
  ∃ f g : Forest NodeId, a.Shows (.cons m f .nil) ∧ b.Shows (.cons n g .nil) ∧
    (Forest.cons m f .nil).map a.kind? = (Forest.cons n g .nil).map b.kind?

theorem Alike.symm (h : Alike a b m n) : Alike b a n m := by
  obtain ⟨f, g, hf, hg, he⟩ := h
  exact ⟨g, f, hg, hf, he.symm⟩

/-- Whether trees are alike is decided by any two forests that the stores show. -/
theorem alike_iff_of_shows (hf : a.Shows (.cons m f .nil)) (hg : b.Shows (.cons n g .nil)) :
    Alike a b m n ↔
      (Forest.cons m f .nil).map a.kind? = (Forest.cons n g .nil).map b.kind? := by
  constructor
  · rintro ⟨f', g', hf', hg', he⟩
    have hff : Forest.cons m f' .nil = .cons m f .nil := hf'.unique hf rfl
    have hgg : Forest.cons n g' .nil = .cons n g .nil := hg'.unique hg rfl
    rwa [hff, hgg] at he
  · exact fun he => ⟨f, g, hf, hg, he⟩

/-- Forests are the same, read without the stores, if they are so tree by tree. -/
theorem map_eq_iff_forall_alike (hf : a.Shows f) (hg : b.Shows g) :
    f.map a.kind? = g.map b.kind? ↔
      f.tops.length = g.tops.length ∧ ∀ p ∈ f.tops.zip g.tops, Alike a b p.1 p.2 := by
  induction f generalizing g with
  | nil =>
    cases g with
    | nil => simp [Forest.map, Forest.tops]
    | cons n below' rest' => simp [Forest.map, Forest.tops]
  | cons m below rest _ ihr =>
    cases g with
    | nil => simp [Forest.map, Forest.tops]
    | cons n below' rest' =>
      obtain ⟨hf1, hf2, hf3⟩ := hf
      obtain ⟨hg1, hg2, hg3⟩ := hg
      have htree := alike_iff_of_shows (a := a) (b := b) (m := m) (n := n) (f := below)
        (g := below') ⟨hf1, hf2, trivial⟩ ⟨hg1, hg2, trivial⟩
      simp only [Forest.map, Forest.cons.injEq, and_true] at htree
      simp only [Forest.map, Forest.tops, Forest.cons.injEq, List.length_cons,
        Nat.add_right_cancel_iff, List.zip_cons_cons, List.forall_mem_cons, htree, ihr hf3 hg3]
      tauto

/-- Trees are alike exactly if their tops agree and the trees below these are alike in pairs. -/
theorem Linked.alike_iff (ha : a.Linked) (hb : b.Linked) :
    Alike a b m n ↔
      Agree a b m n ∧ ∀ p ∈ (a.children m).zip (b.children n), Alike a b p.1 p.2 := by
  obtain ⟨f, hft, hfs, -, -, -⟩ := ha.exists_forest_below m
  obtain ⟨g, hgt, hgs, -, -, -⟩ := hb.exists_forest_below n
  have htree := alike_iff_of_shows (a := a) (b := b) (m := m) (n := n) (f := f) (g := g)
    ⟨hft.symm, hfs, trivial⟩ ⟨hgt.symm, hgs, trivial⟩
  have hbelow := map_eq_iff_forall_alike hfs hgs
  rw [hft, hgt] at hbelow
  simp only [Forest.map, Forest.cons.injEq, and_true, hbelow] at htree
  rw [htree, Agree, and_assoc]

/-- In whatever order the pairs are taken, the answer is whether all of them are alike. -/
theorem Linked.compares_iff (ha : a.Linked) (hb : b.Linked) {pending : List (NodeId × NodeId)}
    {answer : Bool} (h : Compares a b pending answer) :
    answer = true ↔ ∀ p ∈ pending, Alike a b p.1 p.2 := by
  induction h with
  | done => simp
  | @differ pending rest m n hp h =>
    refine iff_of_false Bool.false_ne_true fun hall => h ?_
    have hpair : Alike a b m n := hall (m, n) (hp.mem_iff.2 List.mem_cons_self)
    exact ((ha.alike_iff hb).1 hpair).1
  | @next pending rest next m n answer hp h hn _ ih =>
    have hpair : Alike a b m n ↔ ∀ p ∈ (a.children m).zip (b.children n), Alike a b p.1 p.2 := by
      rw [ha.alike_iff hb, and_iff_right h]
    have hnext : (∀ p ∈ next, Alike a b p.1 p.2) ↔
        ∀ p ∈ (a.children m).zip (b.children n) ++ rest, Alike a b p.1 p.2 :=
      forall_congr' fun p => imp_congr_left hn.mem_iff
    have hpending : (∀ p ∈ pending, Alike a b p.1 p.2) ↔
        ∀ p ∈ (m, n) :: rest, Alike a b p.1 p.2 :=
      forall_congr' fun p => imp_congr_left hp.mem_iff
    rw [ih, hnext, hpending, List.forall_mem_append, List.forall_mem_cons, hpair]

/-- A bounded comparison that is not cut off is one way to take the pairs. -/
theorem Linked.compares_sameFrom (ha : a.Linked) {bound : Nat} {pending : List (NodeId × NodeId)}
    (hb : (a.toMeet (pending.map Prod.fst)).length ≤ bound) :
    Compares a b pending (sameFrom a b bound pending) := by
  induction bound generalizing pending with
  | zero =>
    cases pending with
    | nil => exact .done
    | cons p pending => simp [toMeet] at hb
  | succ bound ih =>
    cases pending with
    | nil => exact .done
    | cons p pending =>
      obtain ⟨m, n⟩ := p
      by_cases hagree : Agree a b m n
      · obtain ⟨hkind, hlength⟩ := hagree
        have hsame : sameFrom a b (bound + 1) ((m, n) :: pending) =
            sameFrom a b bound ((a.children m).zip (b.children n) ++ pending) := by
          rw [sameFrom, beq_iff_eq.2 hkind, beq_iff_eq.2 hlength, Bool.and_self, Bool.true_and]
        have hmeet : (a.toMeet (((a.children m).zip (b.children n) ++ pending).map
            Prod.fst)).length ≤ bound := by
          have hchildren := congrArg List.length (ha.toMeet_children m)
          rw [List.map_append, List.map_fst_zip (Nat.le_of_eq hlength)]
          simp only [toMeet, List.flatMap_append, List.length_append, List.map_cons,
            List.flatMap_cons, List.length_cons] at hb hchildren ⊢
          omega
        rw [hsame]
        exact .next (.refl _) ⟨hkind, hlength⟩ (.refl _) (ih hmeet)
      · have hsame : sameFrom a b (bound + 1) ((m, n) :: pending) = false := by
          rw [Agree, not_and_or] at hagree
          rw [sameFrom]
          rcases hagree with hkind | hlength
          · rw [beq_eq_false_iff_ne.2 hkind, Bool.false_and, Bool.false_and]
          · rw [beq_eq_false_iff_ne.2 hlength, Bool.and_false, Bool.false_and]
        rw [hsame]
        exact .differ (.refl _) hagree

/-- The bound of `same` is large enough for the comparison from the roots. -/
theorem Linked.compares_roots (ha : a.Linked) (b : Document) :
    Compares a b [(.root, .root)] (sameFrom a b a.nodes.size [(.root, .root)]) := by
  obtain ⟨f, ht, hs, -, -, -⟩ := ha.exists_forest_below .root
  have hsize := ha.length_tree_le ha.root_held ht hs
  refine ha.compares_sameFrom ?_
  have hmeet := ha.toMeet_tops (f := .cons .root f .nil) ⟨ht.symm, hs, trivial⟩
  rw [← hmeet] at hsize
  exact hsize

/-- Documents compare equal exactly if they declare the same and show the same tree. -/
theorem Linked.beq_iff_alike (ha : a.Linked) (hb : b.Linked) :
    (a == b) = true ↔
      a.declaration = b.declaration ∧ a.doctype = b.doctype ∧ Alike a b .root .root := by
  have htrees := ha.compares_iff hb (ha.compares_roots b)
  rw [List.forall_mem_singleton] at htrees
  rw [show (a == b) = a.same b from rfl, same, Bool.and_eq_true, Bool.and_eq_true, beq_iff_eq,
    beq_iff_eq, htrees, and_assoc]

/-- Comparing documents with consistent links is an equivalence. -/
theorem equivalence_beq {P : Document → Prop} (hP : ∀ d, P d → d.Linked) :
    Equivalence fun a b : { d // P d } => (a.1 == b.1) = true where
  refl a := by
    have ha := hP a.1 a.2
    obtain ⟨f, hf, -⟩ := ha.existsUnique_tree .root
    exact (ha.beq_iff_alike ha).2 ⟨rfl, rfl, f, f, hf, hf, rfl⟩
  symm {a b} h := by
    have ha := hP a.1 a.2
    have hb := hP b.1 b.2
    obtain ⟨h1, h2, h3⟩ := (ha.beq_iff_alike hb).1 h
    exact (hb.beq_iff_alike ha).2 ⟨h1.symm, h2.symm, h3.symm⟩
  trans {a b c} h h' := by
    have ha := hP a.1 a.2
    have hb := hP b.1 b.2
    have hc := hP c.1 c.2
    obtain ⟨h1, h2, f, g, hf, hg, he⟩ := (ha.beq_iff_alike hb).1 h
    obtain ⟨h1', h2', h3'⟩ := (hb.beq_iff_alike hc).1 h'
    obtain ⟨k, hk, -⟩ := hc.existsUnique_tree .root
    have he' := (alike_iff_of_shows hg hk).1 h3'
    exact (ha.beq_iff_alike hc).2 ⟨h1.trans h1', h2.trans h2', f, k, hf, hk, he.trans he'⟩

/-! ## Reachable documents -/

/-- Walking up and walking down follow the tree that the child lists describe. -/
structure WalksTree (d : Document) : Prop where
  /-- Below every node the child lists describe one tree. -/
  tree : ∀ id, ∃! f : Forest NodeId, d.Shows (.cons id f .nil)
  /-- Walking down is the recursive walk: for each child in turn the child and what is below it. -/
  down : ∀ walk, walk = d.descendants ↔
    ∀ id, walk id = (d.children id).flatMap fun child => child :: walk child
  /-- No node is met twice. -/
  nodup : ∀ id, (d.descendants id).Nodup
  /-- A node is met exactly from the other nodes to which walking up from it leads. -/
  up : ∀ id n, n ∈ d.descendants id ↔ n ≠ id ∧ d.isAncestorOrSelf id n = true
  /-- The attached nodes are the root and those that are met from it. -/
  attached : ∀ n, d.isAttached n = true ↔ n = .root ∨ n ∈ d.descendants .root

/-- Two documents compare as what precedes their trees and as the payloads of their trees do. -/
structure ComparesTrees (d d' : Document) : Prop where
  /-- The trees are any forests that the stores show from the root on. -/
  trees : ∀ f f', d.Shows (.cons .root f .nil) → d'.Shows (.cons .root f' .nil) →
    ((d == d') = true ↔ d.declaration = d'.declaration ∧ d.doctype = d'.doctype ∧
      (Forest.cons .root f .nil).map d.kind? = (Forest.cons .root f' .nil).map d'.kind?)
  /-- There is one answer, in whatever order pairs of nodes are looked at. -/
  answer : ∃! answer, Compares d d' [(.root, .root)] answer
  /-- This answer decides where the declarations are the same. -/
  any_order : ∀ answer, Compares d d' [(.root, .root)] answer →
    ((d == d') = true ↔
      d.declaration = d'.declaration ∧ d.doctype = d'.doctype ∧ answer = true)

theorem Linked.walksTree (h : d.Linked) : d.WalksTree where
  tree := h.existsUnique_tree
  down := h.eq_descendants_iff
  nodup := h.nodup_descendants
  up _ _ := h.mem_descendants_iff_above
  attached _ := h.isAttached_iff

theorem Linked.comparesTrees (h : d.Linked) (h' : d'.Linked) : d.ComparesTrees d' where
  trees f f' hf hf' := by rw [h.beq_iff_alike h', alike_iff_of_shows hf hf']
  answer := by
    have hroots := h.compares_roots d'
    refine ⟨_, hroots, fun answer hanswer => ?_⟩
    rw [Bool.eq_iff_iff, h.compares_iff h' hanswer, h.compares_iff h' hroots]
  any_order answer hanswer := by
    have htrees := h.compares_iff h' hanswer
    rw [List.forall_mem_singleton] at htrees
    rw [h.beq_iff_alike h', htrees]

/-- The traversals of a reachable document walk over the tree that it shows from its root on. Any
two reachable documents compare as what precedes these trees and as their payloads do, whatever
their stores; so comparing is an equivalence. -/
theorem Reachable.traverses_tree {rewrites rewrites' : Bool} (h : Reachable rewrites d)
    (h' : Reachable rewrites' d') :
    d.WalksTree ∧ d.ComparesTrees d' ∧
      Equivalence fun a b : { d // ∃ rewrites, Reachable rewrites d } => (a.1 == b.1) = true :=
  ⟨h.linked.walksTree, h.linked.comparesTrees h'.linked,
    equivalence_beq fun _ ⟨_, hd⟩ => hd.linked⟩

/-- The same tree from two stores: the element and its text are created in different orders, and the
second store has a node that stands under no other. -/
theorem Reachable.traverses_tree_of_stores : ∃ d d' : Document,
    Reachable false d ∧ Reachable false d' ∧ d.descendants .root = [⟨1⟩, ⟨2⟩] ∧
    d'.descendants .root = [⟨2⟩, ⟨1⟩] ∧ d'.isAttached ⟨3⟩ = false ∧ (d == d') = true ∧
    d.WalksTree ∧ d.ComparesTrees d' ∧
      Equivalence fun a b : { d // ∃ rewrites, Reachable rewrites d } => (a.1 == b.1) = true := by
  have h1 : Reachable false _ := .createElement .empty (Element.named "svg")
  have h2 := h1.createText "a"
  have h3 := @Reachable.appendChild false _ .root ⟨1⟩ h2 (by decide) (by decide)
  have h4 := @Reachable.appendChild false _ ⟨1⟩ ⟨2⟩ h3 (by decide) (by decide)
  have h1' : Reachable false _ := .createText .empty "a"
  have h2' := h1'.createElement (Element.named "svg")
  have h3' := h2'.createText "b"
  have h4' := @Reachable.appendChild false _ .root ⟨2⟩ h3' (by decide) (by decide)
  have h5' := @Reachable.appendChild false _ ⟨2⟩ ⟨1⟩ h4' (by decide) (by decide)
  exact ⟨_, _, h4, h5', by decide, by decide, by decide, by rfl, Reachable.traverses_tree h4 h5'⟩

end SvgPress.Document
