import SvgPress.Proofs.Tree.Grown
import SvgPress.Proofs.Tree.Refusals

/-!
# Copies say what their originals say

A copy of a subtree is made of all nodes that are new, in the order in which they were added, and
read without its store it is the subtree. So a document can be rebuilt in an empty one from copies
of what stands under its root, as far as the root of a document may have them under it.
-/

namespace SvgPress

open Relation

namespace InPlace

/-- Put a copy of a node of another document, with all below it, last under the root. -/
def adopt (source : Document) (id : NodeId) : InPlace Unit := do
  let copy ← importFrom source id
  appendChild .root copy

/-- Put copies of all that stands under the root of another document under the root, and take over
what precedes its tree. -/
def rebuild (source : Document) : InPlace Unit := do
  forM (source.children .root) (adopt source)
  modify fun d => { d with declaration := source.declaration, doctype := source.doctype }

end InPlace

namespace Document

variable {d d₁ d' source : Document} {id top : NodeId} {f : Forest NodeId}

/-! ## Copies -/

/-- A node of a store is a copy of a node of another one, with all that stands below it, and has
been added to what was there before. -/
structure Copied (source : Document) (id : NodeId) (d d' : Document) (copy : NodeId) : Prop where
  kept : Kept d d'
  detached : d'.parent? copy = none
  /-- Read without the stores, the copy and the original are the same tree. -/
  alike : ∃ below copies : Forest NodeId, source.Shows (.cons id below .nil) ∧
    d'.Shows (.cons copy copies .nil) ∧
    (Forest.cons copy copies .nil).map d'.kind? = (Forest.cons id below .nil).map source.kind?
  size_eq : d'.nodes.size = d.nodes.size + (source.subtree id).length
  /-- The copy is made of all new nodes, each once, in the order in which they were added. -/
  fresh : d'.subtree copy = (List.range' d.nodes.size (source.subtree id).length).map NodeId.mk

theorem Linked.map_copyOf_subtree (h : source.Linked) (top : NodeId) :
    (source.subtree top).map (d.copyOf source top) =
      (List.range' d.nodes.size (source.subtree top).length).map NodeId.mk := by
  refine List.ext_getElem (by simp) fun i hi _ => ?_
  rw [List.getElem_map, List.getElem_map, copyOf, (h.nodup_subtree top).idxOf_getElem,
    List.getElem_range', Nat.one_mul]

section

variable (hs : source.Linked) (ht : source.Holds top)

include hs ht

/-- The copies of trees of the subtree stand below each other as the originals do. -/
theorem Linked.shows_copies (hf : source.Shows f) (hm : f.preorder ⊆ source.subtree top) :
    (d.graft source top).1.Shows (f.map (d.copyOf source top)) := by
  induction f with
  | nil => trivial
  | cons id below rest ihb ihr =>
    obtain ⟨h1, h2, h3⟩ := hf
    obtain ⟨hid, hrest⟩ := List.cons_subset.1 hm
    obtain ⟨hbelow, hrest⟩ := List.append_subset.1 hrest
    refine ⟨?_, ihb h2 hbelow, ihr h3 hrest⟩
    rw [hs.children_graft_copyOf ht hid, h1, Forest.tops_map]

theorem Linked.kind?_copies (hm : f.preorder ⊆ source.subtree top) :
    (f.map (d.copyOf source top)).map (d.graft source top).1.kind? = f.map source.kind? := by
  rw [Forest.map_map]
  exact Forest.map_congr fun id hid => hs.kind?_graft_copyOf ht (hm hid)

/-- What `graft` adds is a copy. -/
theorem Linked.copied_graft (hl : d.Linked) :
    Copied source top d (d.graft source top).1 (d.graft source top).2 := by
  have hl' := hs.graft ht hl
  have htop : top ∈ source.subtree top := List.mem_cons_self
  obtain ⟨below, hb, hshows, -, -, -⟩ := hs.exists_forest_below top
  have hpreorder : (Forest.cons top below .nil).preorder = source.subtree top := by
    rw [subtree, hs.descendants_eq hb hshows, Forest.preorder, Forest.preorder, List.append_nil]
  have htree : source.Shows (.cons top below .nil) := ⟨hb.symm, hshows, trivial⟩
  have hcopies := hs.shows_copies (d := d) ht htree (hpreorder ▸ List.Subset.refl _)
  have hkinds := hs.kind?_copies (d := d) ht (f := .cons top below .nil)
    (hpreorder ▸ List.Subset.refl _)
  rw [hs.snd_graft ht]
  refine ⟨hs.kept_graft ht, ?_, ⟨below, below.map (d.copyOf source top), htree, hcopies, hkinds⟩,
    hs.size_graft ht, ?_⟩
  · rw [hs.parent?_graft_copyOf ht htop, if_pos rfl]
  · obtain ⟨hchildren, hcopied, -⟩ := hcopies
    rw [subtree, hl'.descendants_eq hchildren.symm hcopied, Forest.preorder_map,
      ← hs.map_copyOf_subtree, subtree, hs.descendants_eq hb hshows, List.map_cons]

end

/-! ## Rebuilding -/

/-- Copies of nodes of another document have been put, in order, after what stood under the root. -/
structure Adopted (source : Document) (ids : List NodeId) (d d' : Document) : Prop where
  linked : d'.Linked
  trees : ∃ originals copies : Forest NodeId, originals.tops = ids ∧ source.Shows originals ∧
    Grown d d' .root copies ∧ copies.map d'.kindOf = originals.map source.kindOf

namespace Adopted

variable {ids rest : List NodeId}

theorem nil (h : d.Linked) : Adopted source [] d d :=
  ⟨h, .nil, .nil, rfl, trivial, .refl d .root, rfl⟩

theorem cons (h : Adopted source [id] d d₁) (h' : Adopted source rest d₁ d') (hl : d.Linked) :
    Adopted source (id :: rest) d d' := by
  obtain ⟨f, copies, hf, hshows, hgrown, hmap⟩ := h.trees
  obtain ⟨g, copies', hg, hshows', hgrown', hmap'⟩ := h'.trees
  refine ⟨h'.linked, f ++ g, copies ++ copies', ?_, shows_append.2 ⟨hshows, hshows'⟩,
    hgrown.trans hgrown' hl.root_held, ?_⟩
  · rw [Forest.tops_append, hf, hg, List.singleton_append]
  · rw [hgrown.map_kindOf_append hgrown', hmap, hmap', Forest.map_append]

theorem kind?_root (h : Adopted source ids d d') (hl : d.Linked) :
    d'.kind? .root = d.kind? .root := by
  obtain ⟨_, _, -, -, hgrown, -⟩ := h.trees
  exact hgrown.kind?_eq .root hl.root_held

/-- The elements under the root are those that were there, and the copied ones. -/
theorem length_childElements (h : Adopted source ids d d') (hl : d.Linked) :
    (d'.childElements .root).length =
      (d.childElements .root).length + (ids.filter source.isElement).length := by
  obtain ⟨f, copies, hf, -, hgrown, hmap⟩ := h.trees
  rw [hgrown.length_childElements hl, hmap, Forest.tops_map, hf, List.filter_map, List.length_map]
  congr 2
  exact List.filter_congr fun id _ => (isElement_eq_kindOf source id).symm

end Adopted

section

variable (hs : source.Linked) (hid : source.Holds id) (hl : d.Linked)

include hs hid hl

/-- A copy is appended to the root exactly if the root does not get a second element. -/
theorem Linked.appendChild_graft_iff (hroot : d.kind? .root = some .root) :
    (d.graft source id).1.appendChild .root (d.graft source id).2 = .ok d' ↔
      (source.isElement id = true → d.childElements .root = []) ∧
        d' = (d.graft source id).1.attach .root (d.children .root).length
          (d.graft source id).2 := by
  have hcopied := hs.copied_graft hid hl
  have hcontainer : d.isContainer .root = true := by
    rw [isContainer, hroot]
    rfl
  have hnew : ¬ d.Holds (d.graft source id).2 := by
    rw [hs.snd_graft hid]
    exact Nat.not_lt.2 size_le_index_copyOf
  have helement : (d.graft source id).1.isElement (d.graft source id).2 = source.isElement id := by
    rw [isElement, isElement, element?, element?, hs.snd_graft hid,
      hs.kind?_graft_copyOf hid List.mem_cons_self]
  rw [hcopied.kept.appendChild_iff hl (hs.graft hid hl) hcontainer hnew hcopied.detached, helement,
    imp_iff_right rfl]

/-- One round of rebuilding goes wrong only if the root would get a second element. -/
theorem Linked.adopt_eq_ok_iff (hne : id ≠ .root) (hroot : d.kind? .root = some .root) :
    (InPlace.adopt source id).on d = (.ok (), d') ↔
      (source.isElement id = true → d.childElements .root = []) ∧
        d' = (d.graft source id).1.attach .root (d.children .root).length
          (d.graft source id).2 := by
  have hcopy : d.importFrom source id = .ok (d.graft source id) :=
    importFrom_eq_ok_iff.2 ⟨hne, rfl⟩
  have hon : (InPlace.adopt source id).on d =
      (InPlace.appendChild .root (d.graft source id).2).on (d.graft source id).1 := by
    rw [InPlace.adopt, InPlace.on_bind, InPlace.on_importFrom, hcopy]
    rfl
  rw [hon, InPlace.on_appendChild_eq_ok_iff, hs.appendChild_graft_iff hid hl hroot]

theorem Linked.adopted (hne : id ≠ .root) (hroot : d.kind? .root = some .root)
    (h : (InPlace.adopt source id).on d = (.ok (), d')) : Adopted source [id] d d' := by
  obtain ⟨hroom, rfl⟩ := (hs.adopt_eq_ok_iff hid hl hne hroot).1 h
  have hcopied := hs.copied_graft hid hl
  have hl₁ := hs.graft hid hl
  have hl' := hl₁.insertChild (hs.holds_graft hid)
    ((hs.appendChild_graft_iff hid hl hroot).2 ⟨hroom, rfl⟩)
  obtain ⟨below, copies, horiginal, hcopy, hkinds⟩ := hcopied.alike
  have hnew : ∀ x ∈ (Forest.cons (d.graft source id).2 copies .nil).preorder,
      d.nodes.size ≤ x.index ∧ (d.graft source id).1.Holds x := by
    intro x hx
    rw [Forest.preorder, Forest.preorder, List.append_nil,
      ← hl₁.descendants_eq hcopy.1.symm hcopy.2.1, ← subtree, hcopied.fresh, List.mem_map] at hx
    obtain ⟨i, hi, rfl⟩ := hx
    rw [List.mem_range'_1] at hi
    rw [Holds, hcopied.size_eq]
    exact hi
  refine ⟨hl', .cons id below .nil, .cons (d.graft source id).2 copies .nil, rfl, horiginal,
    hcopied.kept.grown_attach hl.root_held rfl hcopy (fun x hx => (hnew x hx).1)
      fun x hx => (hnew x hx).2, ?_⟩
  have hpayloads := congrArg (Forest.map (·.getD .root)) hkinds
  rw [Forest.map_map, Forest.map_map] at hpayloads
  refine Eq.trans (Forest.map_congr fun x _ => ?_) hpayloads
  rw [kindOf, kind?_attach]

end

/-- What the rounds of rebuilding ask for, and what they do. -/
theorem Linked.forM_adopt (hs : source.Linked) {ids : List NodeId}
    (hids : ids ⊆ source.children .root) (hl : d.Linked) (hroot : d.kind? .root = some .root)
    (hone : (d.childElements .root).length ≤ 1) :
    ((∃ d', (forM ids (InPlace.adopt source)).on d = (.ok (), d')) ↔
      (d.childElements .root).length + (ids.filter source.isElement).length ≤ 1) ∧
    ∀ d', (forM ids (InPlace.adopt source)).on d = (.ok (), d') → Adopted source ids d d' := by
  induction ids generalizing d with
  | nil =>
    refine ⟨iff_of_true ⟨d, rfl⟩ hone, fun d' h => ?_⟩
    obtain rfl : d = d' := (Prod.mk.inj h).2
    exact .nil hl
  | cons id rest ih =>
    obtain ⟨hchild, hrest⟩ := List.cons_subset.1 hids
    have hparent := (hs.parent_iff id .root).2 hchild
    have hne := hs.ne_root_of_parent? hparent
    have hstep : ∀ d', (InPlace.adopt source id).on d = (.ok (), d') ↔ _ :=
      fun _ => hs.adopt_eq_ok_iff (hs.child_held hchild) hl hne hroot
    have hsum : ((id :: rest).filter source.isElement).length =
        ([id].filter source.isElement).length + (rest.filter source.isElement).length := by
      rw [← List.length_append, ← List.filter_append, List.singleton_append]
    rw [List.forM_cons]
    by_cases hroom : source.isElement id = true → d.childElements .root = []
    · obtain ⟨d₁, hd₁⟩ : ∃ d₁, (InPlace.adopt source id).on d = (.ok (), d₁) :=
        ⟨_, (hstep _).2 ⟨hroom, rfl⟩⟩
      have hadopted := hs.adopted (hs.child_held hchild) hl hne hroot hd₁
      have hcount := hadopted.length_childElements hl
      have hone₁ : (d₁.childElements .root).length ≤ 1 := by
        rw [hcount]
        by_cases he : source.isElement id = true
        · simp [hroom he, he]
        · simpa [he] using hone
      obtain ⟨hiff, hdone⟩ := ih hrest hadopted.linked ((hadopted.kind?_root hl).trans hroot) hone₁
      rw [InPlace.on_bind_of_ok hd₁]
      refine ⟨?_, fun d' h => hadopted.cons (hdone d' h) hl⟩
      rw [hiff, hcount, hsum, Nat.add_assoc]
    · have hrefused : ∀ d', (InPlace.adopt source id >>= fun _ =>
          forM rest (InPlace.adopt source)).on d ≠ (.ok (), d') := by
        intro d' h
        obtain ⟨_, d₁, hd₁, -⟩ := InPlace.on_bind_eq_ok_iff.1 h
        exact hroom ((hstep d₁).1 hd₁).1
      obtain ⟨he, hsome⟩ := Classical.not_imp.1 hroom
      have hpos : 0 < (d.childElements .root).length := List.length_pos_iff.2 hsome
      refine ⟨iff_of_false (fun ⟨d', h⟩ => hrefused d' h) ?_, fun d' h => absurd h (hrefused d')⟩
      rw [hsum, List.filter_cons_of_pos he, List.filter_nil, List.length_singleton]
      omega

/-- Documents are not the same unless their roots are. -/
theorem kind?_root_of_same (hl : d.Linked) (h : d.same d' = true) :
    d.kind? .root = d'.kind? .root := by
  obtain ⟨size, hsize⟩ : ∃ size, d.nodes.size = size + 1 :=
    Nat.exists_eq_succ_of_ne_zero (Nat.ne_zero_of_lt hl.root_held)
  rw [same, hsize, sameFrom] at h
  simp only [Bool.and_eq_true, beq_iff_eq] at h
  exact h.2.1.1

/-- A document that has been adopted as a whole is the same, once what precedes it is. -/
theorem Adopted.same (h : Adopted source (source.children .root) .empty d) (hs : source.Linked)
    (hroot : source.kind? .root = some .root) :
    Document.same { d with declaration := source.declaration, doctype := source.doctype }
      source = true := by
  have hl : Linked { d with declaration := source.declaration, doctype := source.doctype } :=
    h.linked.of_links rfl (fun _ => rfl) fun _ => rfl
  have hd : d.kind? .root = some .root := h.kind?_root sound_empty.linked
  obtain ⟨f, copies, hf, hshows, hgrown, hmap⟩ := h.trees
  have htops : copies.tops = d.children .root := hgrown.children_parent.symm
  refine (hl.same_iff hs (hd.trans hroot.symm)).2 ⟨rfl, rfl, ?_⟩
  rw [hs.payloads_eq hf hshows, ← hmap]
  exact hl.payloads_eq htops (hgrown.shows.congr fun _ _ => rfl)

/-- A document can be rebuilt from copies exactly if its root is one, with one element at most. -/
theorem Linked.rebuild_iff (hs : source.Linked) :
    (∃ d, (InPlace.rebuild source).on .empty = (.ok (), d) ∧ (d == source) = true) ↔
      source.kind? .root = some .root ∧ (source.childElements .root).length ≤ 1 := by
  obtain ⟨hiff, hdone⟩ := hs.forM_adopt (List.Subset.refl (source.children .root))
    sound_empty.linked rfl (Nat.zero_le 1)
  rw [show (Document.empty.childElements .root).length = 0 from rfl, Nat.zero_add] at hiff
  constructor
  · rintro ⟨d, hd, hsame⟩
    obtain ⟨_, d₁, hd₁, hlast⟩ := InPlace.on_bind_eq_ok_iff.1 hd
    obtain rfl := (Prod.mk.inj hlast).2
    have hadopted := hdone d₁ hd₁
    have hl : Linked { d₁ with declaration := source.declaration, doctype := source.doctype } :=
      hadopted.linked.of_links rfl (fun _ => rfl) fun _ => rfl
    refine ⟨?_, hiff.1 ⟨d₁, hd₁⟩⟩
    rw [← kind?_root_of_same hl hsame]
    exact hadopted.kind?_root sound_empty.linked
  · rintro ⟨hroot, hone⟩
    obtain ⟨d₁, hd₁⟩ := hiff.2 hone
    refine ⟨_, ?_, (hdone d₁ hd₁).same hs hroot⟩
    rw [InPlace.rebuild, InPlace.on_bind_of_ok hd₁]
    rfl

/-- Copying a node of a reachable document, other than the root, gives a detached tree of new nodes
that says the same, and leaves all else alone. A reachable document is rebuilt from such copies
exactly if its root is still one and has one element at most, as it has where no payload has been
overwritten. -/
theorem Reachable.copies_faithfully {rewrites rewrites' : Bool} (h : Reachable rewrites d)
    (hs : Reachable rewrites' source) :
    (∀ id, d.Holds id → id ≠ .root →
      ∃ d' copy, d.deepClone id = .ok (d', copy) ∧ Copied d id d d' copy) ∧
    (∀ id, source.Holds id → id ≠ .root →
      ∃ d' copy, d.importFrom source id = .ok (d', copy) ∧ Copied source id d d' copy) ∧
    ((∃ d', (InPlace.rebuild source).on .empty = (.ok (), d') ∧ (d' == source) = true) ↔
      source.kind? .root = some .root ∧ (source.childElements .root).length ≤ 1) ∧
    (rewrites' = false →
      ∃ d', (InPlace.rebuild source).on .empty = (.ok (), d') ∧ (d' == source) = true) := by
  have hcopies : ∀ {source : Document}, source.Linked → ∀ id, source.Holds id → id ≠ .root →
      ∃ d' copy, d.importFrom source id = .ok (d', copy) ∧ Copied source id d d' copy := by
    intro source hs id hid hne
    exact ⟨_, _, importFrom_eq_ok_iff.2 ⟨hne, rfl⟩, hs.copied_graft hid h.linked⟩
  refine ⟨hcopies h.linked, hcopies hs.linked, hs.linked.rebuild_iff, ?_⟩
  rintro rfl
  exact hs.linked.rebuild_iff.2 ⟨(hs.shaped.root_iff .root).2 rfl, hs.shaped.one_element⟩

/-- A document element with a text is copied within its document, and the document is rebuilt. -/
theorem Reachable.copies_document_element : ∃ d : Document, Reachable false d ∧
    (∃ d' copy, d.deepClone ⟨1⟩ = .ok (d', copy) ∧ d'.subtree copy = [⟨3⟩, ⟨4⟩] ∧
      Copied d ⟨1⟩ d d' copy) ∧
    ∃ d', (InPlace.rebuild d).on .empty = (.ok (), d') ∧ (d' == d) = true := by
  have h1 : Reachable false _ := .createElement .empty (Element.named "svg")
  have h2 := @Reachable.appendChild false _ .root ⟨1⟩ h1 (by decide) (by decide)
  have h3 := h2.createText "a"
  have h4 := @Reachable.appendChild false _ ⟨1⟩ ⟨2⟩ h3 (by decide) (by decide)
  obtain ⟨hclone, -, -, hrebuild⟩ := Reachable.copies_faithfully h4 h4
  obtain ⟨d', copy, hcopy, hcopied⟩ := hclone ⟨1⟩ (by decide) (by decide)
  exact ⟨_, h4, ⟨d', copy, hcopy, hcopied.fresh.trans (by decide), hcopied⟩, hrebuild rfl⟩

/-- Where payloads have been overwritten, a document need not be rebuilt: a second element is
refused, and the root of the new document says something else than the old one. -/
theorem Reachable.not_rebuilt :
    (∃ d, Reachable true d ∧ d.childElements .root = [⟨1⟩, ⟨2⟩] ∧
      ((InPlace.rebuild d).on .empty).1 = .error .secondDocumentElement) ∧
    ∃ d d', Reachable true d ∧ d.kind? .root = some (.comment "a") ∧
      (InPlace.rebuild d).on .empty = (.ok (), d') ∧ (d' == d) = false := by
  have h1 : Reachable true _ := .createElement .empty (Element.named "svg")
  have h2 := @Reachable.appendChild true _ .root ⟨1⟩ h1 (by decide) (by decide)
  have h3 := h2.createText "a"
  have h4 := @Reachable.appendChild true _ .root ⟨2⟩ h3 (by decide) (by decide)
  have h5 := @Reachable.setKind true _ ⟨2⟩ rfl h4 (by decide) (.element (Element.named "b"))
  have h6 := @Reachable.setKind true _ .root rfl h2 (by decide) (.comment "a")
  exact ⟨⟨_, h5, by rfl, by rfl⟩, ⟨_, _, h6, by rfl, by rfl, by rfl⟩⟩

end Document

end SvgPress
