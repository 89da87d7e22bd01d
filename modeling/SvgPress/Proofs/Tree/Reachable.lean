import SvgPress.Proofs.Tree.Built

/-!
# Documents that edits lead to

A document is reachable if it comes about by reading, by building described content, or from such
documents by any sequence of edits, refused ones included. The links of a reachable document are
consistent; as long as no payload is overwritten, its payloads fit their places, too. So nothing
that the edits and the traversals rely on can fail, and their loops come to an end.
-/

namespace SvgPress.Document

/-- The document after a call: a refused call leaves it as it is. -/
def after (d : Document) (outcome : Except TreeError Document) : Document :=
  outcome.toOption.getD d

/-- The documents that edits lead to. With `rewrites`, arbitrary payloads may be written into nodes
on the way, here and in the documents that are copied from. -/
inductive Reachable (rewrites : Bool) : Document → Prop
  | empty : Reachable rewrites .empty
  /-- A document that is read from a text. -/
  | parsed {s : String} {d : Document} (h : Markup.parse s = .ok d) : Reachable rewrites d
  /-- The store of a fragment that is built from a description. -/
  | described {data : ContentData} {item : ContentItem} (h : ContentItem.ofData data = .ok item) :
      Reachable rewrites item.document
  | createElement {d : Document} (h : Reachable rewrites d) (e : Element) :
      Reachable rewrites (d.create (.element e)).1
  | createText {d : Document} (h : Reachable rewrites d) (content : String) :
      Reachable rewrites (d.create (.text content)).1
  | appendChild {d : Document} {parent child : NodeId} (h : Reachable rewrites d)
      (hp : d.Holds parent) (hc : d.Holds child) :
      Reachable rewrites (d.after (d.appendChild parent child))
  /-- Move a node to a place in a child list. -/
  | insertChild {d : Document} {parent child : NodeId} (h : Reachable rewrites d)
      (hp : d.Holds parent) (index : Nat) (hc : d.Holds child) :
      Reachable rewrites (d.after (d.insertChild parent index child))
  | detach {d : Document} {id : NodeId} (h : Reachable rewrites d) (hid : d.Holds id) :
      Reachable rewrites (d.detach id)
  /-- Replace an element by its children. -/
  | unwrap {d : Document} {id : NodeId} (h : Reachable rewrites d) (hid : d.Holds id) :
      Reachable rewrites (d.after (d.unwrap id))
  | rename {d : Document} {id : NodeId} (h : Reachable rewrites d) (hid : d.Holds id)
      (name : String) : Reachable rewrites (d.after (d.rename id name))
  | deepClone {d : Document} {id : NodeId} (h : Reachable rewrites d) (hid : d.Holds id) :
      Reachable rewrites (d.after ((d.deepClone id).map (·.1)))
  | importFrom {d source : Document} {id : NodeId} (h : Reachable rewrites d)
      (hs : Reachable rewrites source) (hid : source.Holds id) :
      Reachable rewrites (d.after ((d.importFrom source id).map (·.1)))
  /-- Copy a fragment to a place in a child list; a copy that is refused its place stays. -/
  | placeItem {d : Document} {parent : NodeId} {item : ContentItem} (h : Reachable rewrites d)
      (hi : Reachable rewrites item.document) (ht : item.document.Holds item.top)
      (hp : d.Holds parent) (index : Nat) : Reachable rewrites (d.placeItem parent index item).1
  /-- Change the payload of an element to that of another element. -/
  | modifyElement {d : Document} {id : NodeId} (h : Reachable rewrites d) (hid : d.Holds id)
      (f : Element → Element) : Reachable rewrites (d.modifyElement id f)
  /-- Change what precedes the tree. -/
  | declare {d : Document} (h : Reachable rewrites d) (declaration : Option XmlDeclaration)
      (doctype : Option String) : Reachable rewrites { d with declaration, doctype }
  /-- Write any payload into a node. -/
  | setKind {d : Document} {id : NodeId} (hr : rewrites = true) (h : Reachable rewrites d)
      (hid : d.Holds id) (kind : NodeKind) : Reachable rewrites (d.setKind id kind)

/-- Nothing that the edits and the traversals compute from the links goes wrong. -/
structure Safe (d : Document) : Prop where
  /-- A child list that a child is counted out of is not empty. -/
  counted : ∀ parent child, d.parent? child = some parent → 0 < (d.children parent).length
  /-- An insertion that is not refused has its place in the child list once the node has left. -/
  inserted : ∀ parent index child d', d.insertChild parent index child = .ok d' →
    index ≤ ((d.detach child).children parent).length
  /-- A node is found in the child list of its parent. -/
  found : ∀ parent id, d.parent? id = some parent →
    ∃ index, d.indexInParent? id = some index ∧ (d.children parent)[index]? = some id
  /-- Loops that follow parents come to an end. -/
  climbing : WellFounded d.IsParent
  /-- Loops over pending nodes come to an end. -/
  walking : WellFounded d.Round
  /-- Comparisons with any other document come to an end. -/
  comparing : ∀ other, WellFounded (d.PairRound other)
  /-- The bound of `ancestors` does not cut anything off. -/
  all_ancestors : ∀ bound id, d.nodes.size ≤ bound → d.ancestorsUpTo bound id = d.ancestors id
  /-- The bound of `descendants` does not cut anything off. -/
  all_descendants : ∀ bound id, d.nodes.size ≤ bound →
    d.preorderFrom bound (d.children id) = d.descendants id
  /-- The bound of `subtreePlan` does not cut anything off. -/
  all_planned : ∀ bound id, d.Holds id → d.nodes.size ≤ bound →
    d.planFrom bound [(id, none)] 0 = d.subtreePlan id
  /-- The bound of `same` does not cut anything off. -/
  all_compared : ∀ bound other, d.nodes.size ≤ bound →
    sameFrom d other bound [(.root, .root)] = sameFrom d other d.nodes.size [(.root, .root)]

variable {d d' : Document} {id parent child : NodeId}

theorem Linked.safe (h : d.Linked) : d.Safe where
  counted parent child hp := List.length_pos_of_mem ((h.parent_iff child parent).1 hp)
  inserted parent index child d' hi := by
    rw [← h.placesUnder_eq]
    exact (insertChild_eq_ok_iff.1 hi).2.2.2.2.1
  found parent id hp := by
    obtain ⟨before, after, hsplit, hi⟩ := h.exists_siblings hp
    exact ⟨before.length, hi, by simp [hsplit]⟩
  climbing := h.climb
  walking := h.wellFounded_round
  comparing := h.wellFounded_pairRound
  all_ancestors bound id hb := h.ancestorsUpTo_eq hb id
  all_descendants bound id hb := h.preorderFrom_children_eq hb id
  all_planned bound id hid hb := by
    obtain ⟨f, hf, hs, -, -, -⟩ := h.exists_forest_below id
    rw [subtreePlan, h.planFrom_eq hid hf hs hb, h.planFrom_eq hid hf hs (Nat.le_refl _)]
  all_compared bound other hb := h.sameFrom_eq other hb

/-! ## Every edit keeps the links -/

/-- A property that all outcomes of a call have, and that the document had before, still holds. -/
theorem after_induction {motive : Document → Prop} {outcome : Except TreeError Document}
    (hd : motive d) (hok : ∀ d', outcome = .ok d' → motive d') : motive (d.after outcome) := by
  cases outcome with
  | error cause => exact hd
  | ok d' => exact hok d' rfl

theorem eq_setKind_of_rename {name : String} (h : d.rename id name = .ok d') :
    ∃ e, d.element? id = some e ∧
      d' = d.setKind id (.element { e with name := QName.ofString name }) := by
  simp only [Document.rename] at h
  split at h
  · rename_i e he
    exact ⟨e, he, (Except.ok.inj h).symm⟩
  · simp at h

/-- What copying a subtree asks for, and what it then does. -/
theorem importFrom_eq_ok_iff {source : Document} {copied : Document × NodeId} :
    d.importFrom source id = .ok copied ↔ id ≠ .root ∧ copied = d.graft source id := by
  simp only [Document.importFrom]
  split_ifs with h
  · simp [h]
  · simp [h, eq_comm]

theorem Linked.modifyElement (h : d.Linked) (id : NodeId) (f : Element → Element) :
    (d.modifyElement id f).Linked := by
  rw [Document.modifyElement]
  split
  · exact h.setKind id _
  · exact h

/-- Copying a subtree keeps every property that `graft` keeps. -/
theorem after_importFrom_induction {motive : Document → Prop} {source : Document} (hd : motive d)
    (hg : id ≠ .root → motive (d.graft source id).1) :
    motive (d.after ((d.importFrom source id).map (·.1))) := by
  refine after_induction hd fun d' h => ?_
  obtain ⟨copied, hi, rfl⟩ := Outcome.map_eq_ok_iff.1 h
  obtain ⟨hr, rfl⟩ := importFrom_eq_ok_iff.1 hi
  exact hg hr

/-- Placing a copy is copying and then inserting, with the copy kept if it is refused. -/
theorem placeItem_induction {motive : Document → Prop} {item : ContentItem} {index : Nat}
    (hd : motive d) (hg : item.top ≠ .root → motive (d.graft item.document item.top).1)
    (hi : ∀ d', item.top ≠ .root →
      (d.graft item.document item.top).1.insertChild parent index
        (d.graft item.document item.top).2 = .ok d' → motive d') :
    motive (d.placeItem parent index item).1 := by
  rw [Document.placeItem]
  split
  · exact hd
  · rename_i copied id hcopy
    obtain ⟨hr, he⟩ := importFrom_eq_ok_iff.1 hcopy
    obtain ⟨rfl, rfl⟩ := Prod.mk.inj he
    split
    · exact hg hr
    · rename_i placed hplace
      exact hi placed hr hplace

theorem Linked.holds_graft {source : Document} {top : NodeId} (hs : source.Linked)
    (ht : source.Holds top) : (d.graft source top).1.Holds (d.graft source top).2 := by
  rw [Holds, hs.size_graft ht, hs.snd_graft ht]
  exact index_copyOf_lt List.mem_cons_self

/-- The links of a reachable document are consistent. -/
theorem Reachable.linked {rewrites : Bool} (h : Reachable rewrites d) : d.Linked := by
  induction h with
  | empty => exact sound_empty.linked
  | parsed h => exact (Markup.sound_of_parse h).linked
  | described h => exact (Content.sound_of_ofData h).1.linked
  | createElement _ e ih => exact ih.create _
  | createText _ content ih => exact ih.create _
  | appendChild _ _ hc ih => exact after_induction ih fun _ ha => ih.insertChild hc ha
  | insertChild _ _ index hc ih => exact after_induction ih fun _ hi => ih.insertChild hc hi
  | detach _ _ ih => exact ih.detach _
  | unwrap _ _ ih => exact after_induction ih fun _ hu => ih.unwrap hu
  | rename _ _ name ih =>
    refine after_induction ih fun d' hr => ?_
    obtain ⟨e, -, rfl⟩ := eq_setKind_of_rename hr
    exact ih.setKind _ _
  | deepClone _ hid ih => exact after_importFrom_induction ih fun _ => ih.graft hid ih
  | importFrom _ _ hid ih ihs => exact after_importFrom_induction ih fun _ => ihs.graft hid ih
  | placeItem _ _ ht _ index ih ihi =>
    exact placeItem_induction ih (fun _ => ihi.graft ht ih)
      fun d' _ hi => (ihi.graft ht ih).insertChild (ihi.holds_graft ht) hi
  | modifyElement _ _ f ih => exact ih.modifyElement _ f
  | declare _ declaration doctype ih => exact ih.of_links rfl (fun _ => rfl) (fun _ => rfl)
  | setKind _ _ _ kind ih => exact ih.setKind _ kind

/-- As long as no payload is overwritten, payloads fit their places. -/
theorem Reachable.shaped (h : Reachable false d) : d.Shaped := by
  induction h with
  | empty => exact sound_empty.shaped
  | parsed h => exact (Markup.sound_of_parse h).shaped
  | described h => exact (Content.sound_of_ofData h).1.shaped
  | createElement h e ih => exact ih.create h.linked (by simp)
  | createText h content ih => exact ih.create h.linked (by simp)
  | appendChild h _ _ ih => exact after_induction ih fun _ ha => ih.insertChild h.linked ha
  | insertChild h _ index _ ih =>
    exact after_induction ih fun _ hi => ih.insertChild h.linked hi
  | detach h _ ih => exact ih.detach h.linked _
  | unwrap h _ ih => exact after_induction ih fun _ hu => ih.unwrap h.linked hu
  | rename _ _ name ih =>
    refine after_induction ih fun d' hrename => ?_
    obtain ⟨e, he, rfl⟩ := eq_setKind_of_rename hrename
    exact ih.setElement (by rw [isElement, he]; rfl) _
  | deepClone h hid ih =>
    exact after_importFrom_induction ih fun hroot =>
      ih.graft h.linked h.linked ih hid hroot
  | importFrom h hs hid ih ihs =>
    exact after_importFrom_induction ih fun hroot =>
      ih.graft h.linked hs.linked ihs hid hroot
  | placeItem h hs ht _ index ih ihs =>
    have hgraft : ∀ hroot, _ := fun hroot => ih.graft h.linked hs.linked ihs ht hroot
    exact placeItem_induction ih hgraft fun d' hroot hi =>
      (hgraft hroot).insertChild (hs.linked.graft ht h.linked) hi
  | modifyElement _ _ f ih => exact ih.modifyElement _ f
  | declare _ declaration doctype ih => exact ih.congr (fun _ => rfl) (fun _ => rfl)
  | setKind hrewrites _ _ kind ih => exact absurd hrewrites (by simp)

/-- The links of every reachable document are consistent, and nothing that relies on them goes
wrong; payloads fit their places unless they have been overwritten. -/
theorem Reachable.consistent {rewrites : Bool} (h : Reachable rewrites d) :
    d.Linked ∧ (rewrites = false → d.Shaped) ∧ d.Safe := by
  refine ⟨h.linked, fun hr => ?_, h.linked.safe⟩
  subst hr
  exact h.shaped

/-- An unwrapped document element leaves its only child in its place, and a second unwrapping, of
the element that is no longer there, is refused. -/
theorem Reachable.consistent_of_unwrapped : ∃ d : Document, Reachable false d ∧
    d.children .root = [⟨2⟩] ∧ d.parent? ⟨1⟩ = none ∧
    d.Linked ∧ (false = false → d.Shaped) ∧ d.Safe := by
  have h1 : Reachable false _ := .createElement .empty (Element.named "svg")
  have h2 := @Reachable.appendChild false _ .root ⟨1⟩ h1 (by decide) (by decide)
  have h3 := h2.createElement (Element.named "g")
  have h4 := @Reachable.appendChild false _ ⟨1⟩ ⟨2⟩ h3 (by decide) (by decide)
  have h5 := @Reachable.unwrap false _ ⟨1⟩ h4 (by decide)
  have h6 := @Reachable.unwrap false _ ⟨1⟩ h5 (by decide)
  exact ⟨_, h6, by decide, by decide, Reachable.consistent h6⟩

end SvgPress.Document
