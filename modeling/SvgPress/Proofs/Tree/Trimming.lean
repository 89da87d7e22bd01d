import SvgPress.Proofs.Tree.Pruning
import SvgPress.Proofs.Tree.Shape

/-!
# Documents that are trimmed

Trimming a document means to delete nodes, to put the children of groups in their places, and to
change the attributes of elements. What is left stands in the old order, and of two nodes that are
left one stands above the other exactly if it did before.
-/

namespace SvgPress

open Relation

/-- A payload without the attributes of an element. -/
def NodeKind.bare : NodeKind → NodeKind
  | element e => element { e with attributes := [] }
  | other => other

namespace Forest

variable {α : Type}

theorem preorder_prune_sublist (gone : α → Bool) (f : Forest α) :
    (f.prune gone).preorder.Sublist f.preorder := by
  induction f with
  | nil => exact List.Sublist.refl _
  | cons top below rest ihb ihr =>
    rw [prune, preorder]
    split_ifs
    · exact (ihr.trans (List.sublist_append_right _ _)).cons top
    · exact (ihb.append ihr).cons_cons top

variable [DecidableEq α]

/-- The forest with what stands below a node in its place. -/
def splice (x : α) : Forest α → Forest α
  | nil => nil
  | cons top below rest =>
    if top = x then below.splice x ++ rest.splice x else cons top (below.splice x) (rest.splice x)

/-- Splicing takes one node out of the order and leaves the others in theirs. -/
theorem preorder_splice (x : α) (f : Forest α) :
    (f.splice x).preorder = f.preorder.filter (· != x) := by
  induction f with
  | nil => rfl
  | cons top below rest ihb ihr =>
    rw [splice, preorder, List.filter_cons, List.filter_append, ← ihb, ← ihr]
    by_cases he : top = x
    · simp [he]
    · simp [he, preorder]

theorem preorder_splice_sublist (x : α) (f : Forest α) :
    (f.splice x).preorder.Sublist f.preorder := by
  rw [preorder_splice]
  exact List.filter_sublist

end Forest

namespace Document

variable {d d₁ d' : Document} {id parent a x : NodeId} {f : Forest NodeId}

/-! ## Where splicing leads -/

/-- A child list after the children of a node have been put in its place. -/
def replaced (d : Document) (id : NodeId) (ids : List NodeId) : List NodeId :=
  ids.flatMap fun c => if c = id then d.children id else [c]

theorem replaced_of_not_mem {ids : List NodeId} (h : id ∉ ids) : d.replaced id ids = ids := by
  induction ids with
  | nil => rfl
  | cons c ids ih =>
    have hc : c ≠ id := fun he => h (he ▸ List.mem_cons_self)
    have hids : d.replaced id ids = ids := ih fun hm => h (List.mem_cons_of_mem _ hm)
    rw [replaced] at hids ⊢
    rw [List.flatMap_cons, hids, if_neg hc]
    rfl

/-- The children of a node take its place among its siblings. -/
theorem replaced_split {before after : List NodeId} (hn : (before ++ id :: after).Nodup) :
    d.replaced id (before ++ id :: after) = before ++ d.children id ++ after := by
  rw [List.nodup_append, List.nodup_cons] at hn
  obtain ⟨-, ⟨hafter, -⟩, hbefore⟩ := hn
  have hb : d.replaced id before = before :=
    replaced_of_not_mem fun hm => hbefore id hm id List.mem_cons_self rfl
  have ha : d.replaced id after = after := replaced_of_not_mem hafter
  rw [replaced] at hb ha ⊢
  rw [List.flatMap_append, List.flatMap_cons, hb, ha, if_pos rfl, List.append_assoc]

theorem Linked.not_mem_own_children (h : d.Linked) (id : NodeId) : id ∉ d.children id := by
  intro hm
  exact h.ne_of_parent? ((h.parent_iff id id).2 hm) rfl

theorem Shows.tops_splice (h : d.Shows f) (hid : id ∉ d.children id) :
    (f.splice id).tops = d.replaced id f.tops := by
  induction f with
  | nil => rfl
  | cons top below rest ihb ihr =>
    obtain ⟨htop, hbelow, hrest⟩ := h
    have hreplaced : d.replaced id (top :: rest.tops) =
        (if top = id then d.children id else [top]) ++ d.replaced id rest.tops :=
      List.flatMap_cons
    rw [Forest.splice, Forest.tops, hreplaced, ← ihr hrest]
    by_cases he : top = id
    · subst he
      rw [if_pos rfl, if_pos rfl, Forest.tops_append, ihb hbelow, ← htop, replaced_of_not_mem hid]
    · rw [if_neg he, if_neg he]
      rfl

/-- Where the children of a node have been put in its place, the forest without it is shown. -/
theorem Shows.splice (h : d.Shows f) (hid : id ∉ d.children id)
    (hc : ∀ x, x ≠ id → d'.children x = d.replaced id (d.children x)) :
    d'.Shows (f.splice id) := by
  induction f with
  | nil => trivial
  | cons top below rest ihb ihr =>
    obtain ⟨htop, hbelow, hrest⟩ := h
    rw [Forest.splice]
    split_ifs with he
    · exact shows_append.2 ⟨ihb hbelow, ihr hrest⟩
    · refine ⟨?_, ihb hbelow, ihr hrest⟩
      rw [hc top he, htop, hbelow.tops_splice hid]

/-- Unwrapping puts the children of a node where the node stood, and changes no other children. -/
theorem Linked.children_unwrap (h : d.Linked) (hp : d.parent? id = some parent) (hx : x ≠ id) :
    (d.spliced parent id).children x = d.replaced id (d.children x) := by
  obtain ⟨before, after, hsplit, hi⟩ := h.exists_siblings hp
  rw [h.children_spliced hp hsplit hi]
  by_cases he : x = parent
  · subst he
    have hn : (before ++ id :: after).Nodup := hsplit ▸ h.nodup x
    rw [if_pos rfl, hsplit, replaced_split hn]
  · rw [if_neg he, if_neg hx, replaced_of_not_mem]
    rw [← h.parent_iff, hp]
    simpa using Ne.symm he

/-! ## What stands above what -/

/-- A node above one that can be reached from the root can be reached itself. -/
theorem Linked.attached_of_above (h : d.Linked) (hx : TransGen d.IsParent .root x)
    (ha : TransGen d.IsParent a x) : a = .root ∨ TransGen d.IsParent .root a := by
  rcases reflTransGen_total hx.to_reflTransGen ha.to_reflTransGen with hr | hr
  · exact reflTransGen_iff_eq_or_transGen.1 hr
  · rcases reflTransGen_iff_eq_or_transGen.1 hr with he | hr
    · exact .inl he.symm
    · exact absurd hr (h.not_above_root a)

/-- Detaching a node does not change what stands above the nodes that can still be reached. -/
theorem Linked.above_detach (h : d.Linked) (hx : TransGen (d.detach id).IsParent .root x) :
    TransGen (d.detach id).IsParent a x ↔ TransGen d.IsParent a x := by
  refine ⟨TransGen.mono (fun _ _ => isParent_of_detach) a x, fun ha => ?_⟩
  -- The induction climbs down from `a`; every node on the way can still be reached.
  induction ha with
  | @single x hp =>
    obtain ⟨b, -, hb⟩ := TransGen.tail'_iff.1 hx
    obtain rfl : a = b := Option.some.inj (hp.symm.trans (isParent_of_detach hb))
    exact .single hb
  | @tail y x hay hp ih =>
    obtain ⟨b, hroot, hb⟩ := TransGen.tail'_iff.1 hx
    obtain rfl : y = b := Option.some.inj (hp.symm.trans (isParent_of_detach hb))
    rcases reflTransGen_iff_eq_or_transGen.1 hroot with rfl | hroot
    · exact absurd hay (h.not_above_root a)
    · exact (ih hroot).tail hb

/-- Unwrapping an element does not change what stands above what among all other nodes. -/
theorem Linked.above_unwrap (h : d.Linked) (hp : d.parent? id = some parent) (ha : a ≠ id)
    (hx : x ≠ id) :
    TransGen (d.spliced parent id).IsParent a x ↔ TransGen d.IsParent a x := by
  constructor
  · intro ht
    induction ht with
    | single hab => exact h.transGen_of_spliced hp hab
    | @tail b c _ hbc ih =>
      have hb : b ≠ id := by
        rintro rfl
        -- Nothing stands below the unwrapped element any more.
        obtain ⟨before, after, hsplit, hi⟩ := h.exists_siblings hp
        rw [IsParent, h.parent_iff_spliced hp, h.children_spliced hp hsplit hi,
          if_neg (h.ne_of_parent? hp), if_pos rfl] at hbc
        exact absurd hbc List.not_mem_nil
      exact (ih hb).trans (h.transGen_of_spliced hp hbc)
  · intro ht
    -- The induction is on what stands above `x`.
    induction x using h.climb.transGen.induction with
    | _ x ih =>
      obtain ⟨b, hab, hb⟩ := TransGen.tail'_iff.1 ht
      have hstep : ∀ b, TransGen d.IsParent b x → b ≠ id → ReflTransGen d.IsParent a b →
          (d.spliced parent id).IsParent b x → TransGen (d.spliced parent id).IsParent a x := by
        intro b hbx hb hab hb'
        rcases reflTransGen_iff_eq_or_transGen.1 hab with rfl | hab
        · exact .single hb'
        · exact (ih b hbx hb hab).tail hb'
      by_cases he : b = id
      · subst he
        have hab' : TransGen d.IsParent a b :=
          (reflTransGen_iff_eq_or_transGen.1 hab).resolve_left (Ne.symm ha)
        obtain ⟨p, hap, hp'⟩ := TransGen.tail'_iff.1 hab'
        obtain rfl : parent = p := Option.some.inj (hp.symm.trans hp')
        refine hstep parent (.tail (.single hp) hb) (h.ne_of_parent? hp).symm hap ?_
        rw [IsParent, h.parent?_spliced, if_neg hx, if_pos ((h.parent_iff x b).1 hb)]
      · refine hstep b (.single hb) he hab ?_
        have hnot : x ∉ d.children id := by
          rw [← h.parent_iff, hb]
          simpa using he
        rw [IsParent, h.parent?_spliced, if_neg hx, if_neg hnot]
        exact hb

/-! ## Trimming -/

/-- An edit that trims a document: attributes of an element change, a node that is no element
directly under the root goes, or a group makes way for its children. -/
inductive TrimStep (d : Document) : Document → Prop
  | edit (id : NodeId) (kind : NodeKind) (h : ∀ old, d.kind? id = some old → kind.bare = old.bare) :
      TrimStep d (d.setKind id kind)
  | detach (id : NodeId) (h : id ∉ d.childElements .root) : TrimStep d (d.detach id)
  | unwrap {id : NodeId} {d' : Document} (hg : d.isElementNamed id "g" = true)
      (hr : d.parent? id ≠ some .root) (h : d.unwrap id = .ok d') : TrimStep d d'

/-- Such edits, one after the other. -/
def Trims : Document → Document → Prop :=
  ReflTransGen TrimStep

/-- What trimming leaves of a document. -/
structure Trimmed (d d' : Document) : Prop where
  linked : d'.Linked
  size_eq : d'.nodes.size = d.nodes.size
  shaped : d.Shaped → d'.Shaped
  order : (d'.descendants .root).Sublist (d.descendants .root)
  above : ∀ a x, a ∈ d'.descendants .root → x ∈ d'.descendants .root →
    (TransGen d'.IsParent a x ↔ TransGen d.IsParent a x)
  bare : ∀ x, (d'.kind? x).map (·.bare) = (d.kind? x).map (·.bare)
  /-- Only groups go without the nodes below them. -/
  gone : ∀ x y, x ∈ d.descendants .root → x ∉ d'.descendants .root → y ∈ d'.descendants .root →
    TransGen d.IsParent x y → d.isElementNamed x "g" = true
  elements : d'.childElements .root = d.childElements .root
  tops : d'.children .root ⊆ d.children .root

/-! ### Payloads without attributes -/

theorem isElement_of_bare (h : (d'.kind? x).map (·.bare) = (d.kind? x).map (·.bare)) :
    d'.isElement x = d.isElement x := by
  have hbare : ∀ d : Document,
      d.isElement x = ((d.kind? x).map (·.bare)).any (·.element?.isSome) := by
    intro d
    rw [isElement, element?]
    cases d.kind? x with
    | none => rfl
    | some kind => cases kind <;> rfl
  rw [hbare, hbare, h]

theorem isElementNamed_of_bare (h : (d'.kind? x).map (·.bare) = (d.kind? x).map (·.bare))
    (name : String) : d'.isElementNamed x name = d.isElementNamed x name := by
  have hbare : ∀ d : Document, d.isElementNamed x name =
      ((d.kind? x).map (·.bare)).any fun kind => kind.element?.any (·.isNamed name) := by
    intro d
    rw [isElementNamed, element?]
    cases d.kind? x with
    | none => rfl
    | some kind => cases kind <;> rfl
  rw [hbare, hbare, h]

/-- An element that keeps its bare payload keeps its name. -/
theorem exists_element_of_bare (h : (d'.kind? x).map (·.bare) = (d.kind? x).map (·.bare))
    {e : Element} (he : d.element? x = some e) :
    ∃ e', d'.element? x = some e' ∧ e'.name = e.name := by
  rw [element?] at he ⊢
  cases hk : d.kind? x with
  | none => simp [hk] at he
  | some kind =>
    cases hk' : d'.kind? x with
    | none => simp [hk, hk'] at h
    | some kind' =>
      rw [hk] at he h
      rw [hk'] at h
      cases kind <;> cases kind' <;> simp_all [NodeKind.bare, NodeKind.element?]

/-- Nothing but elements has anything to lose. -/
theorem kind?_of_bare (h : (d'.kind? x).map (·.bare) = (d.kind? x).map (·.bare))
    (he : d.isElement x = false) : d'.kind? x = d.kind? x := by
  rw [isElement, element?] at he
  cases hk : d.kind? x with
  | none => simpa [hk] using h
  | some kind =>
    cases hk' : d'.kind? x with
    | none => simp [hk, hk'] at h
    | some kind' =>
      rw [hk] at he h
      rw [hk'] at h
      cases kind <;> cases kind' <;> simp_all [NodeKind.bare, NodeKind.element?]

theorem isCharacterData_of_bare (h : (d'.kind? x).map (·.bare) = (d.kind? x).map (·.bare)) :
    (d'.kindOf x).isCharacterData = (d.kindOf x).isCharacterData := by
  have hbare : ∀ d : Document, (d.kindOf x).isCharacterData =
      ((d.kind? x).map (·.bare)).any (·.isCharacterData) := by
    intro d
    rw [kindOf]
    cases d.kind? x with
    | none => rfl
    | some kind => cases kind <;> rfl
  rw [hbare, hbare, h]

/-! ### The steps -/

/-- Where links stay and payloads keep all but attributes, a document is trimmed. -/
theorem Trimmed.of_links (h : d.Linked) (hs : d'.nodes.size = d.nodes.size)
    (hp : ∀ x, d'.parent? x = d.parent? x) (hc : ∀ x, d'.children x = d.children x)
    (hb : ∀ x, (d'.kind? x).map (·.bare) = (d.kind? x).map (·.bare)) : Trimmed d d' := by
  have hl : d'.Linked := h.of_links hs hp hc
  have hdescendants : d'.descendants .root = d.descendants .root :=
    h.descendants_congr hl fun x _ => hc x
  have hparent : d'.IsParent = d.IsParent := by
    funext a x
    rw [IsParent, IsParent, hp]
  have helements : d'.childElements .root = d.childElements .root := by
    rw [childElements, childElements, hc]
    exact List.filter_congr fun x _ => isElement_of_bare (hb x)
  refine ⟨hl, hs, fun hshaped => ?_, ?_, fun a x _ _ => by rw [hparent], hb, fun x y hx hx' => ?_,
    helements, ?_⟩
  · have hbare : ∀ (p : NodeKind → Bool), (∀ kind, p kind = p kind.bare) →
        ∀ x, (d'.kind? x).any p = (d.kind? x).any p := by
      intro p hkind x
      have hx := congrArg (·.any p) (hb x)
      simp only [Option.any_map, ← hkind] at hx
      exact hx
    refine ⟨fun above below hm => ?_, fun x => ?_, by rw [helements]; exact hshaped.one_element⟩
    · rw [hc] at hm
      rw [isContainer, hbare _ (fun kind => by cases kind <;> rfl)]
      exact hshaped.container above below hm
    · rw [← hshaped.root_iff]
      have hroot : ∀ d : Document,
          d.kind? x = some .root ↔ (d.kind? x).any (· == .root) = true := by
        intro d
        cases d.kind? x <;> simp
      rw [hroot, hroot, hbare _ fun kind => by cases kind <;> rfl]
  · rw [hdescendants]
  · exact absurd (hdescendants ▸ hx) hx'
  · rw [hc]
    exact List.Subset.refl _

theorem Trimmed.refl (h : d.Linked) : Trimmed d d :=
  .of_links h rfl (fun _ => rfl) (fun _ => rfl) fun _ => rfl

theorem Trimmed.trans (h : Trimmed d d₁) (h' : Trimmed d₁ d') : Trimmed d d' where
  linked := h'.linked
  size_eq := h'.size_eq.trans h.size_eq
  shaped hs := h'.shaped (h.shaped hs)
  order := h'.order.trans h.order
  above a x ha hx :=
    (h'.above a x ha hx).trans (h.above a x (h'.order.subset ha) (h'.order.subset hx))
  bare x := (h'.bare x).trans (h.bare x)
  gone x y hx hx' hy hxy := by
    have hy₁ : y ∈ d₁.descendants .root := h'.order.subset hy
    by_cases hx₁ : x ∈ d₁.descendants .root
    · have hlast := h'.gone x y hx₁ hx' hy ((h.above x y hx₁ hy₁).2 hxy)
      rwa [isElementNamed_of_bare (h.bare x)] at hlast
    · exact h.gone x y hx hx₁ hy₁ hxy
  elements := h'.elements.trans h.elements
  tops := List.Subset.trans h'.tops h.tops

/-- A payload that changes in its attributes only trims. -/
theorem trimmed_setKind (h : d.Linked) {kind : NodeKind}
    (hk : ∀ old, d.kind? id = some old → kind.bare = old.bare) : Trimmed d (d.setKind id kind) := by
  refine .of_links h (by simp [setKind]) (by simp) (by simp) fun x => ?_
  rw [kind?_setKind]
  split_ifs with hx
  · cases hold : d.kind? x with
    | none => rfl
    | some old => exact congrArg some (hk old (hx ▸ hold))
  · rfl

theorem trimmed_detach (h : d.Linked) (hid : id ∉ d.childElements .root) :
    Trimmed d (d.detach id) := by
  have hl : (d.detach id).Linked := h.detach id
  obtain ⟨f, ht, hs, -, -, -⟩ := h.exists_forest_below .root
  have hprune : (d.detach id).Shows (f.prune (· == id)) := hs.prune (h.children_detach id)
  have htops : (f.prune (· == id)).tops = (d.detach id).children .root := by
    rw [Forest.tops_prune, ht, h.children_detach]
    rfl
  refine ⟨hl, size_detach d id, fun hshaped => hshaped.detach h id, ?_, fun a x _ hx => ?_,
    fun x => by rw [kind?_detach], fun x y hx hx' hy hxy => ?_, ?_, ?_⟩
  · rw [hl.descendants_eq htops hprune, h.descendants_eq ht hs]
    exact f.preorder_prune_sublist _
  · exact h.above_detach (hl.mem_descendants_iff.1 hx)
  · -- What stands above a node that can be reached can be reached as well.
    rw [hl.mem_descendants_iff] at hx' hy
    rw [h.mem_descendants_iff] at hx
    rcases hl.attached_of_above hy ((h.above_detach hy).2 hxy) with rfl | hroot
    · exact absurd hx (h.not_above_root _)
    · exact absurd hroot hx'
  · rw [childElements, childElements, h.children_detach, List.filter_filter]
    refine List.filter_congr fun x hx => ?_
    rw [isElement_congr (kind?_detach d id x)]
    cases he : d.isElement x with
    | false => rfl
    | true =>
      have hne : x ≠ id := by
        rintro rfl
        exact hid (List.mem_filter.2 ⟨hx, he⟩)
      simpa using hne
  · rw [h.children_detach]
    exact List.filter_subset_self _

/-- A group that makes way for its children trims. -/
theorem trimmed_unwrap (h : d.Linked) (hg : d.isElementNamed id "g" = true)
    (hr : d.parent? id ≠ some .root) (hu : d.unwrap id = .ok d') : Trimmed d d' := by
  have hl : d'.Linked := h.unwrap hu
  have hshaped : d.Shaped → d'.Shaped := fun hs => hs.unwrap h hu
  obtain ⟨parent, hp, -, -, rfl⟩ := unwrap_eq_ok_iff.1 hu
  have hroot : NodeId.root ≠ id := (h.ne_root_of_parent? hp).symm
  have hchildren : (d.spliced parent id).children .root = d.children .root := by
    rw [h.children_unwrap hp hroot, replaced_of_not_mem]
    rw [← h.parent_iff]
    exact hr
  obtain ⟨f, ht, hs, -, -, -⟩ := h.exists_forest_below .root
  have hid := h.not_mem_own_children id
  have hsplice : (d.spliced parent id).Shows (f.splice id) :=
    hs.splice hid fun x hx => h.children_unwrap hp hx
  have htops : (f.splice id).tops = (d.spliced parent id).children .root := by
    rw [hs.tops_splice hid, ht, h.children_unwrap hp hroot]
  have hne : ∀ x, x ∈ (d.spliced parent id).descendants .root → x ≠ id := by
    rintro x hx rfl
    obtain ⟨b, hb, -⟩ := hl.exists_parent hx
    rw [h.parent?_spliced, if_pos rfl] at hb
    exact absurd hb (by simp)
  refine ⟨hl, size_spliced d parent id, hshaped, ?_, fun a x ha hx => ?_,
    fun x => by rw [kind?_spliced], fun x y hx hx' _ _ => ?_, ?_, ?_⟩
  · rw [hl.descendants_eq htops hsplice, h.descendants_eq ht hs]
    exact f.preorder_splice_sublist id
  · exact h.above_unwrap hp (hne a ha) (hne x hx)
  · -- Every node but the group itself can still be reached.
    have he : x = id := by
      by_contra he
      rw [h.mem_descendants_iff] at hx
      rw [hl.mem_descendants_iff] at hx'
      exact hx' ((h.above_unwrap hp hroot he).2 hx)
    rwa [he]
  · rw [childElements, childElements, hchildren]
    exact List.filter_congr fun x _ => isElement_congr (kind?_spliced d parent id x)
  · rw [hchildren]
    exact List.Subset.refl _

theorem TrimStep.trimmed (h : TrimStep d d') (hl : d.Linked) : Trimmed d d' := by
  cases h with
  | edit id kind hk => exact trimmed_setKind hl hk
  | detach id hid => exact trimmed_detach hl hid
  | unwrap hg hr hu => exact trimmed_unwrap hl hg hr hu

theorem Trims.trimmed (h : d.Trims d') (hl : d.Linked) : Trimmed d d' := by
  induction h with
  | refl => exact .refl hl
  | tail _ hstep ih => exact ih.trans (hstep.trimmed ih.linked)

end Document

end SvgPress
