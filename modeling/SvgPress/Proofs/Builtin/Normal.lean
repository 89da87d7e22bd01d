import SvgPress.Proofs.Builtin.Shrinking

/-!
# Trees that the preset leaves alone

The preset leaves attributes in order and colors short, and its plugins find nothing to do on such
trees unless they make them smaller. So whatever the preset makes of trees of this kind takes fewer
bytes than before, or it is the same.
-/

namespace SvgPress

open Builtin

/-! ## Attributes in order -/

namespace Builtin

theorem mayPrecede_total (a b : Attribute) : (mayPrecede a b || mayPrecede b a) = true := by
  have htotal : (!decide (b.name.full < a.name.full) || !decide (a.name.full < b.name.full)) =
      true := by
    rw [Bool.or_eq_true, Bool.not_eq_true', Bool.not_eq_true', decide_eq_false_iff_not,
      decide_eq_false_iff_not]
    exact (String.le_total a.name.full b.name.full).imp String.not_lt.2 String.not_lt.2
  unfold mayPrecede
  cases a.name.isNamespaceDeclaration <;> cases b.name.isNamespaceDeclaration <;>
    first | exact htotal | rfl

theorem mayPrecede_trans (a b c : Attribute) :
    mayPrecede a b = true → mayPrecede b c = true → mayPrecede a c = true := by
  have htrans : (!decide (b.name.full < a.name.full)) = true →
      (!decide (c.name.full < b.name.full)) = true → (!decide (c.name.full < a.name.full)) = true := by
    rw [Bool.not_eq_true', Bool.not_eq_true', Bool.not_eq_true', decide_eq_false_iff_not,
      decide_eq_false_iff_not, decide_eq_false_iff_not]
    exact fun hab hbc => String.not_lt.2 (String.le_trans (String.not_lt.1 hab) (String.not_lt.1 hbc))
  unfold mayPrecede
  cases a.name.isNamespaceDeclaration <;> cases b.name.isNamespaceDeclaration <;>
    cases c.name.isNamespaceDeclaration <;> first | exact htrans | simp

theorem mayPrecede_of_name_eq {a b : Attribute} (h : a.name = b.name) :
    mayPrecede a b = true := by
  have hself : (!decide (b.name.full < b.name.full)) = true := by
    rw [decide_eq_false (String.lt_irrefl _), Bool.not_false]
  rw [mayPrecede, h]
  cases b.name.isNamespaceDeclaration <;> exact hself

/-- Attributes that may stand in either order stay in the one that they have. -/
theorem filter_sortElementAttributes {p : Attribute → Bool}
    (h : ∀ a b, p a = true → p b = true → mayPrecede a b = true) (e : Element) :
    (sortElementAttributes e).attributes.filter p = e.attributes.filter p := by
  have hordered : (e.attributes.filter p).Pairwise fun a b => mayPrecede a b = true :=
    List.pairwise_of_forall_mem_list fun a ha b hb =>
      h a b (List.mem_filter.1 ha).2 (List.mem_filter.1 hb).2
  have hsub := (List.sublist_mergeSort mayPrecede_trans mayPrecede_total hordered
    List.filter_sublist).filter p
  rw [List.filter_filter, List.filter_congr fun a _ => Bool.and_self (p a)] at hsub
  have hlength := ((List.mergeSort_perm e.attributes mayPrecede).filter p).length_eq
  exact (hsub.eq_of_length hlength.symm).symm

/-- The first attribute of a name stays the first one, so look-ups find what they found. -/
theorem attr?_sortElementAttributes (e : Element) :
    (sortElementAttributes e).attr? = e.attr? := by
  funext name
  have hspelled : ∀ a b : Attribute, a.name.isSpelled name = true →
      b.name.isSpelled name = true → mayPrecede a b = true := fun a b ha hb =>
    mayPrecede_of_name_eq ((QName.isSpelled_iff.1 ha).trans (QName.isSpelled_iff.1 hb).symm)
  rw [Element.attr?, Element.attr?, ← List.head?_filter, ← List.head?_filter,
    filter_sortElementAttributes hspelled]

end Builtin

/-- An element as the preset leaves it. -/
structure Element.IsNormal (e : Element) : Prop where
  short : ∀ a ∈ e.attributes, a.IsShort
  ordered : e.attributes.Pairwise fun a b => mayPrecede a b = true

/-- All elements are as the preset leaves them. -/
def Forest.IsNormal (f : Forest NodeKind) : Prop :=
  ∀ kind ∈ f.preorder, ∀ e ∈ kind.element?, e.IsNormal

namespace Builtin

variable {e g c : Element}

theorem size_sortElementAttributes (e : Element) : (sortElementAttributes e).size = e.size := by
  have hperm := (List.mergeSort_perm e.attributes mayPrecede).map Attribute.size
  rw [Element.size, Element.size, sortElementAttributes, hperm.sum_eq]

theorem sortElementAttributes_of_isNormal (h : e.IsNormal) : sortElementAttributes e = e := by
  rw [sortElementAttributes, List.mergeSort_of_pairwise h.ordered]

theorem isNormal_sortElementAttributes (h : ∀ a ∈ e.attributes, a.IsShort) :
    (sortElementAttributes e).IsNormal where
  short a ha := h a (List.mem_mergeSort.1 ha)
  ordered := List.pairwise_mergeSort mayPrecede_trans mayPrecede_total _

theorem isChecked_sortElementAttributes (h : e.IsChecked) : (sortElementAttributes e).IsChecked where
  name := h.name
  attributes a ha := h.attributes a (List.mem_mergeSort.1 ha)
  distinct := ((List.mergeSort_perm e.attributes mayPrecede).map _).nodup_iff.2 h.distinct

/-- What a group may hand down are no names that its child has. -/
theorem isChecked_handDown (hg : g.IsChecked) (hc : c.IsChecked) (h : canHandDown g c = true) :
    Element.IsChecked { c with attributes := c.attributes ++ g.attributes } where
  name := hc.name
  attributes a ha := (List.mem_append.1 ha).elim (hc.attributes a) (hg.attributes a)
  distinct := nodup_names_receive hg.distinct hc.distinct h

end Builtin

/-! ## What is done to trees -/

namespace Forest

variable {s : List NodeKind → NodeKind → Option NodeKind} {above : List NodeKind}
  {t : Bool → NodeKind → Forest NodeKind → Forest NodeKind} {top : Bool}
  {P Q : NodeKind → Prop} {f : Forest NodeKind} {kind : NodeKind} {below rest : Forest NodeKind}

theorem forall_mem_preorder_cons : (∀ x ∈ (cons kind below rest).preorder, P x) ↔
    P kind ∧ (∀ x ∈ below.preorder, P x) ∧ ∀ x ∈ rest.preorder, P x := by
  simp only [preorder, List.forall_mem_cons, List.forall_mem_append]

theorem forall_mem_settle (hs : ∀ above kind kind', P kind → s above kind = some kind' → Q kind')
    (h : ∀ kind ∈ f.preorder, P kind) : ∀ kind ∈ (f.settle s above).preorder, Q kind := by
  induction f generalizing above with
  | nil => exact fun _ hm => absurd hm List.not_mem_nil
  | cons kind below rest ihb ihr =>
    obtain ⟨hkind, hbelow, hrest⟩ := forall_mem_preorder_cons.1 h
    rw [settle]
    split
    · exact ihr hrest
    · rename_i kind' hkind'
      exact forall_mem_preorder_cons.2 ⟨hs _ _ _ hkind hkind', ihb hbelow, ihr hrest⟩

theorem forall_mem_rebuild (ht : ∀ top kind below, P kind → (∀ x ∈ below.preorder, P x) →
      ∀ x ∈ (t top kind below).preorder, P x)
    (h : ∀ kind ∈ f.preorder, P kind) : ∀ kind ∈ (f.rebuild t top).preorder, P kind := by
  induction f generalizing top with
  | nil => exact fun _ hm => absurd hm List.not_mem_nil
  | cons kind below rest ihb ihr =>
    obtain ⟨hkind, hbelow, hrest⟩ := forall_mem_preorder_cons.1 h
    rw [rebuild, preorder_append, List.forall_mem_append]
    exact ⟨ht _ _ _ hkind (ihb hbelow), ihr hrest⟩

theorem editFirst_cons_of_other (h : kind.element? = none) (edit : Element → Element) :
    (cons kind below rest).editFirst edit = cons kind below (rest.editFirst edit) := by
  cases kind with
  | element e => simp [NodeKind.element?] at h
  | _ => rfl

theorem forall_mem_editFirst {edit : Element → Element}
    (he : ∀ e, P (.element e) → P (.element (edit e))) (h : ∀ kind ∈ f.preorder, P kind) :
    ∀ kind ∈ (f.editFirst edit).preorder, P kind := by
  induction f with
  | nil => exact fun _ hm => absurd hm List.not_mem_nil
  | cons kind below rest _ ihr =>
    obtain ⟨hkind, hbelow, hrest⟩ := forall_mem_preorder_cons.1 h
    cases kind with
    | element e => exact forall_mem_preorder_cons.2 ⟨he e hkind, hbelow, hrest⟩
    | _ =>
      rw [editFirst_cons_of_other rfl]
      exact forall_mem_preorder_cons.2 ⟨hkind, hbelow, ihr hrest⟩

/-! ## Sizes -/

theorem size_settle_le (hs : ∀ kind ∈ f.preorder, ∀ above kind', s above kind = some kind' →
      kind'.Lighter kind) : (f.settle s above).size ≤ f.size := by
  induction f generalizing above with
  | nil => exact Nat.le_refl _
  | cons kind below rest ihb ihr =>
    obtain ⟨hkind, hbelow, hrest⟩ := forall_mem_preorder_cons.1 hs
    rw [settle]
    split
    · exact Nat.le_add_left_of_le (ihr hrest)
    · rename_i kind' hkind'
      exact size_cons_le (hkind _ _ hkind') (fun h => by rw [h]; rfl) (ihb hbelow) (ihr hrest)

theorem settle_of_size (hs : ∀ kind ∈ f.preorder, ∀ above kind', s above kind = some kind' →
      kind'.Lighter kind ∧ kind'.Settles kind) (hf : f.IsReadable) (hfits : f.Fits)
    (h : (f.settle s above).size = f.size) : f.settle s above = f := by
  induction f generalizing above with
  | nil => rfl
  | cons kind below rest ihb ihr =>
    obtain ⟨hskind, hsbelow, hsrest⟩ := forall_mem_preorder_cons.1 hs
    obtain ⟨hkind, hbelow, hrest⟩ := isReadable_cons_iff.1 hf
    obtain ⟨hroot, hleaf, hfbelow, hfrest⟩ := hfits
    have hlebelow : ∀ above, (below.settle s above).size ≤ below.size := fun above =>
      size_settle_le fun kind hk above kind' hkind' => (hsbelow kind hk above kind' hkind').1
    have hlerest : (rest.settle s above).size ≤ rest.size :=
      size_settle_le fun kind hk above kind' hkind' => (hsrest kind hk above kind' hkind').1
    rw [settle] at h ⊢
    split at h
    · have hpos : 0 < kind.size below.tops.isEmpty below.size := NodeKind.size_pos hroot hkind
      rw [size] at h
      omega
    · rename_i kind' hkind'
      obtain ⟨hlighter, hsettles⟩ := hskind _ _ hkind'
      exact cons_eq_of_size hlighter hsettles (fun h => by rw [h]; rfl) (hlebelow _) hlerest hleaf
        (ihb hsbelow hbelow hfbelow) (ihr hsrest hrest hfrest) h

theorem size_rebuild_le (ht : ∀ top kind below, (t top kind below).size ≤
      (cons kind below nil).size) (f : Forest NodeKind) (top : Bool) :
    (f.rebuild t top).size ≤ f.size := by
  induction f generalizing top with
  | nil => exact Nat.le_refl _
  | cons kind below rest ihb ihr =>
    have hkind : (cons kind (below.rebuild t false) nil).size ≤ (cons kind below nil).size :=
      size_cons_le (fun _ _ => Nat.le_refl _) (fun h => by rw [h]; rfl) (ihb false) (Nat.le_refl _)
    rw [rebuild, size_append, size]
    exact Nat.add_le_add (le_trans (ht _ _ _) hkind) (ihr top)

theorem rebuild_of_size (ht : ∀ top kind below, (t top kind below).size ≤
      (cons kind below nil).size ∧ ((t top kind below).size = (cons kind below nil).size →
        t top kind below = cons kind below nil)) (hfits : f.Fits)
    (h : (f.rebuild t top).size = f.size) : f.rebuild t top = f := by
  induction f generalizing top with
  | nil => rfl
  | cons kind below rest ihb ihr =>
    obtain ⟨-, hleaf, hfbelow, hfrest⟩ := hfits
    have hle := size_rebuild_le fun top kind below => (ht top kind below).1
    have hnil : below = nil → below.rebuild t false = nil := fun h => by rw [h]; rfl
    have hkind : (cons kind (below.rebuild t false) nil).size ≤ (cons kind below nil).size :=
      size_cons_le (fun _ _ => Nat.le_refl _) hnil (hle below false) (Nat.le_refl _)
    obtain ⟨htle, hteq⟩ := ht top kind (below.rebuild t false)
    have hrest := hle rest top
    rw [rebuild, size_append] at h
    rw [size] at h
    have hone : (cons kind below nil).size = kind.size below.tops.isEmpty below.size := rfl
    have hbelow : cons kind (below.rebuild t false) nil = cons kind below nil :=
      cons_eq_of_size (fun _ _ => Nat.le_refl _) (fun _ _ _ => rfl) hnil (hle below false)
        (Nat.le_refl _) hleaf (ihb hfbelow) (fun _ => rfl) (by omega)
    rw [rebuild, hteq (by omega), hbelow, ihr hfrest (by omega)]
    rfl

theorem size_editFirst_le {edit : Element → Element} (hn : ∀ e, (edit e).name = e.name)
    (he : ∀ e, (edit e).size ≤ e.size) (f : Forest NodeKind) : (f.editFirst edit).size ≤ f.size := by
  induction f with
  | nil => exact Nat.le_refl _
  | cons kind below rest _ ihr =>
    cases kind with
    | element e =>
      exact size_cons_le (NodeKind.lighter_element (hn e) (he e)) id (Nat.le_refl _) (Nat.le_refl _)
    | _ =>
      rw [editFirst_cons_of_other rfl]
      exact size_cons_le (fun _ _ => Nat.le_refl _) id (Nat.le_refl _) ihr

theorem editFirst_of_size {edit : Element → Element} (hn : ∀ e, (edit e).name = e.name)
    (he : ∀ e, (edit e).size ≤ e.size ∧ ((edit e).size = e.size → edit e = e)) (hfits : f.Fits)
    (h : (f.editFirst edit).size = f.size) : f.editFirst edit = f := by
  induction f with
  | nil => rfl
  | cons kind below rest _ ihr =>
    obtain ⟨-, hleaf, -, hfrest⟩ := hfits
    cases kind with
    | element e =>
      exact cons_eq_of_size (NodeKind.lighter_element (hn e) (he e).1)
        (NodeKind.settles_element (hn e) (he e).2) id (Nat.le_refl _) (Nat.le_refl _) hleaf
        (fun _ => rfl) (fun _ => rfl) h
    | _ =>
      rw [editFirst_cons_of_other rfl] at h ⊢
      exact cons_eq_of_size (fun _ _ => Nat.le_refl _) (fun _ _ _ => rfl) id (Nat.le_refl _)
        (size_editFirst_le hn (fun e => (he e).1) rest) hleaf (fun _ => rfl) (ihr hfrest) h

end Forest

/-! ## What the preset does to trees -/

/-- The path data of all elements, and what they become. -/
def Forest.pathChanges (f : Forest NodeKind) : List (String × String) :=
  f.preorder.filterMap fun kind => kind.element?.bind pathChange?

theorem Edit.settle_cons_eq_some_iff {edit : Edit} {edits : List Edit} {above : List NodeKind}
    {kind kind' : NodeKind} : Edit.settle (edit :: edits) above kind = some kind' ↔
      (edit above kind).2 = .keep ∧ Edit.settle edits above (edit above kind).1 = some kind' := by
  rw [Edit.settle]
  rcases edit above kind with ⟨edited, _ | _⟩ <;> simp

namespace Builtin

variable {f : Forest NodeKind} {kind kind' : NodeKind} {above : List NodeKind} {top : Bool}
  {below : Forest NodeKind} {g : Element} {P : NodeKind → Prop}

/-- What the plugins that visit parents first make of a payload that stays. -/
def frontKind (above : List NodeKind) : NodeKind → NodeKind
  | .element e => .element (frontElement above e)
  | kind => kind

/-- What the plugin that orders attributes makes of a payload. -/
def sortedKind : NodeKind → NodeKind
  | .element e => .element (sortElementAttributes e)
  | kind => kind

theorem settle_frontEdits (h : Edit.settle frontEdits above kind = some kind') :
    kind' = frontKind above kind := by
  rw [frontEdits, Edit.settle_cons_eq_some_iff] at h
  obtain ⟨-, h⟩ := h
  rw [Edit.settle_cons_eq_some_iff] at h
  obtain ⟨-, h⟩ := h
  rw [Edit.settle_cons_eq_some_iff] at h
  obtain ⟨hkeep, h⟩ := h
  rw [Edit.settle_cons_eq_some_iff] at h
  obtain ⟨-, h⟩ := h
  cases kind with
  | element e =>
    simp only [commentEdit, metadataEdit, editorEdit, hiddenEdit, Edit.ofElement] at hkeep h
    split_ifs at hkeep h with heditor
    exact (Option.some.inj h).symm
  | _ => exact (Option.some.inj h).symm

theorem settle_sortEdit (above : List NodeKind) (kind : NodeKind) :
    Edit.settle [sortEdit] above kind = some (sortedKind kind) := by
  cases kind <;> rfl

/-! ### Groups -/

theorem handed_cases (g : Element) (below : Forest NodeKind) :
    (∃ c inner, below = .cons (.element c) inner .nil ∧ canHandDown g c = true ∧
      handed g below = ({ g with attributes := [] },
        .cons (.element { c with attributes := c.attributes ++ g.attributes }) inner .nil)) ∨
    handed g below = (g, below) := by
  rw [handed.eq_def]
  split
  · rename_i c inner
    split_ifs with hcan
    · exact .inl ⟨c, inner, rfl, hcan, rfl⟩
    · exact .inr rfl
  · exact .inr rfl

/-- A group gets smaller, unless it stays as it is. -/
theorem size_ungrouped (g : Element) (below : Forest NodeKind) :
    (ungrouped g below).size < (Forest.cons (.element g) below .nil).size ∨
      ungrouped g below = .cons (.element g) below .nil := by
  rw [ungrouped]
  rcases handed_cases g below with ⟨c, inner, rfl, -, h⟩ | h
  · rw [h]
    refine .inl ?_
    simp only [List.isEmpty_nil, if_true, Forest.size, NodeKind.size, Element.size, Forest.tops,
      List.isEmpty_cons, Bool.false_eq_true, if_false, List.map_append, List.sum_append]
    split_ifs <;> omega
  · rw [h]
    split_ifs
    · refine .inl ?_
      simp only [Forest.size, NodeKind.size]
      split_ifs with hempty
      · rw [Forest.isEmpty_tops_iff.1 hempty, Forest.size]
        omega
      · omega
    · exact .inr rfl

/-- A group is collapsed, and any other tree stays. -/
theorem collapsed_cases (top : Bool) (kind : NodeKind) (below : Forest NodeKind) :
    (∃ g, kind = .element g ∧ g.isNamed "g" = true ∧
        collapsed top kind below = ungrouped g below) ∨
      collapsed top kind below = .cons kind below .nil := by
  rw [collapsed]
  split
  · rename_i g hg
    obtain ⟨hkind, hgroup⟩ := Option.filter_eq_some_iff.1 hg
    obtain rfl : kind = .element g := by cases kind <;> simp_all [NodeKind.element?]
    exact .inl ⟨g, rfl, (Bool.and_eq_true_iff.1 hgroup).1, rfl⟩
  · exact .inr rfl

/-- A container without children goes, a group is collapsed, and any other tree stays. -/
theorem tidied_cases (top : Bool) (kind : NodeKind) (below : Forest NodeKind) :
    (∃ e, kind = .element e ∧ tidied top kind below = .nil) ∨
      (∃ g, kind = .element g ∧ g.isNamed "g" = true ∧
        tidied top kind below = ungrouped g below) ∨
      tidied top kind below = .cons kind below .nil := by
  rw [tidied]
  split_ifs with hgoes
  · cases kind with
    | element e => exact .inl ⟨e, rfl, rfl⟩
    | _ => simp [goes, NodeKind.element?] at hgoes
  · exact .inr (collapsed_cases top kind below)

/-- A tree gets smaller, unless it stays as it is. -/
theorem size_tidied (top : Bool) (kind : NodeKind) (below : Forest NodeKind) :
    (tidied top kind below).size < (Forest.cons kind below .nil).size ∨
      tidied top kind below = .cons kind below .nil := by
  rcases tidied_cases top kind below with ⟨e, rfl, h⟩ | ⟨g, rfl, -, h⟩ | h
  · refine .inl ?_
    rw [h, Forest.size, Forest.size, NodeKind.size, Element.size]
    omega
  · rw [h]
    exact size_ungrouped g below
  · exact .inr h

theorem size_tidied_le (top : Bool) (kind : NodeKind) (below : Forest NodeKind) :
    (tidied top kind below).size ≤ (Forest.cons kind below .nil).size :=
  (size_tidied top kind below).elim Nat.le_of_lt fun h => h ▸ Nat.le_refl _

section

variable (hdown : ∀ g c, g.isNamed "g" = true → P (.element g) → P (.element c) →
  canHandDown g c = true → P (.element { c with attributes := c.attributes ++ g.attributes }))
include hdown

/-- What holds of all payloads, and of elements that are handed down what groups have, holds of what
is left of a group. -/
theorem forall_mem_ungrouped (hnamed : g.isNamed "g" = true)
    (h : ∀ x ∈ (Forest.cons (.element g) below .nil).preorder, P x) :
    ∀ x ∈ (ungrouped g below).preorder, P x := by
  obtain ⟨hg, hbelow, -⟩ := Forest.forall_mem_preorder_cons.1 h
  rw [ungrouped]
  rcases handed_cases g below with ⟨c, inner, rfl, hcan, hh⟩ | hh
  · rw [hh]
    obtain ⟨hc, hinner, hnil⟩ := Forest.forall_mem_preorder_cons.1 hbelow
    exact Forest.forall_mem_preorder_cons.2 ⟨hdown g c hnamed hg hc hcan, hinner, hnil⟩
  · rw [hh]
    split_ifs
    · exact hbelow
    · exact h

theorem forall_mem_tidied (hkind : P kind) (hbelow : ∀ x ∈ below.preorder, P x) :
    ∀ x ∈ (tidied top kind below).preorder, P x := by
  have hsame : ∀ x ∈ (Forest.cons kind below .nil).preorder, P x :=
    Forest.forall_mem_preorder_cons.2 ⟨hkind, hbelow, fun _ hm => absurd hm List.not_mem_nil⟩
  rcases tidied_cases top kind below with ⟨e, rfl, h⟩ | ⟨g, rfl, hnamed, h⟩ | h
  · rw [h]
    exact fun _ hm => absurd hm List.not_mem_nil
  · rw [h]
    exact forall_mem_ungrouped hdown hnamed hsame
  · rw [h]
    exact hsame

end

/-! ### All of the preset -/

theorem lighter_frontKind (h : ∀ x ∈ kind.element?.bind pathChange?, valueSize x.2 ≤ valueSize x.1)
    (above : List NodeKind) : (frontKind above kind).Lighter kind := by
  cases kind with
  | element e =>
    exact NodeKind.lighter_element (within_frontElement above e).name (size_frontElement_le h)
  | _ => exact fun _ _ => Nat.le_refl _

theorem settles_frontKind (hn : ∀ e ∈ kind.element?, e.IsNormal)
    (h : ∀ x ∈ kind.element?.bind pathChange?, x.2 = x.1 ∨ valueSize x.2 < valueSize x.1)
    (above : List NodeKind) : (frontKind above kind).Settles kind := by
  cases kind with
  | element e =>
    exact NodeKind.settles_element (within_frontElement above e).name
      (frontElement_of_size (hn e rfl).short h)
  | _ => exact fun _ _ _ => rfl

theorem lighter_sortedKind (kind : NodeKind) : (sortedKind kind).Lighter kind := by
  cases kind with
  | element e => exact NodeKind.lighter_element rfl (Nat.le_of_eq (size_sortElementAttributes e))
  | _ => exact fun _ _ => Nat.le_refl _

theorem sortedKind_of_isNormal (h : ∀ e ∈ kind.element?, e.IsNormal) : sortedKind kind = kind := by
  cases kind with
  | element e => rw [sortedKind, sortElementAttributes_of_isNormal (h e rfl)]
  | _ => rfl

theorem size_withoutUnused_le (f : Forest NodeKind) : (withoutUnused f).size ≤ f.size := by
  have hle := fun e : Element => e.size_keepAttrs_le (isUsed (qualifiersIn f))
  exact Forest.size_editFirst_le (fun _ => by rfl) hle f

theorem size_sorted_le (f : Forest NodeKind) :
    (f.settle (Edit.settle [sortEdit]) [.root]).size ≤ f.size := by
  refine Forest.size_settle_le fun kind _ above kind' hs => ?_
  rw [settle_sortEdit] at hs
  exact Option.some.inj hs ▸ lighter_sortedKind kind

theorem size_front_le (h : ∀ x ∈ f.pathChanges, valueSize x.2 ≤ valueSize x.1) :
    (f.settle (Edit.settle frontEdits) [.root]).size ≤ f.size := by
  refine Forest.size_settle_le fun kind hk above kind' hs => ?_
  rw [settle_frontEdits hs]
  exact lighter_frontKind (fun x hx => h x (List.mem_filterMap.2 ⟨kind, hk, hx⟩)) above

/-- The preset makes no trees larger, unless path data get larger. -/
theorem size_presetForest_le (h : ∀ x ∈ f.pathChanges, valueSize x.2 ≤ valueSize x.1) :
    (presetForest f).size ≤ f.size :=
  le_trans (size_sorted_le _) <| le_trans (size_withoutUnused_le _) <|
    le_trans (Forest.size_rebuild_le size_tidied_le _ true) (size_front_le h)

/-- The preset makes trees in normal form smaller, unless they stay as they are or path data change
without getting smaller. -/
theorem presetForest_of_size (hf : f.IsReadable) (hfits : f.Fits) (hn : f.IsNormal)
    (h : ∀ x ∈ f.pathChanges, x.2 = x.1 ∨ valueSize x.2 < valueSize x.1)
    (hs : (presetForest f).size = f.size) : presetForest f = f := by
  have hpath : ∀ x ∈ f.pathChanges, valueSize x.2 ≤ valueSize x.1 := fun x hx =>
    (h x hx).elim (fun he => he ▸ Nat.le_refl _) Nat.le_of_lt
  have h₁ := size_front_le hpath
  have h₂ := Forest.size_rebuild_le size_tidied_le (f.settle (Edit.settle frontEdits) [.root]) true
  have h₃ := size_withoutUnused_le ((f.settle (Edit.settle frontEdits) [.root]).rebuild tidied true)
  have h₄ := size_sorted_le (withoutUnused
    ((f.settle (Edit.settle frontEdits) [.root]).rebuild tidied true))
  rw [presetForest] at hs ⊢
  -- Nothing gets larger, so nothing may get smaller on the way either.
  have hfront : f.settle (Edit.settle frontEdits) [.root] = f := by
    refine Forest.settle_of_size (fun kind hk above kind' hk' => ?_) hf hfits (by omega)
    have hchange : ∀ x ∈ kind.element?.bind pathChange?, x ∈ f.pathChanges := fun x hx =>
      List.mem_filterMap.2 ⟨kind, hk, hx⟩
    rw [settle_frontEdits hk']
    exact ⟨lighter_frontKind (fun x hx => hpath x (hchange x hx)) above,
      settles_frontKind (hn kind hk) (fun x hx => h x (hchange x hx)) above⟩
  rw [hfront] at h₂ h₃ h₄ hs ⊢
  have htidied : f.rebuild tidied true = f := by
    refine Forest.rebuild_of_size (fun top kind below => ?_) hfits (by omega)
    exact ⟨size_tidied_le top kind below, fun he =>
      (size_tidied top kind below).resolve_left (Nat.not_lt.2 (Nat.le_of_eq he.symm))⟩
  rw [htidied] at h₃ h₄ hs ⊢
  have hused : withoutUnused f = f :=
    Forest.editFirst_of_size (fun _ => rfl)
      (fun e => ⟨e.size_keepAttrs_le (isUsed (qualifiersIn f)), Element.keepAttrs_of_size⟩) hfits
      (by rw [withoutUnused] at h₃ h₄ hs; omega)
  rw [hused]
  refine Forest.settle_of_size (fun kind hk above kind' hk' => ?_) hf hfits (by rw [← hused]; omega)
  rw [settle_sortEdit, sortedKind_of_isNormal (hn kind hk)] at hk'
  obtain rfl := Option.some.inj hk'
  exact ⟨fun _ _ => Nat.le_refl _, fun _ _ _ => rfl⟩

/-- What the preset leaves can be read again, and is in normal form. -/
theorem isNormal_presetForest (h : f.IsReadable) :
    (presetForest f).IsReadable ∧ (presetForest f).IsNormal := by
  have hfront : ∀ kind ∈ (f.settle (Edit.settle frontEdits) [.root]).preorder,
      kind.IsReadable ∧ ∀ e ∈ kind.element?, ∀ a ∈ e.attributes, a.IsShort := by
    refine Forest.forall_mem_settle (fun above kind kind' hk hs => ?_) h
    rw [settle_frontEdits hs]
    cases kind with
    | element e =>
      refine ⟨(within_frontElement above e).isChecked hk, fun _ he => ?_⟩
      obtain rfl := Option.some.inj he
      exact isShort_frontElement hk
    | _ => exact ⟨hk, fun _ he => absurd he (by simp [frontKind, NodeKind.element?])⟩
  have htidied : ∀ kind ∈ ((f.settle (Edit.settle frontEdits) [.root]).rebuild tidied true).preorder,
      kind.IsReadable ∧ ∀ e ∈ kind.element?, ∀ a ∈ e.attributes, a.IsShort := by
    refine Forest.forall_mem_rebuild (fun top kind below hk hb => ?_) hfront
    refine forall_mem_tidied (fun g c _ hg hc hcan => ⟨isChecked_handDown hg.1 hc.1 hcan, ?_⟩) hk hb
    intro _ he
    obtain rfl := Option.some.inj he
    exact fun a ha => (List.mem_append.1 ha).elim (hc.2 c rfl a) (hg.2 g rfl a)
  have hused : ∀ kind ∈ (withoutUnused ((f.settle (Edit.settle frontEdits) [.root]).rebuild tidied
      true)).preorder,
      kind.IsReadable ∧ ∀ e ∈ kind.element?, ∀ a ∈ e.attributes, a.IsShort := by
    refine Forest.forall_mem_editFirst (fun e he => ?_) htidied
    refine ⟨(e.within_keepAttrs _).isChecked he.1, fun _ hk => ?_⟩
    obtain rfl := Option.some.inj hk
    exact fun a ha => he.2 e rfl a (List.filter_sublist.subset ha)
  have hsorted : ∀ kind ∈ (presetForest f).preorder,
      kind.IsReadable ∧ ∀ e ∈ kind.element?, e.IsNormal := by
    refine Forest.forall_mem_settle (fun above kind kind' hk hs => ?_) hused
    rw [settle_sortEdit] at hs
    obtain rfl := Option.some.inj hs
    cases kind with
    | element e =>
      refine ⟨isChecked_sortElementAttributes hk.1, fun _ he => ?_⟩
      obtain rfl := Option.some.inj he
      exact isNormal_sortElementAttributes (hk.2 e rfl)
    | _ => exact ⟨hk.1, fun _ he => absurd he (by simp [sortedKind, NodeKind.element?])⟩
  exact ⟨fun kind hk => (hsorted kind hk).1, fun kind hk => (hsorted kind hk).2⟩

end Builtin

end SvgPress
