import Mathlib.Order.Bounds.Basic
import SvgPress.Proofs.Builtin.Batching

/-!
# Containers that are empty all the way down

An empty container that goes may leave the container around it empty. One walk with children first
is enough: what it removes is the least set of nodes that has every dispensable container whose
children it has.
-/

namespace SvgPress

open Document

/-! ## What goes -/

namespace Builtin

variable {d : Document} {parent top x : NodeId} {f below : Forest NodeId}

/-- A container without an identity that is not the document element. -/
def IsDispensable (d : Document) (x : NodeId) : Prop :=
  (∃ e, d.element? x = some e ∧ isVain e = true) ∧ d.documentElement? ≠ some x

/-- A set of nodes has every dispensable container below the root of whose children it has all. -/
def HasEmptied (d : Document) (gone : Set NodeId) : Prop :=
  ∀ x ∈ d.descendants .root, IsDispensable d x → (∀ c ∈ d.children x, c ∈ gone) → x ∈ gone

/-- A dispensable container whose children are all idle. -/
inductive IsIdle (d : Document) : NodeId → Prop
  | intro {x : NodeId} (hx : IsDispensable d x) (hc : ∀ c ∈ d.children x, IsIdle d c) : IsIdle d x

open scoped Classical in
/-- Whether a node is idle. -/
noncomputable def idle (d : Document) (x : NodeId) : Bool :=
  decide (IsIdle d x)

theorem isIdle_iff : IsIdle d x ↔ IsDispensable d x ∧ ∀ c ∈ d.children x, IsIdle d c :=
  ⟨fun ⟨hx, hc⟩ => ⟨hx, hc⟩, fun ⟨hx, hc⟩ => .intro hx hc⟩

theorem idle_eq_true_iff : idle d x = true ↔ IsIdle d x := by
  simp [idle]

/-- All that stands below an idle node is idle. -/
theorem idle_of_mem_preorder (hf : d.Shows f) (ht : ∀ top ∈ f.tops, idle d top = true) :
    ∀ x ∈ f.preorder, idle d x = true := by
  induction f with
  | nil => exact fun x hx => absurd hx List.not_mem_nil
  | cons top below rest ihb ihr =>
    obtain ⟨hchildren, hbelow, hrest⟩ := hf
    obtain ⟨htop, hlater⟩ := List.forall_mem_cons.1 ht
    simp only [Forest.preorder, List.mem_cons, List.mem_append]
    rintro x (rfl | hx | hx)
    · exact htop
    · refine ihb hbelow (fun c hc => ?_) x hx
      rw [idle_eq_true_iff, isIdle_iff] at htop
      exact idle_eq_true_iff.2 (htop.2 c (hchildren ▸ hc))
    · exact ihr hrest hlater x hx

/-- Cutting out the trees with an idle top takes the idle nodes, and no others. -/
theorem preorder_prune_idle (hf : d.Shows f) :
    (f.prune (idle d)).preorder = f.preorder.filter (!idle d ·) := by
  induction f with
  | nil => rfl
  | cons top below rest ihb ihr =>
    obtain ⟨hchildren, hbelow, hrest⟩ := hf
    rw [Forest.prune, Forest.preorder, List.filter_cons, List.filter_append, ← ihr hrest]
    cases htop : idle d top with
    | true =>
      rw [idle_eq_true_iff, isIdle_iff] at htop
      have hidle := idle_of_mem_preorder hbelow fun c hc =>
        idle_eq_true_iff.2 (htop.2 c (hchildren ▸ hc))
      have hnone : below.preorder.filter (!idle d ·) = [] := by
        rw [List.filter_eq_nil_iff]
        exact fun x hx => by simp [hidle x hx]
      rw [hnone]
      rfl
    | false => rw [← ihb hbelow]; rfl

/-- An empty container goes if it is idle once the idle nodes below it have gone. -/
theorem goes_prune_idle (hd : d.Sound) (hf : Stands d parent (.cons top below .nil)) :
    goes (decide (parent = .root)) (d.kindOf top) ((below.prune (idle d)).map d.kindOf) =
      idle d top := by
  have hp : d.parent? top = some parent := hf.parents top List.mem_cons_self
  have hbelow : ((below.prune (idle d)).map d.kindOf).tops.isEmpty = true ↔
      ∀ c ∈ d.children top, IsIdle d c := by
    rw [Forest.tops_map, List.isEmpty_map, Forest.tops_prune, List.isEmpty_iff,
      List.filter_eq_nil_iff, hf.shows.1]
    simp only [Bool.not_eq_true', Bool.not_eq_false, idle_eq_true_iff]
  have hdispensable : IsDispensable d top ↔
      parent ≠ .root ∧ (d.element? top).any isVain = true := by
    rw [IsDispensable, Option.any_eq_true, and_comm]
    refine and_congr_left fun ⟨e, he, _⟩ => ?_
    rw [Ne, hd.documentElement?_eq_some_iff (isElement_of_element? he), hp, Option.some.injEq]
  rw [Bool.eq_iff_iff, idle_eq_true_iff, isIdle_iff, hdispensable, ← hbelow, goes, element?_kindOf]
  simp only [Bool.and_eq_true, Bool.not_eq_true', decide_eq_false_iff_not]

/-- The walk that removes empty containers cuts out the trees with an idle top. -/
theorem sweeps_eq (hd : d.Sound) (hf : Stands d parent f) {G : Forest Entry}
    (h : (f.map d.entry).Remade Sweeps (decide (parent = .root)) G) :
    G = (f.prune (idle d)).map d.entry := by
  induction f generalizing parent G with
  | nil => cases h; rfl
  | cons top below rest ihb ihr =>
    have htop : top ≠ .root :=
      hf.linked.ne_root_of_parent? (hf.parents top List.mem_cons_self)
    cases h with
    | @cons _ _ _ below' tree _ rest' hbelow htree hrest =>
      rw [← decide_eq_false htop] at hbelow
      obtain rfl := ihb hf.below_top hbelow
      obtain rfl := ihr hf.after_top hrest
      have hgoes : goes (decide (parent = .root)) (d.entry top).2 _ = idle d top :=
        goes_prune_idle hd hf.first
      rw [Forest.prune]
      cases htree with
      | removes h =>
        rw [Forest.map_entry_snd] at h
        rw [← hgoes, if_pos h]
        rfl
      | stays h =>
        rw [Forest.map_entry_snd] at h
        rw [← hgoes, if_neg (by simp [h])]
        rfl

/-- The idle nodes below the root are the least set that has every dispensable container whose
children it has. -/
theorem isLeast_idle (hl : d.Linked) :
    IsLeast {gone | HasEmptied d gone} {x | x ∈ d.descendants .root ∧ IsIdle d x} := by
  refine ⟨fun x hx hdispensable hc => ⟨hx, .intro hdispensable fun c hm => (hc c hm).2⟩, ?_⟩
  rintro gone hgone x ⟨hx, hidle⟩
  induction hidle with
  | intro hdispensable _ ih =>
    exact hgone _ hx hdispensable fun c hc =>
      ih c hc (hl.mem_descendants_of_child (.inr hx) hc)

/-! ## What is left -/

variable {left : List NodeId}

/-- Of the nodes below the root, those that are left are those that are not idle. -/
theorem mem_left_iff (hleft : left = (d.descendants .root).filter (!idle d ·))
    (hx : x ∈ d.descendants .root) : x ∈ left ↔ ¬ IsIdle d x := by
  rw [hleft, List.mem_filter, Bool.not_eq_true', ← Bool.not_eq_true, idle_eq_true_iff]
  exact and_iff_right hx

/-- The children that are not idle are those that are left. -/
theorem filter_children_eq (hl : d.Linked)
    (hleft : left = (d.descendants .root).filter (!idle d ·))
    (hx : x = .root ∨ x ∈ d.descendants .root) :
    (d.children x).filter (!idle d ·) = (d.children x).filter fun c => c ∈ left := by
  refine List.filter_congr fun c hc => ?_
  rw [Bool.eq_iff_iff, decide_eq_true_iff, mem_left_iff hleft (hl.mem_descendants_of_child hx hc),
    Bool.not_eq_true', ← Bool.not_eq_true, idle_eq_true_iff]

/-- What is not left is the least set that has every dispensable container whose children it has. -/
theorem isLeast_gone (hl : d.Linked) (hleft : left = (d.descendants .root).filter (!idle d ·)) :
    IsLeast {gone | HasEmptied d gone} {x | x ∈ d.descendants .root ∧ x ∉ left} := by
  have hgone : {x | x ∈ d.descendants .root ∧ x ∉ left} =
      {x | x ∈ d.descendants .root ∧ IsIdle d x} := by
    ext x
    refine and_congr_right fun hx => ?_
    rw [mem_left_iff hleft hx, not_not]
  rw [hgone]
  exact isLeast_idle hl

end Builtin

/-! ## The plugin -/

/-- A pipeline that does nothing but remove empty containers makes of every text that is a document
the document without the least set of nodes that has every container, other than the document
element and without an identity, whose children it has. All that is left stays as it was, and in the
same order. -/
theorem Pipeline.apply_removeEmptyContainers (descriptors : List Descriptor) (p : Pipeline)
    (s : String) (d : Document)
    (hplugins : (descriptors.filter (·.enabled)).map (·.plugin) = [Builtin.removeEmptyContainers])
    (hp : Pipeline.ofDescriptors descriptors = .ok p) (hs : Markup.parse s = .ok d) :
    ∃ d', (p.apply d).outcome = .ok d' ∧
      IsLeast {gone | Builtin.HasEmptied d gone}
        {x | x ∈ d.descendants .root ∧ x ∉ d'.descendants .root} ∧
      (d'.descendants .root).Sublist (d.descendants .root) ∧
      (∀ x ∈ .root :: d'.descendants .root, d'.kindOf x = d.kindOf x ∧
        d'.children x = (d.children x).filter fun c => c ∈ d'.descendants .root) ∧
      d'.declaration = d.declaration ∧ d'.doctype = d.doctype := by
  obtain ⟨stage, hstage, hshrinks, happly⟩ := Pipeline.exists_stage_of_alone hplugins hp
    (by simp [Builtin.presetPlugins, Builtin.plugins]) (by decide)
  have hd := Markup.sound_of_parse hs
  obtain ⟨d', f, f', ho, hd', hdeclaration, hdoctype, hf, hf', hremade⟩ :=
    walk_remakes (Builtin.remakes_sweeps hstage.visit_removeEmptyContainers)
      (List.forall_mem_singleton.2 hshrinks) hd
  rw [← decide_eq_true (rfl : NodeId.root = .root)] at hremade
  obtain ⟨rfl, hkinds⟩ := Forest.eq_of_map_entry (Builtin.sweeps_eq hd hf.stands hremade)
  have hleft : d'.descendants .root = (d.descendants .root).filter (!Builtin.idle d ·) := by
    rw [hf'.descendants_eq, hf.descendants_eq, Builtin.preorder_prune_idle hf.stands.shows]
  have hchildren {x : NodeId} (hx : x = .root ∨ x ∈ d.descendants .root) :=
    Builtin.filter_children_eq hd.linked hleft hx
  refine ⟨d', (happly d).trans ho, Builtin.isLeast_gone hd.linked hleft,
    hleft ▸ List.filter_sublist, fun x hx => ?_, hdeclaration, hdoctype⟩
  rcases List.mem_cons.1 hx with rfl | hx
  · rw [hd'.shaped.kindOf_root, hd.shaped.kindOf_root, ← hchildren (.inl rfl), ← hf'.tops,
      ← hf.tops, Forest.tops_prune]
    exact ⟨rfl, rfl⟩
  · have hmem := hf'.descendants_eq ▸ hx
    refine ⟨hkinds x hmem, ?_⟩
    rw [← hchildren (.inr ((hleft ▸ List.filter_sublist).subset hx))]
    exact hf.stands.shows.children_prune hf'.stands.shows x hmem

/-- A group around an empty mask goes with it; a comment or an identity keeps a container. -/
theorem Pipeline.apply_removeEmptyContainers_of_mask : ∃ (p : Pipeline) (d : Document),
    Pipeline.ofDescriptors [.ofPlugin Builtin.removeEmptyContainers] = .ok p ∧
    Markup.parse "<svg><g><mask/></g><g><!-- kept --><defs id='a'/></g></svg>" = .ok d ∧
    ∃ d', (p.apply d).outcome = .ok d' ∧
      Markup.write {} d' = .ok "<svg><g><!-- kept --><defs id=\"a\"/></g></svg>" ∧
      IsLeast {gone | Builtin.HasEmptied d gone}
        {x | x ∈ d.descendants .root ∧ x ∉ d'.descendants .root} ∧
      (d'.descendants .root).Sublist (d.descendants .root) ∧
      (∀ x ∈ .root :: d'.descendants .root, d'.kindOf x = d.kindOf x ∧
        d'.children x = (d.children x).filter fun c => c ∈ d'.descendants .root) ∧
      d'.declaration = d.declaration ∧ d'.doctype = d.doctype := by
  obtain ⟨p, d, d₁, hp, hs, ho₁, hw⟩ : ∃ (p : Pipeline) (d d' : Document),
      Pipeline.ofDescriptors [.ofPlugin Builtin.removeEmptyContainers] = .ok p ∧
      Markup.parse "<svg><g><mask/></g><g><!-- kept --><defs id='a'/></g></svg>" = .ok d ∧
      (p.apply d).outcome = .ok d' ∧
      Markup.write {} d' = .ok "<svg><g><!-- kept --><defs id=\"a\"/></g></svg>" :=
    ⟨_, _, _, rfl, rfl, rfl, rfl⟩
  obtain ⟨d', ho, h⟩ := Pipeline.apply_removeEmptyContainers _ p _ d rfl hp hs
  obtain rfl := Except.ok.inj (ho₁.symm.trans ho)
  exact ⟨p, d, hp, hs, _, ho, hw, h⟩

end SvgPress
