import SvgPress.Proofs.Builtin.Batching
import SvgPress.Proofs.Markup.Parsed

/-!
# What elements are given

An element is given the attributes that it has and those of the elements around it, the nearest
first. A group is unwrapped only without attributes, or after its only child has taken them over, so
the attributes that a node meets from itself upwards stay the same list.
-/

namespace SvgPress

open Document

/-! ## Attributes of nodes -/

namespace NodeKind

/-- The attributes of a payload; only an element has any. -/
def attributes : NodeKind → List Attribute
  | .element e => e.attributes
  | _ => []

/-- The payload with further attributes after its own, if it is an element. -/
def receive : NodeKind → List Attribute → NodeKind
  | .element e, given => .element (e.receive given)
  | kind, _ => kind

theorem receive_nil (kind : NodeKind) : kind.receive [] = kind := by
  cases kind <;> simp [receive, Element.receive]

theorem receive_receive (kind : NodeKind) (given later : List Attribute) :
    (kind.receive given).receive later = kind.receive (given ++ later) := by
  cases kind <;> simp [receive, Element.receive]

end NodeKind

namespace Document

/-- The attributes that a node meets from itself upwards. -/
def trail (d : Document) (x : NodeId) : List Attribute :=
  (d.lineage x).flatMap (·.attributes)

/-- The value that the nearest element with an attribute of the name has for it, from a node
upwards. -/
def inheritedAttr? (d : Document) (x : NodeId) (name : QName) : Option String :=
  (d.lineage x).findSome? fun kind => (kind.attributes.find? (·.name == name)).map (·.value)

theorem inheritedAttr?_eq (d : Document) (x : NodeId) (name : QName) :
    d.inheritedAttr? x name = ((d.trail x).find? (·.name == name)).map (·.value) := by
  rw [inheritedAttr?, trail, List.find?_flatMap, List.map_findSome?]
  rfl

variable {d : Document} {parent : NodeId} {f : Forest NodeId}

theorem trail_eq (hl : d.Linked) {x : NodeId} (hp : d.parent? x = some parent) :
    d.trail x = (d.kindOf x).attributes ++ d.trail parent := by
  rw [trail, hl.lineage_eq hp, List.flatMap_cons, trail]

theorem Sound.trail_root (hd : d.Sound) : d.trail .root = [] := by
  rw [trail, hd.linked.lineage_root, hd.shaped.kindOf_root]
  rfl

end Document

namespace Forest

/-- The nodes of a forest, with the attributes that they meet from themselves upwards, where those
above the forest are given. -/
def trails (above : List Attribute) : Forest Entry → List (NodeId × List Attribute)
  | nil => []
  | cons x below rest =>
    (x.1, x.2.attributes ++ above) ::
      (below.trails (x.2.attributes ++ above) ++ rest.trails above)

/-- The attributes of all nodes of a forest. -/
def attributes (F : Forest Entry) : List Attribute :=
  F.preorder.flatMap (·.2.attributes)

variable {above : List Attribute}

theorem trails_append (F G : Forest Entry) :
    (F ++ G).trails above = F.trails above ++ G.trails above := by
  induction F with
  | nil => rfl
  | cons x below rest _ ih =>
    rw [cons_append, trails, ih, trails, List.cons_append, List.append_assoc]

theorem attributes_cons (x : Entry) (below rest : Forest Entry) :
    (cons x below rest).attributes = x.2.attributes ++ (below.attributes ++ rest.attributes) := by
  rw [attributes, preorder, List.flatMap_cons, List.flatMap_append]
  rfl

theorem attributes_append (F G : Forest Entry) :
    (F ++ G).attributes = F.attributes ++ G.attributes := by
  rw [attributes, preorder_append, List.flatMap_append]
  rfl

/-- The trails in a store. -/
theorem trails_map_entry {d : Document} {parent : NodeId} {f : Forest NodeId}
    (hf : Stands d parent f) :
    (f.map d.entry).trails (d.trail parent) = f.preorder.map fun x => (x, d.trail x) := by
  induction f generalizing parent with
  | nil => rfl
  | cons top below rest ihb ihr =>
    have htop := trail_eq hf.linked (hf.parents top List.mem_cons_self)
    simp only [map, trails, entry, preorder, List.map_cons, List.map_append, ← htop,
      ihb hf.below_top, ihr hf.after_top]

theorem attributes_map_entry (d : Document) (f : Forest NodeId) :
    (f.map d.entry).attributes = f.preorder.flatMap fun x => (d.kindOf x).attributes := by
  rw [attributes, preorder_map, List.flatMap_map]
  rfl

theorem map_fst_preorder (d : Document) (f : Forest NodeId) :
    (f.map d.entry).preorder.map Prod.fst = f.preorder := by
  rw [← preorder_map, map_entry_fst]

/-- What the visits keep of a tree, the walk keeps of a forest. -/
theorem Remade.forall_mem {α : Type} {T : Bool → α → Forest α → Forest α → Prop} {P : α → Prop}
    (hT : ∀ {top x below tree}, T top x below tree → P x → (∀ y ∈ below.preorder, P y) →
      ∀ y ∈ tree.preorder, P y)
    {top : Bool} {F G : Forest α} (h : F.Remade T top G) (hF : ∀ x ∈ F.preorder, P x) :
    ∀ y ∈ G.preorder, P y := by
  induction h with
  | nil => exact hF
  | cons _ htree _ ihb ihr =>
    simp only [preorder, List.mem_cons, List.mem_append] at hF
    rw [preorder_append, List.forall_mem_append]
    exact ⟨hT htree (hF _ (.inl rfl)) (ihb fun x hx => hF x (.inr (.inl hx))),
      ihr fun x hx => hF x (.inr (.inr hx))⟩

end Forest

/-! ## Groups that go -/

namespace Builtin

variable {g c : Element} {top : Bool} {x : Entry} {below tree F G : Forest Entry}

/-- The payload of a group that has no identity, class, style, effect or namespace of its own. -/
def IsLoose (kind : NodeKind) : Prop :=
  ∃ g, kind = .element g ∧ g.isNamed "g" = true ∧
    ∀ a ∈ g.attributes, a.name.localPart ∉ groupBoundNames ∧ a.name.isNamespaceDeclaration = false

theorem isLoose_of_canHandDown (hg : g.isNamed "g" = true) (h : canHandDown g c = true) :
    IsLoose (.element g) := by
  refine ⟨g, rfl, hg, fun a ha => ?_⟩
  simp only [canHandDown, Bool.and_eq_true, List.all_eq_true] at h
  simpa using h.1.2 a ha

theorem isLoose_of_attributes_eq_nil (hg : g.isNamed "g" = true) (h : g.attributes = []) :
    IsLoose (.element g) :=
  ⟨g, rfl, hg, fun a ha => absurd ha (by simp [h])⟩

/-- Trees directly under the root stay. -/
theorem tops_of_collapses (h : F.Remade Collapses true G) :
    G.tops.map Prod.fst = F.tops.map Prod.fst := by
  generalize htop : true = top at h
  induction h with
  | nil => rfl
  | cons _ htree _ _ ihr =>
    subst htop
    cases htree
    simp only [Forest.tops_append, Forest.tops, List.map_append, List.map_cons, ihr rfl]
    rfl

/-- A node that is no longer there was a loose group. -/
theorem isLoose_of_collapses (h : F.Remade Collapses top G) :
    ∀ x ∈ F.preorder, x.1 ∉ G.preorder.map Prod.fst → IsLoose x.2 := by
  induction h with
  | nil => exact fun x hx => absurd hx List.not_mem_nil
  | cons _ htree _ ihb ihr =>
    simp only [Forest.preorder_append, List.map_append, List.mem_append, not_or]
    intro y hy ⟨htreeNot, hrestNot⟩
    simp only [Forest.preorder, List.mem_cons, List.mem_append] at hy
    rcases hy with rfl | hy | hy
    · cases htree with
      | stays => exact absurd List.mem_cons_self htreeNot
      | dissolves hg hnone => exact isLoose_of_attributes_eq_nil hg hnone
      | handsDown hg hcan => exact isLoose_of_canHandDown hg hcan
    · refine ihb y hy fun hmem => htreeNot ?_
      cases htree with
      | stays =>
        rw [Forest.preorder, List.map_cons, Forest.preorder, List.append_nil]
        exact List.mem_cons_of_mem _ hmem
      | dissolves => exact hmem
      | handsDown => exact hmem
    · exact ihr y hy hrestNot

/-! ## What the walk keeps -/

/-- The nodes that are left stand in the same order, and each of them meets the same attributes from
itself upwards. -/
theorem trails_sublist (h : F.Remade Collapses top G) (above : List Attribute) :
    (G.trails above).Sublist (F.trails above) := by
  induction h generalizing above with
  | nil => exact .slnil
  | cons _ htree _ ihb ihr =>
    rw [Forest.trails_append, Forest.trails, ← List.cons_append]
    refine List.Sublist.append ?_ (ihr above)
    cases htree with
    | stays =>
      rw [Forest.trails, Forest.trails, List.append_nil]
      exact (ihb _).cons_cons _
    | dissolves _ hnone =>
      simp only [NodeKind.attributes, hnone, List.nil_append]
      exact (ihb above).cons _
    | @handsDown _ child g c _ =>
      -- The child meets the attributes of the group as its own, after those it had.
      have hbelow := ihb (g.attributes ++ above)
      simp only [Forest.trails, NodeKind.attributes, Element.receive, List.append_assoc] at hbelow ⊢
      exact hbelow.cons _

/-- No attribute is lost, and none is there more often than before. -/
theorem attributes_perm (h : F.Remade Collapses top G) : G.attributes.Perm F.attributes := by
  induction h with
  | nil => exact .refl _
  | cons _ htree _ ihb ihr =>
    rw [Forest.attributes_append, Forest.attributes_cons, ← List.append_assoc]
    refine List.Perm.append ?_ ihr
    cases htree with
    | stays =>
      rw [Forest.attributes_cons]
      simpa [Forest.attributes, Forest.preorder] using ihb.append_left _
    | dissolves _ hnone => simpa [NodeKind.attributes, hnone] using ihb
    | @handsDown _ child g c inner =>
      refine List.Perm.trans ?_ (ihb.append_left g.attributes)
      simp only [Forest.attributes_cons, NodeKind.attributes, Element.receive, List.append_assoc]
      exact (List.perm_append_comm_assoc ..)

/-- What holds of the nodes of a tree, and of a child that takes over the attributes of a group,
holds of what is made of the tree. -/
theorem Collapses.forall_mem {P : Entry → Prop}
    (hgiven : ∀ id child g c, canHandDown g c = true → P (id, .element g) → P (child, .element c) →
      P (child, .element (c.receive g.attributes)))
    (h : Collapses top x below tree) (hx : P x) (hbelow : ∀ y ∈ below.preorder, P y) :
    ∀ y ∈ tree.preorder, P y := by
  cases h with
  | stays =>
    rw [Forest.preorder, Forest.preorder, List.append_nil]
    exact List.forall_mem_cons.2 ⟨hx, hbelow⟩
  | dissolves => exact hbelow
  | handsDown _ hcan =>
    obtain ⟨hchild, hinner⟩ := List.forall_mem_cons.1 hbelow
    exact List.forall_mem_cons.2 ⟨hgiven _ _ _ _ hcan hx hchild, hinner⟩

/-- A node that is left has its former payload, but for attributes after its own. -/
theorem exists_receive (h : F.Remade Collapses top G) :
    ∀ y ∈ G.preorder, ∃ kind given, (y.1, kind) ∈ F.preorder ∧ y.2 = kind.receive given := by
  refine h.forall_mem (Collapses.forall_mem fun id child g c _ _ ⟨kind, given, hmem, hc⟩ => ?_)
    fun x hx => ⟨x.2, [], hx, x.2.receive_nil.symm⟩
  refine ⟨kind, given ++ g.attributes, hmem, ?_⟩
  rw [← NodeKind.receive_receive, ← hc]
  rfl

/-- No element has two attributes of one name, if none had. -/
theorem nodup_names_of_collapses (h : F.Remade Collapses top G)
    (hF : ∀ x ∈ F.preorder, (x.2.attributes.map (·.name)).Nodup) :
    ∀ y ∈ G.preorder, (y.2.attributes.map (·.name)).Nodup :=
  h.forall_mem (Collapses.forall_mem fun _ _ _ _ hcan hg hc => nodup_names_receive hg hc hcan) hF

/-! ## What the walk keeps of a document -/

section

variable {d d' : Document} {f f' : Forest NodeId}

/-- The nodes of a document that are left meet the attributes that they met. -/
theorem trails_sublist_of_grows (hd : d.Sound) (hd' : d'.Sound) (hf : d.Grows f) (hf' : d'.Grows f')
    (h : (f.map d.entry).Remade Collapses true (f'.map d'.entry)) :
    (f'.preorder.map fun x => (x, d'.trail x)).Sublist (f.preorder.map fun x => (x, d.trail x)) := by
  have htrails := trails_sublist h (d.trail .root)
  rwa [Forest.trails_map_entry hf.stands, hd.trail_root, ← hd'.trail_root,
    Forest.trails_map_entry hf'.stands] at htrails

/-- The document element stands directly under the root, and stays there. -/
theorem documentElement_stays (hf : d.Grows f)
    (h : (f.map d.entry).Remade Collapses true (f'.map d'.entry)) {x : NodeId}
    (hx : d.documentElement? = some x) : x ∈ f'.preorder := by
  have htop : x ∈ f.tops := hf.tops ▸ (mem_childElements_iff.1 (List.mem_of_mem_head? hx)).1
  have htops := tops_of_collapses h
  simp only [Forest.tops_map, List.map_map, Function.comp_def, entry, List.map_id'] at htops
  exact f'.tops_subset_preorder (htops ▸ htop)

end

end Builtin

/-! ## Documents that have been read -/

namespace Markup

variable {around : Bool} {ts : List Token} {f : Forest NodeKind} {s : String} {d : Document}

/-- No element that found tokens denote has two attributes of one name. -/
theorem Denotes.nodup_names (h : Denotes around ts f) :
    ∀ kind ∈ f.preorder, (kind.attributes.map (·.name)).Nodup := by
  induction h with
  | nil => exact fun _ hk => absurd hk List.not_mem_nil
  | element he _ _ ihb ihr =>
    rw [Forest.preorder, List.forall_mem_cons, List.forall_mem_append]
    exact ⟨(of_element he).2.2, ihb, ihr⟩
  | empty he _ ih =>
    rw [Forest.preorder, List.forall_mem_cons]
    exact ⟨(of_element he).2.2, ih⟩
  | text _ _ _ ih | cdata _ ih | comment _ ih =>
    rw [Forest.preorder, List.forall_mem_cons]
    exact ⟨List.nodup_nil, ih⟩
  | @instruction _ content _ _ _ ih =>
    obtain ⟨target, rest, hkind⟩ := instructionOf_eq content
    rw [Forest.preorder, List.forall_mem_cons, hkind]
    exact ⟨List.nodup_nil, ih⟩
  | blank _ _ _ ih | declaration _ _ ih | doctype _ ih => exact ih

/-- No element of a document that has been read has two attributes of one name. -/
theorem nodup_names_entries (h : parse s = .ok d) {f : Forest NodeId} (hf : d.Grows f) :
    ∀ x ∈ (f.map d.entry).preorder, (x.2.attributes.map (·.name)).Nodup := by
  intro x hx
  refine (denotes_of_parse h).1.nodup_names x.2 ?_
  rw [(sound_of_parse h).linked.payloads_eq hf.tops hf.stands.shows, ← Forest.map_entry_snd,
    Forest.preorder_map]
  exact List.mem_map_of_mem hx

end Markup

/-! ## The plugin -/

/-- A pipeline that does nothing but unwrap groups makes of every text that is a document another
one, whose nodes are the former ones in the same order. What is gone are groups below the document
element that have no identity, class, style, effect or namespace of their own. A node that is left
is what it was, but for attributes that it may have been given after its own; it finds the same
values for all names on itself or the nearest element around it. No attribute is lost, and none is
there twice. -/
theorem Pipeline.apply_collapseGroups (descriptors : List Descriptor) (p : Pipeline)
    (s : String) (d : Document)
    (hplugins : (descriptors.filter (·.enabled)).map (·.plugin) = [Builtin.collapseGroups])
    (hp : Pipeline.ofDescriptors descriptors = .ok p) (hs : Markup.parse s = .ok d) :
    ∃ d', (p.apply d).outcome = .ok d' ∧
      (d'.descendants .root).Sublist (d.descendants .root) ∧
      (∀ x ∈ d.descendants .root, x ∉ d'.descendants .root →
        d.documentElement? ≠ some x ∧ Builtin.IsLoose (d.kindOf x)) ∧
      (∀ x ∈ d'.descendants .root, (∃ given, d'.kindOf x = (d.kindOf x).receive given) ∧
        ((d'.kindOf x).attributes.map (·.name)).Nodup ∧
        ∀ name, d'.inheritedAttr? x name = d.inheritedAttr? x name) ∧
      ((d'.descendants .root).flatMap fun x => (d'.kindOf x).attributes).Perm
        ((d.descendants .root).flatMap fun x => (d.kindOf x).attributes) := by
  obtain ⟨stage, hstage, hshrinks, happly⟩ := Pipeline.exists_stage_of_alone hplugins hp
    (by simp [Builtin.presetPlugins, Builtin.plugins]) (by decide)
  have hd := Markup.sound_of_parse hs
  obtain ⟨d', f, f', ho, hd', -, -, hf, hf', hremade⟩ :=
    walk_remakes (Builtin.remakes_collapses hstage.visit_collapseGroups)
      (List.forall_mem_singleton.2 hshrinks) hd
  have htrails := Builtin.trails_sublist_of_grows hd hd' hf hf' hremade
  have hsub : f'.preorder.Sublist f.preorder := by
    simpa [Function.comp_def] using htrails.map Prod.fst
  refine ⟨d', (happly d).trans ho, ?_⟩
  rw [hf.descendants_eq, hf'.descendants_eq]
  refine ⟨hsub, fun x hx hgone => ⟨fun hroot => hgone ?_, ?_⟩, fun x hx => ⟨?_, ?_, fun name => ?_⟩, ?_⟩
  · exact Builtin.documentElement_stays hf hremade hroot
  · refine Builtin.isLoose_of_collapses hremade (d.entry x) (Forest.mem_map_entry.2 ⟨hx, rfl⟩) ?_
    rwa [Forest.map_fst_preorder]
  · obtain ⟨kind, given, hmem, hkind⟩ :=
      Builtin.exists_receive hremade (d'.entry x) (Forest.mem_map_entry.2 ⟨hx, rfl⟩)
    obtain ⟨-, rfl⟩ := Forest.mem_map_entry.1 hmem
    exact ⟨given, hkind⟩
  · exact Builtin.nodup_names_of_collapses hremade (Markup.nodup_names_entries hs hf) (d'.entry x)
      (Forest.mem_map_entry.2 ⟨hx, rfl⟩)
  · obtain ⟨y, -, hy⟩ := List.mem_map.1 (htrails.subset (List.mem_map_of_mem hx))
    obtain ⟨rfl, htrail⟩ := Prod.mk.inj hy
    rw [inheritedAttr?_eq, inheritedAttr?_eq, htrail]
  · rw [← Forest.attributes_map_entry, ← Forest.attributes_map_entry]
    exact Builtin.attributes_perm hremade

/-- Two groups hand their attributes down to a group with a class, which stays. -/
theorem Pipeline.apply_collapseGroups_of_nested : ∃ (p : Pipeline) (d : Document),
    Pipeline.ofDescriptors [.ofPlugin Builtin.collapseGroups] = .ok p ∧
    Markup.parse "<svg><g fill='red'><g stroke='none'><g class='c'><path/></g></g></g></svg>" = .ok d ∧
    ∃ d', (p.apply d).outcome = .ok d' ∧
      Markup.write {} d' =
        .ok "<svg><g class=\"c\" stroke=\"none\" fill=\"red\"><path/></g></svg>" ∧
      (d'.descendants .root).Sublist (d.descendants .root) ∧
      (∀ x ∈ d.descendants .root, x ∉ d'.descendants .root →
        d.documentElement? ≠ some x ∧ Builtin.IsLoose (d.kindOf x)) ∧
      (∀ x ∈ d'.descendants .root, (∃ given, d'.kindOf x = (d.kindOf x).receive given) ∧
        ((d'.kindOf x).attributes.map (·.name)).Nodup ∧
        ∀ name, d'.inheritedAttr? x name = d.inheritedAttr? x name) ∧
      ((d'.descendants .root).flatMap fun x => (d'.kindOf x).attributes).Perm
        ((d.descendants .root).flatMap fun x => (d.kindOf x).attributes) := by
  obtain ⟨p, d, d₁, hp, hs, ho₁, hw⟩ : ∃ (p : Pipeline) (d d' : Document),
      Pipeline.ofDescriptors [.ofPlugin Builtin.collapseGroups] = .ok p ∧
      Markup.parse "<svg><g fill='red'><g stroke='none'><g class='c'><path/></g></g></g></svg>" =
        .ok d ∧
      (p.apply d).outcome = .ok d' ∧
      Markup.write {} d' =
        .ok "<svg><g class=\"c\" stroke=\"none\" fill=\"red\"><path/></g></svg>" :=
    ⟨_, _, _, rfl, rfl, rfl, rfl⟩
  obtain ⟨d', ho, h⟩ := Pipeline.apply_collapseGroups _ p _ d rfl hp hs
  obtain rfl := Except.ok.inj (ho₁.symm.trans ho)
  exact ⟨p, d, hp, hs, _, ho, hw, h⟩

end SvgPress
