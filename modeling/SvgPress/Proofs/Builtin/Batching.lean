import SvgPress.Proofs.Builtin.Collapsing

/-!
# The preset in groups

The plugins of the preset share walks where they may. No plugin notices: in whatever selection they
run, and with whatever parameters, they make the same document as they do in walks of their own.
-/

namespace SvgPress

open Document Outcome

/-! ## Plugins that rewrite documents -/

namespace Forest

/-- The forest after the first element in front has been changed. -/
def editFirst (f : Element → Element) : Forest NodeKind → Forest NodeKind
  | nil => nil
  | cons (.element e) below rest => cons (.element (f e)) below rest
  | cons kind below rest => cons kind below (rest.editFirst f)

theorem editFirst_eq_self {F : Forest NodeKind} (h : F.topElements = []) (f : Element → Element) :
    F.editFirst f = F := by
  induction F with
  | nil => rfl
  | cons kind below rest _ ih =>
    rw [topElements, tops, List.filter_cons] at h
    split_ifs at h with helement
    cases kind with
    | element e => exact absurd rfl helement
    | _ => rw [editFirst, ih h]; exact fun e => NodeKind.noConfusion

end Forest

namespace Document

variable {d d' : Document} {f : Forest NodeId} {id : NodeId}

/-- What a document says depends on its nodes only. -/
theorem Linked.payloads_of_nodes (h : d.Linked) (hn : d'.nodes = d.nodes) :
    d'.payloads = d.payloads := by
  have hnode : ∀ x, d'.node? x = d.node? x := fun x => by rw [node?, node?, hn]
  have hc : ∀ x, d'.children x = d.children x := fun x => by rw [children, children, hnode]
  have hk : ∀ x, d'.kind? x = d.kind? x := fun x => by rw [kind?, kind?, hnode]
  have hl : d'.Linked :=
    h.of_links (by rw [hn]) (fun x => by rw [parent?, parent?, hnode]) hc
  obtain ⟨f, ht, hf, -⟩ := h.exists_forest_below .root
  rw [h.payloads_eq ht hf, hl.payloads_eq (ht.trans (hc .root).symm) (hf.congr fun x _ => hc x)]
  exact Forest.map_congr fun x _ => kindOf_congr (hk x)

theorem Linked.gist_of_nodes (h : d.Linked) (hn : d'.nodes = d.nodes) :
    d'.gist = { d.gist with declaration := d'.declaration, doctype := d'.doctype } := by
  have hroot : d'.kindOf .root = d.kindOf .root := by
    rw [kindOf, kindOf, kind?, kind?, node?, node?, hn]
  rw [gist, gist, h.payloads_of_nodes hn, hroot]

theorem map_kindOf_setElement {g : Element → Element} {e : Element} (hn : f.preorder.Nodup)
    (hfirst : (f.tops.filter d.isElement).head? = some id) (he : d.element? id = some e) :
    f.map (d.setKind id (.element (g e))).kindOf = (f.map d.kindOf).editFirst g := by
  induction f with
  | nil => simp [Forest.tops] at hfirst
  | cons top below rest _ ih =>
    simp only [Forest.preorder, List.nodup_cons, List.mem_append, not_or] at hn
    rw [Forest.tops, List.filter_cons] at hfirst
    split_ifs at hfirst with helement
    · obtain rfl := Option.some.inj hfirst
      rw [Forest.map, Forest.map, map_kindOf_setKind hn.1.1, map_kindOf_setKind hn.1.2,
        kindOf_setKind_self (element?_eq_some_iff.1 he), kindOf_of_element? he, Forest.editFirst]
    · have hmem : id ∈ rest.preorder := by
        have hhead := List.mem_of_mem_head? hfirst
        exact rest.tops_subset_preorder (List.mem_filter.1 hhead).1
      have hbelow : id ∉ below.preorder := fun hm =>
        (List.nodup_append.1 hn.2).2.2 id hm id hmem rfl
      have hne : top ≠ id := by
        rintro rfl
        exact hn.1.2 hmem
      have htop : (d.setKind id (.element (g e))).kindOf top = d.kindOf top := by
        refine kindOf_congr ?_
        rw [kind?_setKind, if_neg hne]
      have hnone : (d.kindOf top).element? = none := by
        rw [element?_kindOf]
        simpa [isElement] using helement
      rw [Forest.map, Forest.map, ih hn.2.of_append_right hfirst, map_kindOf_setKind hbelow, htop]
      cases hkind : d.kindOf top with
      | element e => simp [hkind, NodeKind.element?] at hnone
      | _ => rfl

/-- Changing the document element changes the first element in front. -/
theorem Linked.gist_setElement {g : Element → Element} {e : Element} (hl : d.Linked)
    (hid : d.documentElement? = some id) (he : d.element? id = some e) :
    (d.setKind id (.element (g e))).gist =
      { d.gist with payloads := d.payloads.editFirst g } := by
  obtain ⟨f, ht, hf, hn, -⟩ := hl.exists_forest_below .root
  have hmem := (mem_childElements_iff.1 (List.mem_of_mem_head? hid)).1
  rw [documentElement?, childElements, ← ht] at hid
  have hpayloads : (d.setKind id (.element (g e))).payloads = d.payloads.editFirst g := by
    rw [hl.payloads_eq ht hf, (hl.setKind id _).payloads_eq (by rw [ht, children_setKind])
      (hf.congr fun x _ => children_setKind d id x _)]
    exact map_kindOf_setElement hn hid he
  have hroot : (d.setKind id (.element (g e))).kindOf .root = d.kindOf .root := by
    refine kindOf_congr ?_
    rw [kind?_setKind, if_neg]
    rintro rfl
    exact hl.not_mem_own_children .root hmem
  rw [gist, gist, hpayloads, hroot]
  rfl

end Document

namespace Builtin

/-- The qualifiers that payloads use. -/
def qualifiersIn (F : Forest NodeKind) : List String :=
  (F.preorder.filterMap (·.element?)).flatMap qualifiersOf

variable {d : Document} {stage : Stage}

theorem usedQualifiers_eq (hl : d.Linked) : usedQualifiers d = qualifiersIn d.payloads := by
  obtain ⟨f, ht, hf, -⟩ := hl.exists_forest_below .root
  have hnames : f.preorder.filterMap d.element? =
      (f.map d.kindOf).preorder.filterMap (·.element?) := by
    rw [Forest.preorder_map, List.filterMap_map]
    exact congrArg (List.filterMap · _) (funext fun x => (element?_kindOf d x).symm)
  rw [usedQualifiers, qualifiersIn, hl.payloads_eq ht hf, ← hnames, elements,
    hl.descendants_eq ht hf, List.filterMap_filter]
  refine congrArg (List.flatMap qualifiersOf) (List.filterMap_congr fun x _ => ?_)
  rw [isElement]
  cases d.element? x <;> rfl

/-- A declaration that is used, or an attribute that is no declaration of a qualifier. -/
def isUsed (used : List String) (a : Attribute) : Bool :=
  a.name.qualifier != some "xmlns" || used.contains a.name.localPart

theorem dropUnusedDeclarations_spec (hd : d.Sound) :
    (dropUnusedDeclarations d).Sound ∧ (dropUnusedDeclarations d).gist = { d.gist with
      payloads := d.payloads.editFirst (·.keepAttrs (isUsed (qualifiersIn d.payloads))) } := by
  have hl := hd.linked
  rw [dropUnusedDeclarations, ← usedQualifiers_eq hl]
  split
  · rename_i hnone
    rw [Forest.editFirst_eq_self]
    · exact ⟨hd, rfl⟩
    · rw [hl.topElements_payloads, List.head?_eq_none_iff.1 hnone]
      rfl
  · rename_i id hid
    obtain ⟨e, he⟩ := Option.isSome_iff_exists.1
      (mem_childElements_iff.1 (List.mem_of_mem_head? hid)).2
    have hmodify : d.modifyElement id (·.keepAttrs (isUsed (usedQualifiers d))) =
        d.setKind id (.element (e.keepAttrs (isUsed (usedQualifiers d)))) := by
      rw [modifyElement, he]
    show (d.modifyElement id (·.keepAttrs (isUsed (usedQualifiers d)))).Sound ∧
      (d.modifyElement id (·.keepAttrs (isUsed (usedQualifiers d)))).gist = _
    rw [hmodify]
    exact ⟨steady_sound.setKind hd (eq_ctorIdx (element?_eq_some_iff.1 he) rfl),
      hl.gist_setElement (g := (·.keepAttrs (isUsed (usedQualifiers d)))) hid he⟩

/-! ## Alone -/

theorem does_rewriting {f : Document → Document} {φ : Gist → Gist}
    (hstage : stage.traversal = .full) (hr : ∀ d, stage.rewriter.rewrite d = .ok (f d))
    (hsound : ∀ d, d.Sound → (f d).Sound) (hgist : ∀ d, d.Sound → (f d).gist = φ d.gist) :
    Does [stage.alone] φ := by
  refine does_group fun d hd => ⟨f d, ?_, hsound d hd, hgist d hd⟩
  rw [Stage.alone, hstage]
  show (rewriteAll [stage] d).outcome = _
  rw [rewriteAll, hr]
  rfl

/-- The stage is the plugin, prepared with some parameters. -/
def Prepares (p : Plugin) (stage : Stage) : Prop :=
  stage.traversal = stage.rewriter.traversal.getD p.traversal ∧
    ∃ params, p.prepare params = .ok stage.rewriter

/-- No plugin of the library is driven in another way because of its parameters. -/
theorem traversal_of_prepare {p : Plugin} {params : Params} {r : Rewriter} (hp : p ∈ plugins)
    (h : p.prepare params = .ok r) : r.traversal = none := by
  simp only [plugins, List.mem_cons, List.not_mem_nil, or_false] at hp
  rcases hp with rfl | rfl | rfl | rfl | rfl | rfl | rfl | rfl | rfl | rfl | rfl | rfl | rfl | rfl |
    rfl | rfl
  -- Three plugins look at their parameters.
  all_goals try exact Except.ok.inj h ▸ rfl
  · obtain ⟨precision, rfl⟩ := of_prepare_convertPaths h
    rfl
  · rcases of_prepare_removeAttributes h with rfl | ⟨p, rfl⟩ <;> rfl
  · obtain ⟨entries, -, rfl⟩ := of_prepare_addAttributes h
    rfl

theorem Prepares.traversal_eq {p : Plugin} (h : Prepares p stage) (hp : p ∈ plugins) :
    stage.traversal = p.traversal := by
  obtain ⟨htraversal, params, hprepare⟩ := h
  rw [htraversal, traversal_of_prepare hp hprepare]
  rfl

theorem does_removeDoctype (h : Prepares removeDoctype stage) :
    Does [stage.alone] fun gist => { gist with doctype := none } := by
  have htraversal := h.traversal_eq (by simp [plugins])
  obtain ⟨-, params, hprepare⟩ := h
  have hr := Except.ok.inj hprepare
  exact does_rewriting (f := fun d => { d with doctype := none }) htraversal
    (fun d => by rw [← hr]) (fun d hd => hd.of_nodes rfl) fun d hd => hd.linked.gist_of_nodes rfl

theorem does_removeXmlDeclaration (h : Prepares removeXmlDeclaration stage) :
    Does [stage.alone] fun gist => { gist with declaration := none } := by
  have htraversal := h.traversal_eq (by simp [plugins])
  obtain ⟨-, params, hprepare⟩ := h
  have hr := Except.ok.inj hprepare
  exact does_rewriting (f := fun d => { d with declaration := none }) htraversal
    (fun d => by rw [← hr]) (fun d hd => hd.of_nodes rfl) fun d hd => hd.linked.gist_of_nodes rfl

theorem does_removeUnusedNamespaces (h : Prepares removeUnusedNamespaces stage) :
    Does [stage.alone] fun gist =>
      let used := qualifiersIn gist.payloads
      { gist with payloads := gist.payloads.editFirst (·.keepAttrs (isUsed used)) } := by
  have htraversal := h.traversal_eq (by simp [plugins])
  obtain ⟨-, params, hprepare⟩ := h
  have hr := Except.ok.inj hprepare
  exact does_rewriting (f := dropUnusedDeclarations) htraversal (fun d => by rw [← hr])
    (fun d hd => (dropUnusedDeclarations_spec hd).1) fun d hd => (dropUnusedDeclarations_spec hd).2

theorem Prepares.follows {p : Plugin} {edit : Edit} (h : Prepares p stage)
    (hf : p.Follows (· = edit)) : stage.Follows Document.Sound edit := by
  obtain ⟨-, params, hprepare⟩ := h
  obtain ⟨_, rfl, hfollows⟩ := hf params stage.rewriter hprepare
  exact hfollows stage.name stage.traversal

theorem Prepares.trims {p : Plugin} (h : Prepares p stage) (hp : p ∈ plugins) :
    stage.rewriter.Trims := by
  obtain ⟨-, params, hprepare⟩ := h
  exact trims_of_mem_plugins hp params _ hprepare

/-! ## Selections of the preset -/

/-- The plugins of the preset, in order. -/
def presetPlugins : List Plugin :=
  plugins.take 14

theorem mem_plugins {p : Plugin} (h : p ∈ presetPlugins) : p ∈ plugins :=
  List.mem_of_mem_take h

variable {stages : List Stage} {xs : List (Plugin × (Edit → Prop))} {qs : List Plugin}

/-- Prepared plugins that visit parents first follow edits of the kinds that are known of them. -/
theorem exists_edits (hxs : xs.Sublist itemPlugins)
    (hs : List.Forall₂ (fun x stage => Prepares x.1 stage) xs stages) :
    ∃ edits, List.Forall₂ (Stage.Follows Document.Sound) stages edits ∧
      List.Forall₂ (fun x edit => x.2 edit) xs edits := by
  induction hs with
  | nil => exact ⟨[], .nil, .nil⟩
  | @cons x stage xs stages hstage _ ih =>
    obtain ⟨edits, hedits, hknown⟩ := ih ((List.sublist_cons_self _ _).trans hxs)
    obtain ⟨-, params, hprepare⟩ := hstage
    obtain ⟨edit, hedit, hfollows⟩ :=
      follows_itemPlugins x (hxs.subset List.mem_cons_self) params _ hprepare
    exact ⟨edit :: edits, .cons (hfollows stage.name stage.traversal) hedits, .cons hedit hknown⟩

/-- The plugins of a selection that are driven in one way are among those of the preset. -/
theorem sublist_filter {t : Traversal} (hqs : qs.Sublist presetPlugins)
    (hdriven : ∀ q ∈ qs, q.traversal = t) :
    qs.Sublist (presetPlugins.filter fun q => decide (q.traversal = t)) := by
  have hall : qs.filter (fun q => decide (q.traversal = t)) = qs := by
    rw [List.filter_eq_self]
    exact fun q hq => decide_eq_true (hdriven q hq)
  rw [← hall]
  exact hqs.filter _

theorem exists_items (hqs : qs.Sublist presetPlugins)
    (hdriven : ∀ q ∈ qs, q.traversal = .perItem) :
    ∃ xs : List (Plugin × (Edit → Prop)), xs.Sublist itemPlugins ∧ qs = xs.map Prod.fst := by
  have hsub := sublist_filter hqs hdriven
  have hitems : presetPlugins.filter (fun q => decide (q.traversal = .perItem)) =
      itemPlugins.map Prod.fst := rfl
  rw [hitems] at hsub
  obtain ⟨xs, hxs, rfl⟩ := List.sublist_map_iff.1 hsub
  exact ⟨xs, hxs, rfl⟩

theorem driven_of_prepares (hqs : qs.Sublist presetPlugins)
    (hs : List.Forall₂ Prepares qs stages) {t : Traversal}
    (hdriven : ∀ stage ∈ stages, stage.traversal = t) : ∀ q ∈ qs, q.traversal = t := by
  intro q hq
  obtain ⟨stage, hm, hstage⟩ : ∃ stage ∈ stages, Prepares q stage :=
    exists_of_mem_forall₂ hs.flip hq
  exact (hstage.traversal_eq (mem_plugins (hqs.subset hq))).symm.trans (hdriven stage hm)

theorem trims_of_prepares (hqs : qs.Sublist presetPlugins) (hs : List.Forall₂ Prepares qs stages) :
    ∀ stage ∈ stages, stage.rewriter.Trims := by
  induction hs with
  | nil => exact fun stage hm => absurd hm List.not_mem_nil
  | @cons p stage ps stages hstage _ ih =>
    refine List.forall_mem_cons.2 ⟨hstage.trims (mem_plugins (hqs.subset List.mem_cons_self)), ?_⟩
    exact ih ((List.sublist_cons_self _ _).trans hqs)

theorem Prepares.visit_removeEmptyContainers (h : Prepares removeEmptyContainers stage) :
    stage.rewriter.visit = Plugin.deciding decideEmptyContainer := by
  obtain ⟨-, params, hprepare⟩ := h
  rw [← Except.ok.inj hprepare]

theorem Prepares.visit_collapseGroups (h : Prepares collapseGroups stage) :
    stage.rewriter.visit = visitGroup := by
  obtain ⟨-, params, hprepare⟩ := h
  rw [← Except.ok.inj hprepare]

/-- The plugins of the preset by the way in which they are driven. -/
theorem Prepares.cases {p : Plugin} (h : Prepares p stage) (hp : p ∈ presetPlugins) :
    (stage.traversal = .full ∧ p ∈ [removeDoctype, removeXmlDeclaration, removeUnusedNamespaces]) ∨
      (stage.traversal = .perItem ∧ p ∈ itemPlugins.map Prod.fst) ∨
      (stage.traversal = .perItemReverse ∧ p ∈ [removeEmptyContainers, collapseGroups]) := by
  have htraversal := h.traversal_eq (mem_plugins hp)
  have hmem : p ∈ presetPlugins.filter fun q => decide (q.traversal = stage.traversal) :=
    List.mem_filter.2 ⟨hp, decide_eq_true htraversal.symm⟩
  cases ht : stage.traversal <;> rw [ht] at hmem
  · exact .inl ⟨rfl, hmem⟩
  · exact .inr (.inl ⟨rfl, hmem⟩)
  · exact .inr (.inr ⟨rfl, hmem⟩)

/-- What a plugin of the preset makes of a document depends on what the document says. -/
theorem exists_does_alone {p : Plugin} (hp : p ∈ presetPlugins) (h : Prepares p stage) :
    ∃ φ, Does [stage.alone] φ := by
  have htrims : ∀ s ∈ [stage], s.rewriter.Trims :=
    List.forall_mem_singleton.2 (h.trims (mem_plugins hp))
  rcases h.cases hp with ⟨-, hp⟩ | ⟨ht, hp⟩ | ⟨ht, hp⟩
  · simp only [List.mem_cons, List.not_mem_nil, or_false] at hp
    rcases hp with rfl | rfl | rfl
    · exact ⟨_, does_removeDoctype h⟩
    · exact ⟨_, does_removeXmlDeclaration h⟩
    · exact ⟨_, does_removeUnusedNamespaces h⟩
  · obtain ⟨x, hx, rfl⟩ := List.mem_map.1 hp
    obtain ⟨edits, hedits, -⟩ :=
      exists_edits (List.singleton_sublist.2 hx) (List.Forall₂.cons h .nil)
    rw [Stage.alone, ht]
    exact ⟨_, does_parentsFirst hedits htrims⟩
  · simp only [List.mem_cons, List.not_mem_nil, or_false] at hp
    rw [Stage.alone, ht]
    rcases hp with rfl | rfl
    · exact ⟨_, does_childrenFirst (visits_emptied h.visit_removeEmptyContainers).turns htrims⟩
    · exact ⟨_, does_childrenFirst (visits_collapsed h.visit_collapseGroups).turns htrims⟩

/-- A plugin of the preset may be taken out of the front of a group. -/
theorem actAlike_front {t : Traversal} {stage next : Stage} {rest : List Stage} (ht : t ≠ .full)
    (hqs : qs.Sublist presetPlugins) (hs : List.Forall₂ Prepares qs (stage :: next :: rest))
    (hdriven : ∀ s ∈ stage :: next :: rest, s.traversal = t) :
    ActAlike [⟨t, stage :: next :: rest⟩] [⟨t, [stage]⟩, ⟨t, next :: rest⟩] := by
  have htrims := trims_of_prepares hqs hs
  have hsub := sublist_filter hqs (driven_of_prepares hqs hs hdriven)
  cases t with
  | full => exact absurd rfl ht
  | perItem =>
    obtain ⟨xs, hxs, rfl⟩ := exists_items hqs (driven_of_prepares hqs hs hdriven)
    rw [List.forall₂_map_left_iff] at hs
    obtain ⟨edits, hedits, hknown⟩ := exists_edits hxs hs
    have hpairs := overlooks_itemPlugins.sublist hxs
    cases hknown with
    | nil => exact absurd hedits (by simp)
    | @cons x edit xs edits hedit hknown =>
      refine actAlike_parentsFirst hedits htrims fun g hg => ?_
      obtain ⟨y, hy, hyg⟩ := exists_of_mem_forall₂ hknown hg
      exact (List.pairwise_cons.1 hpairs).1 y hy edit g hedit hyg
  | perItemReverse =>
    have hlength := hs.length_eq
    have hboth : presetPlugins.filter (fun q => decide (q.traversal = .perItemReverse)) =
        [removeEmptyContainers, collapseGroups] := rfl
    rw [hboth] at hsub
    have hle := hsub.length_le
    simp only [List.length_cons, List.length_nil] at hlength hle
    -- A group of two of the plugins that visit children first has both of them.
    obtain rfl : rest = [] := List.eq_nil_of_length_eq_zero (by omega)
    obtain rfl := hsub.eq_of_length (by simp [hlength])
    obtain ⟨hstage, hnext⟩ :
        Prepares removeEmptyContainers stage ∧ Prepares collapseGroups next := by
      simpa using hs
    have hfirst := visits_emptied hstage.visit_removeEmptyContainers
    have hsecond := visits_collapsed hnext.visit_collapseGroups
    have hboth := visits_tidied hstage.visit_removeEmptyContainers hnext.visit_collapseGroups
    simp only [List.forall_mem_cons] at htrims
    have happly := (does_childrenFirst hfirst.turns (List.forall_mem_singleton.2 htrims.1)).append
      (does_childrenFirst hsecond.turns (List.forall_mem_singleton.2 htrims.2.1))
    refine ⟨_, does_childrenFirst hboth.turns (by simpa using htrims), happly.congr fun gist => ?_⟩
    rw [Function.comp_apply, rebuild_tidied]

/-- The groups of a selection of the preset act like a group for each plugin. -/
theorem actAlike_selection (hqs : qs.Sublist presetPlugins)
    (hs : List.Forall₂ Prepares qs stages) :
    ActAlike (Group.ofStages stages) (stages.map Stage.alone) := by
  refine actAlike_ofStages (fun stage hm => ?_) fun t stage next rest ht hsub hdriven => ?_
  · obtain ⟨p, hp, hprepares⟩ := exists_of_mem_forall₂ hs hm
    exact exists_does_alone (hqs.subset hp) hprepares
  · obtain ⟨qs', hsub', hs'⟩ := exists_sublist_of_forall₂ hs hsub
    exact actAlike_front ht (hsub'.trans hqs) hs' hdriven

end Builtin

/-! ## Configurations -/

variable {c : Config} {descriptors : List Descriptor} {stages : List Stage} {s : String}
  {d : Document}

/-- The names of a selection decide which plugins it has. -/
theorem Config.plugins_sublist (hnames : (c.effective.map (·.name)).Sublist presetNames)
    (hresolve : c.resolve Builtin.registry = .ok descriptors) :
    (descriptors.map (·.plugin)).Sublist Builtin.presetPlugins := by
  have hget : List.Forall₂ (fun name p => Builtin.registry.get name = .ok p)
      (c.effective.map (·.name)) (descriptors.map (·.plugin)) := by
    rw [List.forall₂_map_left_iff, List.forall₂_map_right_iff]
    refine (mapM_eq_ok_iff.1 hresolve).imp fun entry x hx => ?_
    obtain ⟨plugin, hplugin, rfl⟩ := Config.resolveEntry_eq_ok_iff.1 hx
    exact hplugin
  have hall : presetNames.mapM Builtin.registry.get = .ok Builtin.presetPlugins := rfl
  have hpreset : List.Forall₂ (fun name p => Builtin.registry.get name = .ok p) presetNames
      Builtin.presetPlugins :=
    mapM_eq_ok_iff.1 hall
  obtain ⟨ps, hps, hnames'⟩ := exists_sublist_of_forall₂ hpreset.flip hnames
  -- The registry has one plugin for each name.
  have hunique : descriptors.map (·.plugin) = ps :=
    List.right_unique_forall₂' (fun name p q hp hq => Except.ok.inj (hp.symm.trans hq)) hget
      hnames'.flip
  rwa [hunique]

theorem Descriptor.forall₂_prepares
    (h : List.Forall₂ (fun x stage => Descriptor.prepare x = .ok stage) descriptors stages) :
    List.Forall₂ Builtin.Prepares (descriptors.map (·.plugin)) stages := by
  rw [List.forall₂_map_left_iff]
  refine h.imp fun x stage hx => ?_
  obtain ⟨rewriter, hrewriter, rfl⟩ := Descriptor.prepare_eq_ok_iff.1 hx
  exact ⟨rfl, x.params, hrewriter⟩

/-- Each enabled plugin makes a pipeline of its own. -/
theorem Pipeline.mapM_ofDescriptors
    (h : List.Forall₂ (fun x stage => Descriptor.prepare x = .ok stage)
      (descriptors.filter (·.enabled)) stages) :
    (descriptors.filter (·.enabled)).mapM (fun x => ofDescriptors [x]) =
      .ok (stages.map fun stage => ⟨[stage.alone]⟩) := by
  rw [mapM_eq_ok_iff, List.forall₂_map_right_iff]
  have henabled : ∀ x ∈ descriptors.filter (·.enabled), x.enabled = true :=
    fun x hx => (List.mem_filter.1 hx).2
  refine ((List.forall₂_and_left _ _).2 ⟨henabled, h⟩).imp fun x stage ⟨hx, hstage⟩ => ?_
  refine ofDescriptors_eq_ok_iff.2 ⟨[stage], ?_, rfl⟩
  rw [List.filter_cons_of_pos hx, List.filter_nil, List.mapM_cons, hstage]
  rfl

/-- A pipeline of one plugin of the preset, which visits nodes, is one walk. -/
theorem Pipeline.exists_stage_of_alone {p : Pipeline} {plugin : Plugin}
    (hplugins : (descriptors.filter (·.enabled)).map (·.plugin) = [plugin])
    (hp : Pipeline.ofDescriptors descriptors = .ok p) (hpreset : plugin ∈ Builtin.presetPlugins)
    (ht : plugin.traversal ≠ .full) :
    ∃ stage, Builtin.Prepares plugin stage ∧ stage.Shrinks ∧ ∀ d, (p.apply d).outcome =
      (walk [stage] (decide (plugin.traversal = .perItemReverse)) d).outcome := by
  obtain ⟨stages, hstages, rfl⟩ := Pipeline.ofDescriptors_eq_ok_iff.1 hp
  have hprepares := Descriptor.forall₂_prepares (mapM_eq_ok_iff.1 hstages)
  rw [hplugins] at hprepares
  cases hprepares with
  | @cons _ stage _ _ hstage hnone =>
    cases hnone
    have hmem := Builtin.mem_plugins hpreset
    refine ⟨stage, hstage, (hstage.trims hmem).shrinks, fun d => ?_⟩
    have halone : stage.alone.apply d =
        walk [stage] (decide (plugin.traversal = .perItemReverse)) d := by
      rw [Group.apply, Stage.alone, hstage.traversal_eq hmem]
      cases htraversal : plugin.traversal with
      | full => exact absurd htraversal ht
      | perItem => rfl
      | perItemReverse => rfl
    rw [Pipeline.apply, Group.ofStages, Group.ofStages, applyGroups, outcome_bind, ← Stage.alone,
      halone]
    cases (walk [stage] (decide (plugin.traversal = .perItemReverse)) d).outcome <;> rfl

/-- Whichever plugins of the preset a configuration enables, and whatever parameters they accept,
the pipeline makes of every text that is a document the same document as the pipelines of its
plugins make, one after the other. -/
theorem Pipeline.apply_preset_eq_applyInTurn (c : Config) (descriptors : List Descriptor)
    (p : Pipeline) (s : String) (d : Document)
    (hnames : (c.effective.map (·.name)).Sublist presetNames)
    (hresolve : c.resolve Builtin.registry = .ok descriptors)
    (hp : Pipeline.ofDescriptors descriptors = .ok p) (hs : Markup.parse s = .ok d) :
    ∃ single d₁ d₂,
      (descriptors.filter (·.enabled)).mapM (fun x => Pipeline.ofDescriptors [x]) = .ok single ∧
      (p.apply d).outcome = .ok d₁ ∧ (Pipeline.applyInTurn single d).outcome = .ok d₂ ∧
      (d₁ == d₂) = true := by
  obtain ⟨stages, hstages, rfl⟩ := Pipeline.ofDescriptors_eq_ok_iff.1 hp
  have hprepare := mapM_eq_ok_iff.1 hstages
  have hselection : ((descriptors.filter (·.enabled)).map (·.plugin)).Sublist
      Builtin.presetPlugins :=
    (List.filter_sublist.map _).trans (Config.plugins_sublist hnames hresolve)
  obtain ⟨φ, hbatched, hsingle⟩ :=
    Builtin.actAlike_selection hselection (Descriptor.forall₂_prepares hprepare)
  have hd := Markup.sound_of_parse hs
  obtain ⟨d₁, ho₁, hd₁, hgist₁⟩ := hbatched d hd
  obtain ⟨d₂, ho₂, hd₂, hgist₂⟩ := hsingle d hd
  refine ⟨_, d₁, d₂, Pipeline.mapM_ofDescriptors hprepare, ho₁, ?_,
    hd₁.linked.beq_of_gist hd₂.linked (hgist₁.trans hgist₂.symm)⟩
  rw [List.map_eq_flatMap] at ho₂
  rw [Pipeline.outcome_applyInTurn, List.flatMap_map]
  exact ho₂

/-- The preset without one of its plugins, and with a parameter for another one, makes one document
of a drawing with a nested group in both ways. -/
theorem Pipeline.apply_preset_eq_applyInTurn_of_nested : ∃ (c : Config)
    (descriptors : List Descriptor) (p : Pipeline) (d : Document),
    c.plugins.map (·.name) = ["removeComments", "convertPathData"] ∧
    (c.effective.map (·.name)).Sublist presetNames ∧
    c.resolve Builtin.registry = .ok descriptors ∧
    Pipeline.ofDescriptors descriptors = .ok p ∧
    Markup.parse "<svg><g fill='red'><g><path d='M0 0L1 1'/></g><defs/></g></svg>" = .ok d ∧
    ∃ single d₁ d₂,
      (descriptors.filter (·.enabled)).mapM (fun x => Pipeline.ofDescriptors [x]) = .ok single ∧
      (p.apply d).outcome = .ok d₁ ∧ (Pipeline.applyInTurn single d).outcome = .ok d₂ ∧
      (d₁ == d₂) = true := by
  let c : Config := { plugins := [{ name := "removeComments", enabled := false },
    { name := "convertPathData", params := ⟨[("precision", .integer 1)]⟩ }] }
  have hnames : (c.effective.map (·.name)).Sublist presetNames := by
    rw [Config.names_effective rfl (by decide)]
  obtain ⟨engine, hc⟩ : ∃ engine, Engine.ofConfig c Builtin.registry = .ok engine := ⟨_, rfl⟩
  obtain ⟨descriptors, p, hresolve, hp, -⟩ := Engine.ofConfig_eq_ok_iff.1 hc
  obtain ⟨d, hs⟩ : ∃ d, Markup.parse
      "<svg><g fill='red'><g><path d='M0 0L1 1'/></g><defs/></g></svg>" = .ok d := ⟨_, rfl⟩
  exact ⟨c, descriptors, p, d, rfl, hnames, hresolve, hp, hs,
    Pipeline.apply_preset_eq_applyInTurn c descriptors p _ d hnames hresolve hp hs⟩

end SvgPress
