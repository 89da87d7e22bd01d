import SvgPress.Proofs.Builtin.Collapsing
import SvgPress.Proofs.Builtin.Passes
import SvgPress.Proofs.Builtin.Shrinking
import SvgPress.Proofs.Markup.Styled
import SvgPress.Proofs.Tree.Carrying
import SvgPress.Proofs.Walk.Preserving

/-!
# Distinct names

Attributes that are read have distinct names, and every plugin of the library leaves them so: most
drop attributes, order them or change their values, a group hands its attributes down only where
none of them is there already, and an attribute is added only where there is none of its name.
So no element is ever left with two attributes of one name. Whether the tags that are written for
the elements are read in this way, too, is up to the names that are added: they are not checked as
those of new content are, and a name may end in a blank that does not count when it is read.
-/

namespace SvgPress

open Document Builtin

variable {allowed : String → Prop} {d : Document} {id : NodeId}

/-! ## Elements -/

namespace Element

variable {e e' : Element}

/-- An element may get attributes of allowed names, as long as all names are distinct. -/
theorem IsKeyed.of_names (he : e.IsKeyed allowed) (hname : e'.name = e.name)
    (hnames : ∀ q ∈ e'.attributes.map (·.name),
      q ∈ e.attributes.map (·.name) ∨ q.IsRead ∧ allowed q.full)
    (hdistinct : (e'.attributes.map (·.name)).Nodup) : e'.IsKeyed allowed := by
  have hall : ∀ a ∈ e'.attributes, a.name.IsRead ∧ allowed a.name.full := by
    intro a ha
    rcases hnames a.name (List.mem_map_of_mem ha) with hold | hnew
    · obtain ⟨b, hb, hname⟩ := List.mem_map.1 hold
      exact hname ▸ ⟨he.read b hb, he.allowed b hb⟩
    · exact hnew
  exact ⟨hname ▸ he.name, fun a ha => (hall a ha).1, fun a ha => (hall a ha).2, hdistinct⟩

theorem IsKeyed.within (he : e.IsKeyed allowed) (h : e'.Within e) : e'.IsKeyed allowed :=
  he.of_names h.name (fun _ hq => .inl (h.names.subset hq)) (he.distinct.sublist h.names)

theorem IsKeyed.perm (he : e.IsKeyed allowed) (hname : e'.name = e.name)
    (h : e'.attributes.Perm e.attributes) : e'.IsKeyed allowed :=
  have hnames := h.map (·.name)
  he.of_names hname (fun _ hq => .inl (hnames.subset hq)) (hnames.nodup_iff.2 he.distinct)

theorem IsKeyed.setAttr (he : e.IsKeyed allowed) {name : String}
    (hname : e.hasAttr name = true ∨ allowed name) (value : String) :
    (e.setAttr name value).IsKeyed allowed := by
  refine he.of_names rfl (fun q hq => ?_) (nodup_names_setAttr he.distinct name value)
  rw [names_setAttr_eq] at hq
  split_ifs at hq with hhas
  · exact .inl hq
  · rcases List.mem_append.1 hq with hold | hnew
    · exact .inl hold
    · rw [List.mem_singleton.1 hnew, QName.full_ofString]
      exact .inr ⟨QName.isRead_ofString name, hname.resolve_left hhas⟩

end Element

namespace Builtin

variable {e g c : Element} {params : Params} {r : Rewriter}

theorem isKeyed_sortElementAttributes (he : e.IsKeyed allowed) :
    (sortElementAttributes e).IsKeyed allowed :=
  he.perm rfl (List.mergeSort_perm ..)

theorem isKeyed_addMissing {entries : Toml.Table} (hentries : ∀ entry ∈ entries, allowed entry.1)
    (he : e.IsKeyed allowed) : (addMissing entries e).IsKeyed allowed := by
  rw [addMissing]
  induction entries generalizing e with
  | nil => exact he
  | cons entry entries ih =>
    obtain ⟨hentry, hrest⟩ := List.forall_mem_cons.1 hentries
    rw [List.foldl_cons]
    refine ih hrest ?_
    simp only
    split_ifs
    · exact he
    · exact he.setAttr (.inr hentry) _

/-- A child that takes over the attributes of a group still has distinct names. -/
theorem isKeyed_receive (hg : g.IsKeyed allowed) (hc : c.IsKeyed allowed)
    (h : canHandDown g c = true) : (c.receive g.attributes).IsKeyed allowed := by
  refine hc.of_names rfl (fun q hq => ?_) (nodup_names_receive hg.distinct hc.distinct h)
  rw [Element.receive, List.map_append, List.mem_append] at hq
  refine hq.imp_right fun hgiven => ?_
  obtain ⟨a, ha, rfl⟩ := List.mem_map.1 hgiven
  exact ⟨hg.read a ha, hg.allowed a ha⟩

/-! ## Plugins -/

theorem carries_handDown (h : d.Carries (·.IsKeyed allowed)) (group : NodeId) :
    (handDown d group).Carries (·.IsKeyed allowed) := by
  rcases handDown_eq d group with he | ⟨child, g, c, -, hg, hc, hcan, he⟩
  · rwa [he]
  · have hgroup := h group g hg
    have hemptied : (Element.mk g.name []).IsKeyed allowed :=
      hgroup.within (.of_sublist rfl (List.nil_sublist _))
    have hchild : (c.receive g.attributes).IsKeyed allowed :=
      isKeyed_receive hgroup (h child c hc) hcan
    rw [he]
    exact (h.setElement hemptied group).setElement hchild child

theorem preserves_collapseGroups :
    Rewriter.Preserves { visit := visitGroup } (Carries (·.IsKeyed allowed)) := by
  refine Rewriter.preserves_of_visit fun d id d' decision hd ho => ?_
  obtain ⟨-, rfl | ⟨-, -, rfl | hu⟩⟩ := visitGroup_eq_ok ho
  · exact hd
  · exact carries_handDown hd id
  · exact (carries_handDown hd id).unwrap hu

theorem preserves_removeEditorData :
    Rewriter.Preserves { visit := visitEditorData } (Carries (·.IsKeyed allowed)) := by
  refine Rewriter.preserves_of_visit fun d id d' decision hd ho => ?_
  rw [visitEditorData] at ho
  split_ifs at ho
  · obtain ⟨rfl, -⟩ := Prod.mk.inj (Except.ok.inj ho)
    exact hd
  · obtain ⟨rfl, -⟩ := Prod.mk.inj (Except.ok.inj ho)
    exact hd.modifyElement id fun e he => he.within (e.within_keepAttrs _)

theorem preserves_removeDefaults :
    Rewriter.Preserves { visit := fun d id => .ok (dropDefaults d id, .keep) }
      (Carries (·.IsKeyed allowed)) := by
  refine Rewriter.preserves_of_visit fun d id d' decision hd ho => ?_
  obtain ⟨rfl, -⟩ := Prod.mk.inj (Except.ok.inj ho)
  exact hd.modifyElement id fun e he => he.within (e.within_keepAttrs _)

theorem preserves_removeUnusedNamespaces :
    Rewriter.Preserves { rewrite := fun d => .ok (dropUnusedDeclarations d) }
      (Carries (·.IsKeyed allowed)) := by
  refine Rewriter.preserves_rewriting fun d hd => ?_
  rw [dropUnusedDeclarations]
  split
  · exact hd
  · exact hd.modifyElement _ fun e he => he.within (e.within_keepAttrs _)

theorem preserves_removeAttributes (hr : removeAttributes.prepare params = .ok r) :
    r.Preserves (Carries (·.IsKeyed allowed)) := by
  rcases of_prepare_removeAttributes hr with rfl | ⟨p, rfl⟩
  · exact Rewriter.preserves_deciding _ fun _ _ => .keep
  · exact Rewriter.preserves_editing fun d id hd =>
      hd.modifyElement id fun e he => he.within (e.within_keepAttrs _)

theorem preserves_convertPaths (hr : convertPaths.prepare params = .ok r) :
    r.Preserves (Carries (·.IsKeyed allowed)) := by
  obtain ⟨precision, rfl⟩ := of_prepare_convertPaths hr
  refine Rewriter.preserves_of_visit fun d id d' decision hd ho => ?_
  obtain ⟨d₁, ho₁, hd₁⟩ := exists_visitPath precision d id
  obtain ⟨rfl, -⟩ := Prod.mk.inj (Except.ok.inj (ho₁.symm.trans ho))
  rcases hd₁ with rfl | ⟨e, data, shortened, helement, hdata, rfl⟩
  · exact hd
  · exact hd.setElement ((hd id e helement).setAttr (.inl (Element.hasAttr_of_attr? hdata)) _) id

/-- The parameters ask for an attribute of the name. -/
def Adds (params : Params) (name : String) : Prop :=
  ∃ entries value, params.table? "attributes" = .ok (some entries) ∧ (name, value) ∈ entries

theorem preserves_addAttributes (hadds : ∀ name, Adds params name → allowed name)
    (hr : addAttributes.prepare params = .ok r) : r.Preserves (Carries (·.IsKeyed allowed)) := by
  obtain ⟨entries, hentries, rfl⟩ := of_prepare_addAttributes hr
  have hall : ∀ entry ∈ entries.getD [], allowed entry.1 := by
    cases entries with
    | none => exact fun _ h => absurd h List.not_mem_nil
    | some entries => exact fun entry hm => hadds entry.1 ⟨entries, entry.2, hentries, hm⟩
  refine Rewriter.preserves_of_visit fun d id d' decision hd ho => ?_
  rw [visitOuterElement] at ho
  split_ifs at ho
  · obtain ⟨rfl, -⟩ := Prod.mk.inj (Except.ok.inj ho)
    exact hd.modifyElement id fun e he => isKeyed_addMissing hall he
  · obtain ⟨rfl, -⟩ := Prod.mk.inj (Except.ok.inj ho)
    exact hd

/-- Every plugin of the library keeps the names of attributes read and distinct, and allowed unless
it adds others. -/
theorem preserves_of_mem_plugins {p : Plugin} (h : p ∈ plugins)
    (hadds : p.name = addAttributes.name → ∀ name, Adds params name → allowed name)
    (hr : p.prepare params = .ok r) : r.Preserves (Carries (·.IsKeyed allowed)) := by
  have hediting : ∀ {f : Element → Element}, (∀ e, e.IsKeyed allowed → (f e).IsKeyed allowed) →
      Rewriter.Preserves { visit := Plugin.editing f } (Carries (·.IsKeyed allowed)) :=
    fun hf => Rewriter.preserves_editing fun d id hd => hd.modifyElement id hf
  have hkinds : ∀ {f : Document → Document}, (∀ d id, (f d).kind? id = d.kind? id) →
      Rewriter.Preserves { rewrite := fun d => .ok (f d) } (Carries (·.IsKeyed allowed)) :=
    fun hf => Rewriter.preserves_rewriting fun d hd => hd.congr (hf d)
  simp only [plugins, List.mem_cons, List.not_mem_nil, or_false] at h
  rcases h with rfl | rfl | rfl | rfl | rfl | rfl | rfl | rfl | rfl | rfl | rfl | rfl | rfl | rfl |
    rfl | rfl
  · obtain rfl := Except.ok.inj hr
    exact hkinds fun _ _ => rfl
  · obtain rfl := Except.ok.inj hr
    exact hkinds fun _ _ => rfl
  · obtain rfl := Except.ok.inj hr
    exact Rewriter.preserves_deciding _ _
  · obtain rfl := Except.ok.inj hr
    exact Rewriter.preserves_deciding _ _
  · obtain rfl := Except.ok.inj hr
    exact preserves_removeEditorData
  · obtain rfl := Except.ok.inj hr
    exact Rewriter.preserves_deciding _ _
  · obtain rfl := Except.ok.inj hr
    exact hediting fun e he => he.within (within_minifyElementStyle e)
  · obtain rfl := Except.ok.inj hr
    exact hediting fun e he => he.within (within_shortenElementColors e)
  · obtain rfl := Except.ok.inj hr
    exact preserves_removeDefaults
  · exact preserves_convertPaths hr
  · obtain rfl := Except.ok.inj hr
    exact Rewriter.preserves_deciding _ _
  · obtain rfl := Except.ok.inj hr
    exact preserves_collapseGroups
  · obtain rfl := Except.ok.inj hr
    exact preserves_removeUnusedNamespaces
  · obtain rfl := Except.ok.inj hr
    exact hediting fun e he => isKeyed_sortElementAttributes he
  · exact preserves_removeAttributes hr
  · exact preserves_addAttributes (hadds rfl) hr

end Builtin

/-! ## Documents -/

theorem Element.IsKeyed.mono {e : Element} {allowed' : String → Prop} (h : e.IsKeyed allowed)
    (himp : ∀ name, allowed name → allowed' name) : e.IsKeyed allowed' :=
  ⟨h.name, h.read, fun a ha => himp _ (h.allowed a ha), h.distinct⟩

/-- The tag that is written for an element describes this element exactly if its attributes are
named by keys. -/
theorem Markup.element_tag_iff {e : Element} (h : e.IsKeyed allowed) (style : Markup.Style) :
    (style.tag e).element = .ok e ↔ ∀ a ∈ e.attributes, Markup.IsKey a.name.full :=
  ⟨fun he => (Markup.isKeyed_of_element he).allowed,
    fun hkeys => Markup.element_tag_of_isKeyed ⟨h.name, h.read, hkeys, h.distinct⟩ style⟩

/-- What opens an element in a text that is written is the tag of an element of the document. -/
theorem Document.exists_element_of_mem_documentTokens (hl : d.Linked) (style : Markup.Style)
    {tag : Markup.Tag}
    (h : .start tag ∈ style.documentTokens d ∨ .empty tag ∈ style.documentTokens d) :
    ∃ x ∈ d.descendants .root, ∃ e, d.element? x = some e ∧ tag = style.tag e := by
  obtain ⟨f, htops, hshows⟩ := hl.exists_forest (d.children .root)
  have hpayload : ∀ e, .element e ∈ d.payloads.preorder →
      ∃ x ∈ d.descendants .root, d.element? x = some e := by
    intro e he
    rw [hl.payloads_eq htops hshows, Forest.preorder_map, List.mem_map] at he
    obtain ⟨x, hx, hkind⟩ := he
    refine ⟨x, (hl.descendants_eq htops hshows).symm ▸ hx, ?_⟩
    rw [element?_eq_some_iff]
    rw [kindOf] at hkind
    cases hk : d.kind? x with
    | none => rw [hk] at hkind; exact absurd hkind (by simp)
    | some kind => rw [hk] at hkind; exact congrArg some hkind
  have hall : ∀ t ∈ style.wholeTokens d d.payloads, ∀ tag, t = .start tag ∨ t = .empty tag →
      ∃ x ∈ d.descendants .root, ∃ e, d.element? x = some e ∧ tag = style.tag e := by
    refine Markup.forall_mem_wholeTokens (by simp) (by simp) (by simp) (by simp) ?_
    intro kind hkind childless t ht tag htag
    cases kind with
    | element e =>
      obtain ⟨x, hx, he⟩ := hpayload e hkind
      have htoken : t = .start (style.tag e) ∨ t = .empty (style.tag e) ∨
          t = .close e.name.full := by
        simp only [Markup.Style.nodeTokens] at ht
        split_ifs at ht <;> simp only [List.nil_append, List.mem_cons, List.not_mem_nil,
          or_false] at ht <;> tauto
      refine ⟨x, hx, e, he, ?_⟩
      rcases htag with rfl | rfl <;> simpa using htoken
    | _ => rcases htag with rfl | rfl <;> simp [Markup.Style.nodeTokens] at ht
  exact h.elim (fun hm => hall _ hm tag (.inl rfl)) fun hm => hall _ hm tag (.inr rfl)

/-- The configuration asks for an attribute of the name on the document element. -/
def Config.Adds (c : Config) (name : String) : Prop :=
  ∃ entry ∈ c.effective, entry.enabled = true ∧ entry.name = addAttributes.name ∧
    Builtin.Adds entry.params name

/-- A pipeline of the library leaves the attributes of a document that is read with distinct names,
which are keys unless the configuration adds others. -/
theorem Engine.carries_apply {c : Config} {engine : Engine} {s : String} {d' : Document}
    (hc : Engine.ofConfig c Builtin.registry = .ok engine) (hs : Markup.parse s = .ok d)
    (ho : (engine.pipeline.apply d).outcome = .ok d') :
    d'.Carries (·.IsKeyed fun name => Markup.IsKey name ∨ c.Adds name) := by
  obtain ⟨descriptors, p, hresolve, hp, rfl⟩ := Engine.ofConfig_eq_ok_iff.1 hc
  have hread : d.Carries (·.IsKeyed fun name => Markup.IsKey name ∨ c.Adds name) :=
    Markup.carries_of_parse (fun tag e he => (Markup.isKeyed_of_element he).mono fun _ => .inl) hs
  refine Pipeline.preserves_apply hp (fun x hx henabled r hr => ?_) (fun d id hd => hd.detach id)
    hread ho
  have hplugin : x.plugin ∈ Builtin.plugins :=
    Registry.mem_of_mem_ofList (Config.plugin_mem_of_resolve hresolve hx)
  refine preserves_of_mem_plugins hplugin (fun hname name hadds => .inr ?_) hr
  obtain ⟨entry, hentry, hx⟩ := Outcome.exists_of_mem_mapM hresolve hx
  obtain ⟨plugin, hget, rfl⟩ := Config.resolveEntry_eq_ok_iff.1 hx
  exact ⟨entry, hentry, henabled, (Registry.of_get hget).2 ▸ hname, hadds⟩

/-- Whatever plugins of the library a configuration runs, and whatever attributes it adds, no
element that a pipeline leaves has two attributes of one full name. Every tag in the text that is
written is that of an element that is left, and it is read as this element exactly if all its
attributes are named by keys. Each name that is no key is one that the configuration adds. New
content that is accepted has distinct names, all of them keys. -/
theorem Engine.apply_distinct_names (c : Config) (engine : Engine) (s : String) (d : Document)
    (hc : Engine.ofConfig c Builtin.registry = .ok engine) (hs : Markup.parse s = .ok d) :
    (∃ d', (engine.pipeline.apply d).outcome = .ok d' ∧
      (∀ x e, d'.element? x = some e → (e.attributes.map (·.name.full)).Nodup) ∧
      (∀ x e, d'.element? x = some e →
        ∀ a ∈ e.attributes, Markup.IsKey a.name.full ∨ c.Adds a.name.full) ∧
      Markup.write engine.style d' = .ok (Markup.written (engine.style.documentTokens d')) ∧
      ∀ tag, .start tag ∈ engine.style.documentTokens d' ∨
          .empty tag ∈ engine.style.documentTokens d' →
        ∃ x ∈ d'.descendants .root, ∃ e, d'.element? x = some e ∧ tag = engine.style.tag e ∧
          (tag.element = .ok e ↔ ∀ a ∈ e.attributes, Markup.IsKey a.name.full)) ∧
    ∀ data item, ContentItem.ofData data = .ok item → ∀ x e, item.document.element? x = some e →
      (e.attributes.map (·.name.full)).Nodup ∧
        ∀ style : Markup.Style, (style.tag e).element = .ok e := by
  refine ⟨?_, fun data item hitem x e he => ?_⟩
  · have hsound := Markup.sound_of_parse hs
    obtain ⟨d', ho, htrimmed⟩ := trimmed_applyGroups (Engine.trims_of_ofConfig hc) hsound.linked
      hsound.shaped.one_element
    have hkeyed := Engine.carries_apply hc hs ho
    have hwritten : Markup.write engine.style d' =
        .ok (Markup.written (engine.style.documentTokens d')) := by
      obtain ⟨hplain, -⟩ := htrimmed.exists_write hs engine.style
      refine Markup.write_eq htrimmed.linked (htrimmed.shaped hsound.shaped) ?_ hplain engine.style
      rw [htrimmed.documentElement?_eq]
      exact Markup.isSome_documentElement? (Markup.tops_of_parse hs).1
    refine ⟨d', ho, fun x e he => (hkeyed x e he).nodup_full,
      fun x e he => (hkeyed x e he).allowed, hwritten, fun tag htag => ?_⟩
    obtain ⟨x, hx, e, he, rfl⟩ :=
      exists_element_of_mem_documentTokens htrimmed.linked engine.style htag
    exact ⟨x, hx, e, he, rfl, Markup.element_tag_iff (hkeyed x e he) engine.style⟩
  · have hchecked : e.IsChecked := Content.carries_of_ofData (fun _ h => h) hitem x e he
    exact ⟨(Markup.isKeyed_of_isChecked hchecked).nodup_full, Markup.element_tag hchecked⟩

/-- A group hands its attribute down to a child that has another one, and an attribute is added. -/
theorem Engine.apply_distinct_names_of_group : ∃ engine d,
    Engine.ofConfig { full := true, plugins := [{ name := "collapseGroups" },
      { name := "addAttributesToSVGElement",
        params := ⟨[("attributes", .table [("role", .string "img")])]⟩ }] } Builtin.registry =
        .ok engine ∧
    Markup.parse "<svg><g fill='red'><path d='M0 0'/></g></svg>" = .ok d ∧
    ∃ d', (engine.pipeline.apply d).outcome = .ok d' ∧
      Markup.write {} d' =
        .ok "<svg role=\"img\"><path d=\"M0 0\" fill=\"red\"/></svg>" ∧
      ∀ x e, d'.element? x = some e → (e.attributes.map (·.name.full)).Nodup := by
  obtain ⟨engine, d, d₁, hc, hs, ho₁, hw⟩ : ∃ engine d d', Engine.ofConfig
      { full := true, plugins := [{ name := "collapseGroups" },
        { name := "addAttributesToSVGElement",
          params := ⟨[("attributes", .table [("role", .string "img")])]⟩ }] } Builtin.registry =
        .ok engine ∧
      Markup.parse "<svg><g fill='red'><path d='M0 0'/></g></svg>" = .ok d ∧
      (engine.pipeline.apply d).outcome = .ok d' ∧
      Markup.write {} d' =
        .ok "<svg role=\"img\"><path d=\"M0 0\" fill=\"red\"/></svg>" :=
    ⟨_, _, _, rfl, rfl, rfl, rfl⟩
  obtain ⟨⟨d', ho, hdistinct, -⟩, -⟩ :=
    Engine.apply_distinct_names _ engine "<svg><g fill='red'><path d='M0 0'/></g></svg>" d hc hs
  obtain rfl := Except.ok.inj (ho₁.symm.trans ho)
  exact ⟨engine, d, hc, hs, _, ho, hw, hdistinct⟩

/-- A name that ends in a blank is read without it, and then it is there twice. -/
theorem Engine.apply_doubles_name : ∃ engine d d',
    Engine.ofConfig { full := true, plugins := [
      { name := "addAttributesToSVGElement",
        params := ⟨[("attributes", .table [("a ", .string "2")])]⟩ }] } Builtin.registry =
        .ok engine ∧
    Markup.parse "<svg a='0'/>" = .ok d ∧ (engine.pipeline.apply d).outcome = .ok d' ∧
    Markup.write engine.style d' = .ok "<svg a=\"0\" a =\"2\"/>" ∧
    Markup.parse "<svg a=\"0\" a =\"2\"/>" =
      .error (.parse (.badAttribute (.duplicated 10 4)) (some 19)) :=
  ⟨_, _, _, rfl, rfl, rfl, rfl, rfl⟩

end SvgPress
