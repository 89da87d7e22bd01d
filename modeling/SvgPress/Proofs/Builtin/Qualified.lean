import SvgPress.Proofs.Builtin.Scopes

/-!
# The preset and namespaces

Plugins of the preset drop declarations of namespaces, hand attributes to other elements and cut out
trees, but no name loses the declaration of its qualifier: those of drawing programs go together
with all that uses them, and the document element keeps those that are still used. The one exception
is an attribute whose local part is `data-name`, which goes even where it declares a qualifier.
-/

namespace SvgPress

open Document Builtin Outcome

/-! ## Elements in front -/

namespace Forest

variable {F : Forest NodeKind} {s : List NodeKind → NodeKind → Option NodeKind}
  {above : List NodeKind} {t : Bool → NodeKind → Forest NodeKind → Forest NodeKind}

/-- No element in front belongs to a drawing program. -/
def IsPlain (F : Forest NodeKind) : Prop :=
  ∀ kind ∈ F.tops, ∀ e ∈ kind.element?, hasEditorQualifier e.name = false

theorem IsPlain.settle (hs : ∀ above kind kind', s above kind = some kind' → kind'.bare = kind.bare)
    (h : F.IsPlain) : (F.settle s above).IsPlain := by
  induction F generalizing above with
  | nil => exact h
  | cons kind below rest _ ihr =>
    obtain ⟨hkind, hrest⟩ := List.forall_mem_cons.1 h
    rw [Forest.settle]
    split
    · exact ihr hrest
    · rename_i kind' hkind'
      refine List.forall_mem_cons.2 ⟨fun e' he' => ?_, ihr hrest⟩
      have hbare := hs _ _ _ hkind'
      obtain rfl : kind' = .element e' := by cases kind' <;> simp_all [NodeKind.element?]
      cases kind with
      | element e =>
        have hname : e'.name = e.name := by simpa [NodeKind.bare] using hbare
        rw [hname]
        exact hkind e rfl
      | _ => simp [NodeKind.bare] at hbare

theorem tops_rebuild (ht : ∀ kind below, t true kind below = cons kind below nil)
    (F : Forest NodeKind) : (F.rebuild t true).tops = F.tops := by
  induction F with
  | nil => rfl
  | cons kind below rest _ ihr => rw [Forest.rebuild, ht, cons_append, nil_append, tops, tops, ihr]

theorem IsPlain.editFirst {edit : Element → Element} (hn : ∀ e, (edit e).name = e.name)
    (h : F.IsPlain) : (F.editFirst edit).IsPlain := by
  induction F with
  | nil => exact h
  | cons kind below rest _ ihr =>
    obtain ⟨hkind, hrest⟩ := List.forall_mem_cons.1 h
    cases kind with
    | element e =>
      refine List.forall_mem_cons.2 ⟨fun e' he' => ?_, hrest⟩
      obtain rfl := Option.some.inj he'
      rw [hn]
      exact hkind e rfl
    | _ =>
      rw [editFirst_cons_of_other rfl]
      exact List.forall_mem_cons.2 ⟨hkind, ihr hrest⟩

end Forest

theorem Document.Sound.isPlain_payloads {d : Document} (hd : d.Sound)
    (h : ∀ id ∈ d.documentElement?, ∀ e ∈ d.element? id, hasEditorQualifier e.name = false) :
    d.payloads.IsPlain := by
  obtain ⟨f, ht, hf, -⟩ := hd.linked.exists_forest_below .root
  rw [hd.linked.payloads_eq ht hf, Forest.IsPlain, Forest.tops_map, List.forall_mem_map, ht]
  intro id hid e he
  rw [element?_kindOf] at he
  have hparent := (hd.linked.parent_iff id .root).2 hid
  exact h id ((hd.documentElement?_eq_some_iff (isElement_of_element? he)).2 hparent) e he

/-! ## Edits -/

/-- Whatever an edit makes of a payload upholds a qualifier. -/
def Edit.Upholds (edit : Edit) (q : String) : Prop :=
  ∀ above kind, (edit above kind).1.Upholds q kind

theorem Edit.upholds_ofElement {f : List NodeKind → Element → Element × Visit} {q : String}
    (h : ∀ above e, (NodeKind.element (f above e).1).Upholds q (.element e)) :
    (Edit.ofElement f).Upholds q := by
  intro above kind
  cases kind with
  | element e => exact h above e
  | _ => exact .refl q _

theorem Edit.settle_singleton_eq_some_iff {edit : Edit} {above : List NodeKind}
    {kind kind' : NodeKind} : Edit.settle [edit] above kind = some kind' ↔
      (edit above kind).2 = .keep ∧ (edit above kind).1 = kind' := by
  rw [Edit.settle_cons_eq_some_iff, Edit.settle, Option.some.injEq]

namespace Builtin

variable {q : String} {e : Element} {edit : Edit} {F : Forest NodeKind} {above : List NodeKind}

theorem upholds_minifyElementStyle (q : String) (e : Element) :
    (NodeKind.element (minifyElementStyle e)).Upholds q (.element e) := by
  rcases minifyElementStyle_cases e with h | h | ⟨style, hstyle, h⟩
  · rw [h]
    exact .refl q _
  · rw [h]
    refine NodeKind.upholds_of_sublist rfl List.eraseP_sublist fun a ha hname => ?_
    have hother : a.name ≠ QName.ofString "style" := by
      have hnone : (QName.ofString "style").qualifier = none := by decide
      rw [hname]
      exact fun hstyle => Option.some_ne_none _ ((congrArg QName.qualifier hstyle).trans hnone)
    exact (List.mem_eraseP_of_neg (by rwa [QName.isSpelled_iff])).2 ha
  · rw [h]
    have hnames := Element.names_setAttr (Element.hasAttr_of_attr? hstyle)
    refine NodeKind.upholds_of_names ?_ (hnames _) q
    rfl

theorem upholds_sortElementAttributes (q : String) (e : Element) :
    (NodeKind.element (sortElementAttributes e)).Upholds q (.element e) where
  uses hq := by
    have hperm := ((List.mergeSort_perm e.attributes mayPrecede).map (·.name)).cons e.name
    exact (hperm.filterMap QName.qualifier).mem_iff.1 hq
  declares := ((List.mergeSort_perm e.attributes mayPrecede).map (·.name)).mem_iff.2

theorem upholds_withoutDefaults (q : String) (above : List NodeKind) (e : Element) :
    (NodeKind.element (withoutDefaults above e)).Upholds q (.element e) :=
  NodeKind.upholds_keepAttrs (fun a ha => by simp [ha, QName.declaring]) e

theorem upholds_editorEdit (hq : q ∉ editorQualifiers) (hdata : q ≠ "data-name") :
    editorEdit.Upholds q := by
  refine Edit.upholds_ofElement fun above e => ?_
  split_ifs
  · exact .refl q _
  · refine NodeKind.upholds_keepAttrs (fun a ha => ?_) e
    have hxmlns : "xmlns" ∉ editorQualifiers := by decide
    simp [isEditorAttribute, hasEditorQualifier, ha, QName.declaring, hq, hdata, hxmlns]

/-- The edits of the preset keep names, and uphold all qualifiers, but for one edit. -/
theorem follows_upholding {p : Plugin} (hp : p ∈ itemPlugins.map Prod.fst) :
    p.Follows fun edit => edit.Keeps NodeKind.bare ∧
      ((∀ q, edit.Upholds q) ∨ p = removeEditorData ∧ edit = editorEdit) := by
  have hof : ∀ {f : Element → Element}, (∀ e, (f e).name = e.name) →
      (∀ q e, (NodeKind.element (f e)).Upholds q (.element e)) → ∀ edit : Edit,
      edit = .ofElement (fun _ e => (f e, .keep)) → edit.Keeps NodeKind.bare ∧
        ((∀ q, edit.Upholds q) ∨ p = removeEditorData ∧ edit = editorEdit) := by
    rintro f hname hf edit rfl
    exact ⟨(plain_of_name hname).2, .inl fun q => Edit.upholds_ofElement fun _ => hf q⟩
  simp only [itemPlugins, List.map_cons, List.map_nil, List.mem_cons, List.not_mem_nil,
    or_false] at hp
  rcases hp with rfl | rfl | rfl | rfl | rfl | rfl | rfl | rfl | rfl
  · exact follows_removeComments.mono fun edit h =>
      h ▸ ⟨plain_commentEdit.2, .inl fun q _ _ => .refl q _⟩
  · exact follows_removeMetadata.mono fun edit h =>
      h ▸ ⟨plain_metadataEdit.2, .inl fun q => Edit.upholds_ofElement fun _ _ => .refl q _⟩
  · exact follows_removeEditorData.mono fun edit h =>
      ⟨h ▸ plain_editorEdit.2, .inr ⟨rfl, h⟩⟩
  · exact follows_removeHiddenElements.mono fun edit h =>
      h ▸ ⟨plain_hiddenEdit.2, .inl fun q => Edit.upholds_ofElement fun _ _ => .refl q _⟩
  · exact follows_convertStyles.mono (hof name_minifyElementStyle upholds_minifyElementStyle)
  · exact follows_convertColors.mono (hof name_shortenElementColors fun q e =>
      NodeKind.upholds_of_names (name_shortenElementColors e) (names_shortenElementColors e) q)
  · exact follows_removeDefaults.mono fun edit h => h ▸ ⟨inheriting_defaultsEdit.2,
      .inl fun q => Edit.upholds_ofElement fun above e => upholds_withoutDefaults q above e⟩
  · refine follows_convertPaths.mono fun edit h => ?_
    obtain ⟨precision, rfl⟩ := h
    exact hof (name_shortenPath precision) (fun q e =>
      NodeKind.upholds_of_names (name_shortenPath precision e) (names_shortenPath precision e) q)
      _ rfl
  · exact follows_sortAttributes.mono (hof (fun _ => rfl) upholds_sortElementAttributes)

end Builtin

/-! ## Trees -/

/-- What is left of trees uses no qualifier that was not used, has no element of a drawing program
in front if there was none, and binds the qualifiers that were bound; but if editor data are
removed, `data-name` is left out. -/
structure Forest.Respects (cleans : Prop) (F' F : Forest NodeKind) : Prop where
  plain : F.IsPlain → F'.IsPlain
  lacks : ∀ q, F.Lacks q → F'.Lacks q
  binds : ∀ q, q ≠ "xmlns" → (cleans → q ≠ "data-name") → F.IsPlain → F.Binds q → F'.Binds q

namespace Forest.Respects

variable {cleans : Prop} {F F' F'' : Forest NodeKind}

theorem refl (F : Forest NodeKind) : F.Respects cleans F :=
  ⟨id, fun _ => id, fun _ _ _ _ => id⟩

theorem trans (h : F''.Respects cleans F') (h' : F'.Respects cleans F) : F''.Respects cleans F where
  plain := h.plain ∘ h'.plain
  lacks q := h.lacks q ∘ h'.lacks q
  binds q hq hdata hplain := h.binds q hq hdata (h'.plain hplain) ∘ h'.binds q hq hdata hplain

end Forest.Respects

namespace Builtin

variable {cleans : Prop} {q : String} {F below : Forest NodeKind} {kind : NodeKind} {g c : Element}
  {above : List NodeKind} {edit : Edit} {top : Bool}

/-! ### Trees that are settled -/

theorem lacks_settle (hs : ∀ above kind, (edit above kind).1.qualifiers ⊆ kind.qualifiers)
    (h : F.Lacks q) : (F.settle (Edit.settle [edit]) above).Lacks q :=
  Forest.forall_mem_settle (fun above kind _ hkind hkind' hq =>
    hkind (hs above kind ((Edit.settle_singleton_eq_some_iff.1 hkind').2 ▸ hq))) h

theorem isPlain_settle (hb : edit.Keeps NodeKind.bare) (h : F.IsPlain) :
    (F.settle (Edit.settle [edit]) above).IsPlain :=
  h.settle fun above kind _ hkind' =>
    (Edit.settle_singleton_eq_some_iff.1 hkind').2 ▸ hb above kind

theorem binds_settle (hu : edit.Upholds q) (h : F.Binds q) :
    (F.settle (Edit.settle [edit]) above).Binds q :=
  h.settle fun above kind _ hkind' =>
    (Edit.settle_singleton_eq_some_iff.1 hkind').2 ▸ hu above kind

theorem respects_settle (hb : edit.Keeps NodeKind.bare) (hu : ∀ q, edit.Upholds q) :
    (F.settle (Edit.settle [edit]) above).Respects cleans F where
  plain := isPlain_settle hb
  lacks _ := lacks_settle fun above kind _ => (hu _ above kind).uses
  binds q _ _ _ := binds_settle (hu q)

/-- Elements of drawing programs go, unless they are directly under the root; other elements lose
attributes. -/
theorem editorEdit_cases (above : List NodeKind) (e : Element) :
    editorEdit above (.element e) = (.element e, .remove) ∨
      (hasEditorQualifier e.name = true → underRoot above = true) ∧
        editorEdit above (.element e) =
          (.element (e.keepAttrs fun a => !isEditorAttribute a), .keep) := by
  simp only [editorEdit, Edit.ofElement]
  split_ifs with heditor
  · exact .inl rfl
  · exact .inr ⟨fun hname => by simpa [hname] using heditor, rfl⟩

/-- Without elements of drawing programs, nothing is left of the qualifiers of drawing programs. -/
theorem lacks_settle_editorEdit (hq : q ∈ editorQualifiers) (hfits : F.Fits)
    (hplain : above.head? = some .root → F.IsPlain) :
    (F.settle (Edit.settle [editorEdit]) above).Lacks q := by
  induction F generalizing above with
  | nil => exact fun _ hm => absurd hm List.not_mem_nil
  | cons kind below rest ihb ihr =>
    obtain ⟨hroot, -, hfbelow, hfrest⟩ := hfits
    have hrest := ihr hfrest fun h => (List.forall_mem_cons.1 (hplain h)).2
    rw [Forest.settle]
    split
    · exact hrest
    · rename_i kind' hkind'
      obtain ⟨hkeep, rfl⟩ := Edit.settle_singleton_eq_some_iff.1 hkind'
      cases kind with
      | element e =>
        rcases editorEdit_cases above e with hgone | ⟨hunder, hkept⟩
        · rw [hgone] at hkeep
          exact absurd hkeep (by simp)
        · -- Nothing below the element stands directly under the root.
          rw [hkept]
          refine Forest.forall_mem_preorder_cons.2 ⟨fun hmem => ?_, ihb hfbelow (by simp), hrest⟩
          rcases Element.mem_qualifiers_iff.1 hmem with hname | ⟨a, ha, hname⟩
          · have heditor : hasEditorQualifier e.name = true := by
              rw [hasEditorQualifier, show e.name.qualifier = some q from hname]
              simpa using hq
            have hfront := hplain (of_decide_eq_true (hunder heditor))
            exact absurd heditor (by simp [(List.forall_mem_cons.1 hfront).1 e rfl])
          · have hstays := (List.mem_filter.1 ha).2
            simp [isEditorAttribute, hasEditorQualifier, hname, hq] at hstays
      | root => exact absurd rfl hroot
      | _ =>
        refine Forest.forall_mem_preorder_cons.2 ⟨List.not_mem_nil, ihb hfbelow ?_, hrest⟩
        simp [editorEdit, Edit.ofElement]

theorem respects_editorEdit (hfits : F.Fits) (hcleans : cleans) :
    (F.settle (Edit.settle [editorEdit]) [.root]).Respects cleans F where
  plain := isPlain_settle plain_editorEdit.2
  lacks q := lacks_settle fun above kind => by
    cases kind with
    | element e =>
      rcases editorEdit_cases above e with hgone | ⟨-, hkept⟩
      · rw [hgone]
        exact List.Subset.refl _
      · rw [hkept]
        exact e.qualifiers_keepAttrs_subset _
    | _ => exact List.Subset.refl _
  binds q _ hdata hplain h := by
    -- A declaration that goes leaves no use behind; all others stay.
    by_cases hq : q ∈ editorQualifiers
    · exact (lacks_settle_editorEdit hq hfits fun _ => hplain).binds
    · exact binds_settle (upholds_editorEdit hq (hdata hcleans)) h

/-! ### Trees that are rebuilt -/

theorem respects_rebuild {t : Bool → NodeKind → Forest NodeKind → Forest NodeKind}
    (htop : ∀ kind below, t true kind below = .cons kind below .nil)
    (hlacks : ∀ q top kind below, (Forest.cons kind below .nil).Lacks q →
      (t top kind below).Lacks q)
    (hbinds : ∀ q top kind below, (Forest.cons kind below .nil).Binds q →
      (t top kind below).Binds q) :
    (F.rebuild t true).Respects cleans F where
  plain h := by
    rw [Forest.IsPlain, Forest.tops_rebuild htop]
    exact h
  lacks q := Forest.forall_mem_rebuild fun top kind below hkind hbelow =>
    hlacks q top kind below <|
      Forest.forall_mem_preorder_cons.2 ⟨hkind, hbelow, fun _ hm => absurd hm List.not_mem_nil⟩
  binds q _ _ _ := Forest.Binds.rebuild (hbinds q)

theorem emptied_cases (top : Bool) (kind : NodeKind) (below : Forest NodeKind) :
    emptied top kind below = .nil ∨ emptied top kind below = .cons kind below .nil := by
  rw [emptied]
  split_ifs
  · exact .inl rfl
  · exact .inr rfl

/-- A group that can hand down its attributes declares nothing. -/
theorem not_declares_of_canHandDown (h : canHandDown g c = true) : ¬ g.Declares q := by
  rintro hg
  obtain ⟨a, ha, hname⟩ := List.mem_map.1 hg
  simp only [canHandDown, Bool.and_eq_true, List.all_eq_true] at h
  have hnone := (h.1.2 a ha).2
  simp [hname, QName.declaring, QName.isNamespaceDeclaration] at hnone

/-- What uses a qualifier after attributes have been handed down has used it before. -/
theorem mem_qualifiers_of_handDown
    (h : q ∈ Element.qualifiers { c with attributes := c.attributes ++ g.attributes }) :
    q ∈ g.qualifiers ∨ q ∈ c.qualifiers := by
  rcases Element.mem_qualifiers_iff.1 h with hname | ⟨a, ha, hname⟩
  · exact .inr (Element.mem_qualifiers_iff.2 (.inl hname))
  · rcases List.mem_append.1 ha with ha | ha
    · exact .inr (Element.mem_qualifiers_iff.2 (.inr ⟨a, ha, hname⟩))
    · exact .inl (Element.mem_qualifiers_iff.2 (.inr ⟨a, ha, hname⟩))

theorem binds_ungrouped (h : (Forest.cons (.element g) below .nil).Binds q) :
    (ungrouped g below).Binds q := by
  rw [ungrouped]
  rcases handed_cases g below with ⟨c, inner, rfl, hcan, hh⟩ | hh
  · rw [hh]
    obtain ⟨hg, hc, -⟩ := h.1.resolve_left (not_declares_of_canHandDown hcan)
    refine ⟨?_, trivial⟩
    rcases hc with hdeclares | ⟨hc, hinner⟩
    · refine .inl ?_
      rw [NodeKind.Declares, Element.Declares, List.map_append]
      exact List.mem_append_left _ hdeclares
    · exact .inr ⟨fun hq => (mem_qualifiers_of_handDown hq).elim hg hc, hinner⟩
  · rw [hh]
    split_ifs with hempty
    · have hnone : ¬ g.Declares q := by
        rw [Element.Declares, List.isEmpty_iff.1 hempty]
        exact List.not_mem_nil
      exact (h.1.resolve_left hnone).2
    · exact h

theorem respects_emptied : (F.rebuild emptied true).Respects cleans F := by
  refine respects_rebuild (fun _ _ => rfl) (fun q top kind below h => ?_)
    fun q top kind below h => ?_
  · rcases emptied_cases top kind below with hnil | hsame
    · rw [hnil]
      exact fun _ hm => absurd hm List.not_mem_nil
    · rwa [hsame]
  · rcases emptied_cases top kind below with hnil | hsame
    · rw [hnil]
      trivial
    · rwa [hsame]

theorem respects_collapsed : (F.rebuild collapsed true).Respects cleans F := by
  refine respects_rebuild (fun kind below => by simp [collapsed]) (fun q top kind below h => ?_)
    fun q top kind below h => ?_
  · rcases collapsed_cases top kind below with ⟨g, rfl, hnamed, hh⟩ | hh
    · rw [hh]
      exact forall_mem_ungrouped
        (fun g c _ hg hc _ hq => (mem_qualifiers_of_handDown hq).elim hg hc) hnamed h
    · rwa [hh]
  · rcases collapsed_cases top kind below with ⟨g, rfl, -, hh⟩ | hh
    · rw [hh]
      exact binds_ungrouped h
    · rwa [hh]

/-! ### Unused declarations -/

/-- What counts as used is every qualifier that a name has, but for declarations. -/
theorem lacks_of_not_mem_qualifiersIn (hq : q ≠ "xmlns") (h : q ∉ qualifiersIn F) :
    F.Lacks q := by
  intro kind hkind hmem
  cases kind with
  | element e =>
    refine h (List.mem_flatMap.2 ⟨e, List.mem_filterMap.2 ⟨_, hkind, rfl⟩, ?_⟩)
    rw [qualifiersOf, List.mem_append, Option.mem_toList, List.mem_filterMap]
    refine (Element.mem_qualifiers_iff.1 hmem).imp_right ?_
    rintro ⟨a, ha, hqualifier⟩
    refine ⟨a, List.mem_filter.2 ⟨ha, ?_⟩, hqualifier⟩
    simp [QName.isNamespaceDeclaration, hqualifier, hq]
  | _ => exact absurd hmem List.not_mem_nil

theorem respects_withoutUnused : (withoutUnused F).Respects cleans F where
  plain := Forest.IsPlain.editFirst fun _ => rfl
  lacks q := Forest.forall_mem_editFirst fun e he hq =>
    he (e.qualifiers_keepAttrs_subset _ hq)
  binds q hq _ _ h := by
    by_cases hused : q ∈ qualifiersIn F
    · refine h.editFirst (NodeKind.upholds_keepAttrs fun a ha => ?_)
      simp [isUsed, ha, QName.declaring, hused]
    · -- What counts as unused is not used, so that nothing needs its declaration.
      refine Forest.Lacks.binds (Forest.forall_mem_editFirst (fun e he hmem => ?_)
        (lacks_of_not_mem_qualifiersIn hq hused))
      exact he (e.qualifiers_keepAttrs_subset _ hmem)

/-! ## Selections of the preset -/

variable {d : Document} {stage : Stage} {stages : List Stage} {qs : List Plugin}

theorem exists_respects_of_does {groups : List Group} {φ : Gist → Gist} (h : Does groups φ)
    (hd : d.Sound) (hr : (φ d.gist).payloads.Respects cleans d.payloads) :
    ∃ d', (applyGroups groups d).outcome = .ok d' ∧ d'.Sound ∧
      d'.payloads.Respects cleans d.payloads := by
  obtain ⟨d', ho, hd', hgist⟩ := h d hd
  have hpayloads : d'.payloads = (φ d.gist).payloads := congrArg Gist.payloads hgist
  exact ⟨d', ho, hd', hpayloads ▸ hr⟩

/-- What a plugin of the preset leaves of a document. -/
theorem exists_respects {p : Plugin} (hp : p ∈ presetPlugins) (h : Prepares p stage)
    (hc : p = removeEditorData → cleans) (hd : d.Sound) :
    ∃ d', (applyGroups [stage.alone] d).outcome = .ok d' ∧ d'.Sound ∧
      d'.payloads.Respects cleans d.payloads := by
  have htrims : ∀ s ∈ [stage], s.rewriter.Trims :=
    List.forall_mem_singleton.2 (h.trims (mem_plugins hp))
  have hroot : d.gist.root = .root := hd.shaped.kindOf_root
  rcases h.cases hp with ⟨-, hp⟩ | ⟨ht, hp⟩ | ⟨ht, hp⟩
  · simp only [List.mem_cons, List.not_mem_nil, or_false] at hp
    rcases hp with rfl | rfl | rfl
    · exact exists_respects_of_does (does_removeDoctype h) hd (.refl _)
    · exact exists_respects_of_does (does_removeXmlDeclaration h) hd (.refl _)
    · exact exists_respects_of_does (does_removeUnusedNamespaces h) hd respects_withoutUnused
  · obtain ⟨-, params, hprepare⟩ := h
    obtain ⟨edit, ⟨hbare, hknown⟩, hfollows⟩ := follows_upholding hp params _ hprepare
    have hdoes := does_parentsFirst (.cons (hfollows stage.name stage.traversal) .nil) htrims
    have hsettled : (d.payloads.settle (Edit.settle [edit]) [d.gist.root]).Respects cleans
        d.payloads := by
      rw [hroot]
      rcases hknown with hupholds | ⟨hp, rfl⟩
      · exact respects_settle hbare hupholds
      · exact respects_editorEdit (hd.shaped.fits_payloads hd.linked) (hc hp)
    rw [Stage.alone, ht]
    exact exists_respects_of_does hdoes hd hsettled
  · simp only [List.mem_cons, List.not_mem_nil, or_false] at hp
    rw [Stage.alone, ht]
    rcases hp with rfl | rfl
    · have hvisits := visits_emptied h.visit_removeEmptyContainers
      exact exists_respects_of_does (does_childrenFirst hvisits.turns htrims) hd respects_emptied
    · have hvisits := visits_collapsed h.visit_collapseGroups
      exact exists_respects_of_does (does_childrenFirst hvisits.turns htrims) hd respects_collapsed

/-- What plugins of the preset leave of a document, each in a walk of its own. -/
theorem exists_respects_all (hqs : qs.Sublist presetPlugins) (hs : List.Forall₂ Prepares qs stages)
    (hc : removeEditorData ∈ qs → cleans) (hd : d.Sound) :
    ∃ d', (applyGroups (stages.map Stage.alone) d).outcome = .ok d' ∧ d'.Sound ∧
      d'.payloads.Respects cleans d.payloads := by
  induction hs generalizing d with
  | nil => exact ⟨d, rfl, hd, .refl _⟩
  | @cons p stage ps stages hstage _ ih =>
    obtain ⟨d₁, ho₁, hd₁, hfirst⟩ := exists_respects (hqs.subset List.mem_cons_self) hstage
      (fun hp => hc (hp ▸ List.mem_cons_self)) hd
    obtain ⟨d₂, ho₂, hd₂, hlater⟩ := ih ((List.sublist_cons_self _ _).trans hqs)
      (fun hm => hc (List.mem_cons_of_mem _ hm)) hd₁
    refine ⟨d₂, ?_, hd₂, hlater.trans hfirst⟩
    rw [List.map_cons, ← List.singleton_append, outcome_applyGroups_append, ho₁]
    exact ho₂

end Builtin

/-! ## Configurations -/

/-- An entry of a name that counts is enabled. -/
def Config.Enables (c : Config) (name : String) : Prop :=
  ∃ entry ∈ c.effective, entry.name = name ∧ entry.enabled = true

theorem Config.enables_of_resolve {c : Config} {descriptors : List Descriptor} {p : Plugin}
    (h : c.resolve Builtin.registry = .ok descriptors)
    (hp : p ∈ (descriptors.filter (·.enabled)).map (·.plugin)) : c.Enables p.name := by
  obtain ⟨x, hx, rfl⟩ := List.mem_map.1 hp
  obtain ⟨hx, henabled⟩ := List.mem_filter.1 hx
  obtain ⟨entry, hm, hentry⟩ := exists_of_mem_mapM h hx
  obtain ⟨plugin, hplugin, rfl⟩ := Config.resolveEntry_eq_ok_iff.1 hentry
  exact ⟨entry, hm, (Registry.of_get hplugin).2.symm, henabled⟩

/-- Whichever plugins of the preset a configuration enables, a qualifier that is declared wherever
it is used stays so, if the document element does not belong to a drawing program; but where editor
data are removed, the qualifier `data-name` is left out. So if all qualifiers are declared, and this
one is not used there, all are declared afterwards. -/
theorem Pipeline.isQualified_of_apply_preset (c : Config) (descriptors : List Descriptor)
    (p : Pipeline) (s : String) (d : Document)
    (hnames : (c.effective.map (·.name)).Sublist presetNames)
    (hresolve : c.resolve Builtin.registry = .ok descriptors)
    (hp : Pipeline.ofDescriptors descriptors = .ok p) (hs : Markup.parse s = .ok d)
    (hplain : ∀ id ∈ d.documentElement?, ∀ e ∈ d.element? id, hasEditorQualifier e.name = false) :
    ∃ d', (p.apply d).outcome = .ok d' ∧
      (∀ q, q ≠ "xmlns" → (c.Enables "removeEditorsNSData" → q ≠ "data-name") →
        d.Binds q → d'.Binds q) ∧
      ((c.Enables "removeEditorsNSData" → d.Lacks "data-name") →
        d.IsQualified → d'.IsQualified) := by
  obtain ⟨stages, hstages, rfl⟩ := Pipeline.ofDescriptors_eq_ok_iff.1 hp
  have hselection : ((descriptors.filter (·.enabled)).map (·.plugin)).Sublist
      Builtin.presetPlugins :=
    (List.filter_sublist.map _).trans (Config.plugins_sublist hnames hresolve)
  have hprepares := Descriptor.forall₂_prepares (mapM_eq_ok_iff.1 hstages)
  have hd := Markup.sound_of_parse hs
  -- The groups make the same document as the plugins in walks of their own.
  obtain ⟨φ, hbatched, hsingle⟩ := Builtin.actAlike_selection hselection hprepares
  obtain ⟨d', ho, hd', hgist⟩ := hbatched d hd
  obtain ⟨d₁, ho₁, hd₁, hgist₁⟩ := hsingle d hd
  have hcleans : removeEditorData ∈ (descriptors.filter (·.enabled)).map (·.plugin) →
      c.Enables "removeEditorsNSData" := Config.enables_of_resolve hresolve
  obtain ⟨d₂, ho₂, -, hrespects⟩ :=
    Builtin.exists_respects_all hselection hprepares hcleans hd
  obtain rfl := Except.ok.inj (ho₁.symm.trans ho₂)
  have hpayloads : d₁.payloads = d'.payloads := congrArg Gist.payloads (hgist₁.trans hgist.symm)
  rw [hpayloads] at hrespects
  have hbinds : ∀ q, q ≠ "xmlns" → (c.Enables "removeEditorsNSData" → q ≠ "data-name") →
      d.Binds q → d'.Binds q := fun q hq hdata h =>
    hd'.binds_payloads_iff.1
      (hrespects.binds q hq hdata (hd.isPlain_payloads hplain) (hd.binds_payloads_iff.2 h))
  refine ⟨d', ho, hbinds, fun hlacks hqualified => ?_⟩
  rw [isQualified_iff] at hqualified ⊢
  intro q hxml hxmlns
  by_cases hdata : c.Enables "removeEditorsNSData" ∧ q = "data-name"
  · obtain ⟨hcleans, rfl⟩ := hdata
    have hpayloads := hrespects.lacks _ (hd.lacks_payloads_iff.2 (hlacks hcleans))
    exact (hd'.lacks_payloads_iff.1 hpayloads).binds
  · exact hbinds q hxmlns (fun hcleans hq => hdata ⟨hcleans, hq⟩) (hqualified q hxml hxmlns)

/-- An element that is qualified by an attribute of its group keeps its declaration on the document
element, and the qualifier of a drawing program goes with its declaration. -/
theorem Pipeline.isQualified_of_apply_preset_of_group : ∃ (c : Config)
    (descriptors : List Descriptor) (p : Pipeline) (d : Document),
    c.plugins.map (·.name) = ["removeComments"] ∧
    (c.effective.map (·.name)).Sublist presetNames ∧
    c.resolve Builtin.registry = .ok descriptors ∧
    Pipeline.ofDescriptors descriptors = .ok p ∧
    Markup.parse "<svg xmlns:a='u' xmlns:inkscape='v'><g a:x='1'><b inkscape:y='2'/></g></svg>" =
      .ok d ∧
    (∀ id ∈ d.documentElement?, ∀ e ∈ d.element? id, hasEditorQualifier e.name = false) ∧
    d.Lacks "data-name" ∧ d.IsQualified ∧
    ∃ d', (p.apply d).outcome = .ok d' ∧
      Markup.write {} d' = .ok "<svg xmlns:a=\"u\"><b a:x=\"1\"/></svg>" ∧ d'.IsQualified := by
  let c : Config := { plugins := [{ name := "removeComments", enabled := false }] }
  have hnames : (c.effective.map (·.name)).Sublist presetNames := by
    rw [Config.names_effective rfl (by decide)]
  have hpass : ((Engine.ofConfig c Builtin.registry).toOption.bind
      (·.optimizeOnce
        "<svg xmlns:a='u' xmlns:inkscape='v'><g a:x='1'><b inkscape:y='2'/></g></svg>"
        |>.outcome.toOption)) = some "<svg xmlns:a=\"u\"><b a:x=\"1\"/></svg>" := by
    decide +kernel
  obtain ⟨engine, hc, hone⟩ := Option.bind_eq_some_iff.1 hpass
  obtain ⟨descriptors, p, hresolve, hp, rfl⟩ :=
    Engine.ofConfig_eq_ok_iff.1 (Outcome.eq_ok_of_toOption hc)
  obtain ⟨d, hs, hplain, hlacks, hqualified⟩ : ∃ d,
      Markup.parse "<svg xmlns:a='u' xmlns:inkscape='v'><g a:x='1'><b inkscape:y='2'/></g></svg>" =
        .ok d ∧
      (∀ id ∈ d.documentElement?, ∀ e ∈ d.element? id, hasEditorQualifier e.name = false) ∧
      d.Lacks "data-name" ∧ d.IsQualified :=
    ⟨_, rfl, by decide +kernel, by decide +kernel, by decide +kernel⟩
  obtain ⟨d', ho, -, hd'⟩ :=
    Pipeline.isQualified_of_apply_preset c descriptors p _ d hnames hresolve hp hs hplain
  have hw := (Engine.outcome_optimizeOnce hs ho).symm.trans (Outcome.eq_ok_of_toOption hone)
  exact ⟨c, descriptors, p, d, rfl, hnames, hresolve, hp, hs, hplain, hlacks, hqualified, d', ho,
    Outcome.mapError_eq_ok_iff.1 hw, hd' (fun _ => hlacks) hqualified⟩

/-- The preset drops the declaration of `data-name` above an element that is qualified by it. -/
theorem Pipeline.apply_preset_drops_declaration : ∃ (descriptors : List Descriptor)
    (p : Pipeline) (d d' : Document), ({} : Config).resolve Builtin.registry = .ok descriptors ∧
    Pipeline.ofDescriptors descriptors = .ok p ∧
    Markup.parse "<svg xmlns:data-name=\"urn:x\"><data-name:a/></svg>" = .ok d ∧
    (∀ id ∈ d.documentElement?, ∀ e ∈ d.element? id, hasEditorQualifier e.name = false) ∧
    d.IsQualified ∧ (p.apply d).outcome = .ok d' ∧ ¬ d'.IsQualified := by
  obtain ⟨engine, hc⟩ : ∃ engine, Engine.ofConfig {} Builtin.registry = .ok engine := ⟨_, rfl⟩
  obtain ⟨descriptors, p, hresolve, hp, rfl⟩ := Engine.ofConfig_eq_ok_iff.1 hc
  obtain ⟨d, hs, hplain, hqualified, hpayloads⟩ : ∃ d,
      Markup.parse "<svg xmlns:data-name=\"urn:x\"><data-name:a/></svg>" = .ok d ∧
      (∀ id ∈ d.documentElement?, ∀ e ∈ d.element? id, hasEditorQualifier e.name = false) ∧
      d.IsQualified ∧ ¬ (presetForest d.payloads).Binds "data-name" :=
    ⟨_, rfl, by decide +kernel, by decide +kernel, by decide +kernel⟩
  obtain ⟨d', ho, hd', -, -, hpressed⟩ := apply_presetGroups (Markup.sound_of_parse hs)
  have hgroups := congrArg (·.pipeline) (engine_of_preset hc)
  refine ⟨descriptors, p, d, d', hresolve, hp, hs, hplain, hqualified, ?_, fun h => hpayloads ?_⟩
  · rw [show p = ⟨presetGroups⟩ from hgroups]
    exact ho
  · rw [← hpressed, hd'.binds_payloads_iff]
    exact isQualified_iff.1 h "data-name" (by decide) (by decide)

end SvgPress
