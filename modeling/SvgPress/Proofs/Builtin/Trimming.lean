import SvgPress.Builtin
import SvgPress.Proofs.Walk.Trimming

/-!
# The plugins of the library trim

Each plugin of the library deletes nodes, unwraps groups or edits attributes, whatever its
parameters are. None of them asks for the removal of the document element, and the only one that
unwraps elements does so where that is possible.
-/

namespace SvgPress

open Document

/-- Whatever its parameters are, the plugin trims documents. -/
def Plugin.Trims (p : Plugin) : Prop :=
  ∀ params r, p.prepare params = .ok r → r.Trims

variable {d : Document} {id : NodeId}

theorem element?_eq_some_iff {e : Element} :
    d.element? id = some e ↔ d.kind? id = some (.element e) := by
  rw [element?]
  cases d.kind? id with
  | none => simp
  | some kind => cases kind <;> simp [NodeKind.element?]

/-- Replacing an element by one of its name trims. -/
theorem trims_setElement {e e' : Element} (he : d.element? id = some e) (hn : e'.name = e.name) :
    d.Trims (d.setKind id (.element e')) := by
  refine .single (.edit id _ fun old hold => ?_)
  rw [element?_eq_some_iff, hold, Option.some.injEq] at he
  subst he
  rw [NodeKind.bare, NodeKind.bare, hn]

/-- A change of an element that keeps its name. -/
theorem trims_modifyElement (d : Document) (id : NodeId) {f : Element → Element}
    (hf : ∀ e, (f e).name = e.name) : d.Trims (d.modifyElement id f) := by
  rw [modifyElement]
  split
  · rename_i e he
    exact trims_setElement he (hf e)
  · exact .refl

theorem not_mem_childElements (hone : (d.childElements .root).length ≤ 1)
    (hd : d.documentElement? ≠ some id) : id ∉ d.childElements .root := by
  intro hm
  rw [documentElement?] at hd
  cases hc : d.childElements .root with
  | nil => simp [hc] at hm
  | cons first rest =>
    rw [hc] at hm hd hone
    obtain rfl := List.length_eq_zero_iff.1 (Nat.le_zero.1 (Nat.le_of_succ_le_succ hone))
    obtain rfl := List.mem_singleton.1 hm
    exact hd rfl

/-! ## Shapes of plugins -/

namespace Rewriter

/-- A plugin whose visits never fail. -/
theorem trims_of_visit {visit : Document → NodeId → Report PluginError (Document × Visit)}
    (hv : ∀ d id, ∃ d' decision, (visit d id).outcome = .ok (d', decision) ∧ d.Trims d' ∧
      (decision = .remove → d.documentElement? ≠ some id ∨ d.isElement id = false)) :
    Trims { visit } where
  visits d id _ _ := by
    obtain ⟨d', decision, ho, -⟩ := hv d id
    exact ⟨_, ho⟩
  trims d id d' decision _ ho := by
    obtain ⟨d₁, decision₁, ho₁, htrims, -⟩ := hv d id
    obtain ⟨rfl, -⟩ := Prod.mk.inj (Except.ok.inj (ho₁.symm.trans ho))
    exact htrims
  spares d id d' _ hone ho := by
    obtain ⟨d₁, decision₁, ho₁, -, hspares⟩ := hv d id
    obtain ⟨-, rfl⟩ := Prod.mk.inj (Except.ok.inj (ho₁.symm.trans ho))
    rcases hspares rfl with hd | hd
    · exact not_mem_childElements hone hd
    · intro hm
      rw [(mem_childElements_iff.1 hm).2] at hd
      exact absurd hd (by simp)
  rewrites d hl := ⟨d, rfl, .refl hl⟩

/-- Edits that keep names trim. -/
theorem trims_editing {f : Element → Element} (hf : ∀ e, (f e).name = e.name) :
    Trims { visit := Plugin.editing f } :=
  trims_of_visit fun d id =>
    ⟨_, .keep, rfl, trims_modifyElement d id hf, fun h => absurd h (by simp)⟩

/-- A plugin that only decides trims if it leaves the document element alone. -/
theorem trims_deciding {f : Document → NodeId → Visit}
    (hf : ∀ d id, f d id = .remove → d.documentElement? ≠ some id ∨ d.isElement id = false) :
    Trims { visit := Plugin.deciding f } :=
  trims_of_visit fun d id => ⟨d, f d id, rfl, .refl, hf d id⟩

theorem trims_rewriting {f : Document → Document} (hf : ∀ d, d.Linked → Trimmed d (f d)) :
    Trims { rewrite := fun d => .ok (f d) } where
  visits d id _ _ := ⟨(d, .keep), rfl⟩
  trims d id d' decision _ ho := by
    obtain ⟨rfl, -⟩ := Prod.mk.inj (Except.ok.inj ho)
    exact .refl
  spares d id d' _ _ ho := by
    obtain ⟨-, hdecision⟩ := Prod.mk.inj (Except.ok.inj ho)
    exact absurd hdecision (by simp)
  rewrites d hl := ⟨f d, rfl, hf d hl⟩

end Rewriter

namespace Builtin

open Rewriter

/-! ## What precedes the tree -/

theorem trims_removeDoctype : removeDoctype.Trims := by
  intro params r h
  obtain rfl := Except.ok.inj h
  exact trims_rewriting fun d hl => .of_links hl rfl (fun _ => rfl) (fun _ => rfl) fun _ => rfl

theorem trims_removeXmlDeclaration : removeXmlDeclaration.Trims := by
  intro params r h
  obtain rfl := Except.ok.inj h
  exact trims_rewriting fun d hl => .of_links hl rfl (fun _ => rfl) (fun _ => rfl) fun _ => rfl

/-! ## Removal -/

theorem trims_removeComments : removeComments.Trims := by
  intro params r h
  obtain rfl := Except.ok.inj h
  refine trims_deciding fun d id hremove => .inr ?_
  rw [decideComment] at hremove
  split at hremove
  · rename_i content hk
    rw [isElement, element?, hk]
    rfl
  · exact absurd hremove (by simp)

theorem trims_removeMetadata : removeMetadata.Trims := by
  intro params r h
  obtain rfl := Except.ok.inj h
  refine trims_deciding fun d id hremove => .inl fun hd => ?_
  rw [decideMetadata, if_pos hd] at hremove
  exact absurd hremove (by simp)

theorem trims_removeHiddenElements : removeHiddenElements.Trims := by
  intro params r h
  obtain rfl := Except.ok.inj h
  refine trims_deciding fun d id hremove => .inl fun hd => ?_
  rw [decideHidden, if_pos (by simp [hd])] at hremove
  exact absurd hremove (by simp)

theorem trims_removeEmptyContainers : removeEmptyContainers.Trims := by
  intro params r h
  obtain rfl := Except.ok.inj h
  refine trims_deciding fun d id hremove => .inl fun hd => ?_
  rw [decideEmptyContainer, if_pos hd] at hremove
  exact absurd hremove (by simp)

theorem trims_removeEditorData : removeEditorData.Trims := by
  intro params r h
  obtain rfl := Except.ok.inj h
  refine trims_of_visit fun d id => ?_
  rw [visitEditorData]
  split_ifs with hremove
  · simp only [Bool.and_eq_true, bne_iff_ne] at hremove
    exact ⟨d, .remove, rfl, .refl, fun _ => .inl hremove.2⟩
  · exact ⟨_, .keep, rfl, trims_modifyElement d id fun _ => rfl, fun h => absurd h (by simp)⟩

/-! ## Attributes -/

theorem name_minifyElementStyle (e : Element) : (minifyElementStyle e).name = e.name := by
  rw [minifyElementStyle]
  split
  · rfl
  · simp only
    split_ifs <;> rfl

theorem name_shortenElementColors (e : Element) : (shortenElementColors e).name = e.name := by
  simp only [shortenElementColors]
  split <;> rfl

theorem name_addMissing (entries : Toml.Table) (e : Element) :
    (addMissing entries e).name = e.name := by
  rw [addMissing]
  induction entries generalizing e with
  | nil => rfl
  | cons entry entries ih =>
    rw [List.foldl_cons, ih]
    simp only
    split_ifs <;> rfl

theorem trims_convertStyles : convertStyles.Trims := by
  intro params r h
  obtain rfl := Except.ok.inj h
  exact trims_editing name_minifyElementStyle

theorem trims_convertColors : convertColors.Trims := by
  intro params r h
  obtain rfl := Except.ok.inj h
  exact trims_editing name_shortenElementColors

theorem trims_sortAttributes : sortAttributes.Trims := by
  intro params r h
  obtain rfl := Except.ok.inj h
  exact trims_editing fun _ => rfl

theorem trims_removeDefaults : removeDefaults.Trims := by
  intro params r h
  obtain rfl := Except.ok.inj h
  exact trims_of_visit fun d id =>
    ⟨_, .keep, rfl, trims_modifyElement d id fun _ => rfl, fun h => absurd h (by simp)⟩

/-! ## Plugins that look at their parameters -/

section Prepared

variable {params : Params} {r : Rewriter}

/-- The plugin does nothing without a pattern, and drops matching attributes with one. -/
theorem of_prepare_removeAttributes (h : removeAttributes.prepare params = .ok r) :
    r = {} ∨ ∃ p, r = { visit := Plugin.editing (dropMatching p) } := by
  simp only [removeAttributes] at h
  split at h
  · exact absurd h (by simp)
  · exact .inl (Except.ok.inj h).symm
  · split at h
    · exact .inr ⟨_, (Except.ok.inj h).symm⟩
    · exact absurd h (by simp)

/-- The plugin adds the attributes of a table to the outer element, or none without a table. -/
theorem of_prepare_addAttributes (h : addAttributes.prepare params = .ok r) :
    ∃ entries, params.table? "attributes" = .ok entries ∧
      r = { visit := visitOuterElement (entries.getD []) } := by
  simp only [addAttributes] at h
  split at h
  · exact absurd h (by simp)
  · rename_i entries hentries
    exact ⟨entries, hentries, (Except.ok.inj h).symm⟩

theorem of_prepare_convertPaths (h : convertPaths.prepare params = .ok r) :
    ∃ precision, r = { visit := visitPath precision } := by
  simp only [convertPaths] at h
  split at h
  · exact ⟨_, (Except.ok.inj h).symm⟩
  · exact absurd h (by simp)

end Prepared

/-- A visit that converts paths changes at most the data that a path has. -/
theorem exists_visitPath (precision : Nat) (d : Document) (id : NodeId) :
    ∃ d', (visitPath precision d id).outcome = .ok (d', .keep) ∧
      (d' = d ∨ ∃ e data shortened, d.element? id = some e ∧ e.attr? "d" = some data ∧
        d' = d.setKind id (.element (e.setAttr "d" shortened))) := by
  rw [visitPath]
  split
  · exact ⟨d, rfl, .inl rfl⟩
  · rename_i e he
    split
    · exact ⟨d, rfl, .inl rfl⟩
    · rename_i data hdata
      split
      · have helement := (Option.filter_eq_some_iff.1 he).1
        exact ⟨_, rfl, .inr ⟨e, data, _, helement, hdata, rfl⟩⟩
      · exact ⟨d, rfl, .inl rfl⟩

theorem trims_removeAttributes : removeAttributes.Trims := by
  intro params r h
  rcases of_prepare_removeAttributes h with rfl | ⟨p, rfl⟩
  · exact trims_deciding (f := fun _ _ => .keep) fun d id hremove => absurd hremove (by simp)
  · exact trims_editing fun _ => rfl

theorem trims_addAttributes : addAttributes.Trims := by
  intro params r h
  obtain ⟨entries, -, rfl⟩ := of_prepare_addAttributes h
  refine trims_of_visit fun d id => ?_
  rw [visitOuterElement]
  split_ifs
  · exact ⟨_, .keep, rfl, trims_modifyElement d id (name_addMissing _),
      fun h => absurd h (by simp)⟩
  · exact ⟨d, .keep, rfl, .refl, fun h => absurd h (by simp)⟩

theorem trims_convertPaths : convertPaths.Trims := by
  intro params r h
  obtain ⟨precision, rfl⟩ := of_prepare_convertPaths h
  refine trims_of_visit fun d id => ?_
  obtain ⟨d', ho, hd'⟩ := exists_visitPath precision d id
  refine ⟨d', .keep, ho, ?_, fun h => absurd h (by simp)⟩
  rcases hd' with rfl | ⟨e, -, shortened, helement, -, rfl⟩
  · exact .refl
  · exact trims_setElement helement rfl

/-! ## Namespaces -/

theorem trims_removeUnusedNamespaces : removeUnusedNamespaces.Trims := by
  intro params r h
  obtain rfl := Except.ok.inj h
  refine trims_rewriting fun d hl => ?_
  rw [dropUnusedDeclarations]
  split
  · exact .refl hl
  · refine Trims.trimmed ?_ hl
    exact trims_modifyElement d _ fun _ => rfl

/-! ## Groups -/

/-- Handing down the attributes of a group changes the payloads of the group and of its only child,
if it changes anything. -/
theorem handDown_eq (d : Document) (group : NodeId) : handDown d group = d ∨
    ∃ child g c, d.children group = [child] ∧ d.element? group = some g ∧
      d.element? child = some c ∧ canHandDown g c = true ∧
        handDown d group = (d.setKind group (.element { g with attributes := [] })).setKind child
          (.element { c with attributes := c.attributes ++ g.attributes }) := by
  rw [handDown]
  split
  · rename_i child hchildren
    split
    · rename_i g c hg hc
      split_ifs with hcan
      · exact .inr ⟨child, g, c, hchildren, hg, hc, hcan, rfl⟩
      · exact .inl rfl
    · exact .inl rfl
  · exact .inl rfl

/-- Handing attributes down edits two elements, whose names stay. -/
theorem trims_handDown (hl : d.Linked) (group : NodeId) : d.Trims (handDown d group) := by
  rcases handDown_eq d group with he | ⟨child, g, c, hchildren, hg, hc, -, he⟩
  · rw [he]
    exact .refl
  · have hne : child ≠ group := by
      rintro rfl
      exact hl.not_mem_own_children child (by rw [hchildren]; exact List.mem_cons_self)
    have hfirst : d.Trims (d.setKind group (.element { g with attributes := [] })) :=
      trims_setElement hg rfl
    have hchild : (d.setKind group (.element { g with attributes := [] })).element? child =
        some c := by
      rw [element?, kind?_setKind, if_neg hne]
      exact hc
    rw [he]
    exact hfirst.trans (trims_setElement hchild rfl)

@[simp] theorem parent?_handDown (d : Document) (group x : NodeId) :
    (handDown d group).parent? x = d.parent? x := by
  rcases handDown_eq d group with he | ⟨child, g, c, -, -, -, -, he⟩ <;> simp [he]

theorem visitGroup_of_other (h : ¬ (d.isElementNamed id "g" = true ∧ d.parent? id ≠ some .root)) :
    visitGroup d id = .ok (d, .keep) := by
  have hother : (!d.isElementNamed id "g" || decide (d.parent? id = some .root)) = true := by
    simpa [Classical.or_iff_not_imp_left] using h
  exact if_pos hother

/-- A group hands down what it can, and goes if it has no attributes left. -/
theorem visitGroup_of_group (hg : d.isElementNamed id "g" = true) (hr : d.parent? id ≠ some .root) :
    visitGroup d id =
      if ((handDown d id).element? id).any (·.attributes.isEmpty) then
        match (handDown d id).unwrap id with
        | .ok d' => .ok (d', .keep)
        | .error cause => .error (.ofError (.tree cause))
      else .ok (handDown d id, .keep) := by
  have hnot : ¬ (!d.isElementNamed id "g" || decide (d.parent? id = some .root)) = true := by
    simp [hg, hr]
  exact if_neg hnot

/-- A visit keeps the node. It hands down the attributes of a group that does not stand directly
under the root, and may take the group away after that. -/
theorem visitGroup_eq_ok {d' : Document} {decision : Visit}
    (h : (visitGroup d id).outcome = .ok (d', decision)) : decision = .keep ∧ (d' = d ∨
      d.isElementNamed id "g" = true ∧ d.parent? id ≠ some .root ∧
        (d' = handDown d id ∨ (handDown d id).unwrap id = .ok d')) := by
  by_cases hg : d.isElementNamed id "g" = true ∧ d.parent? id ≠ some .root
  · rw [visitGroup_of_group hg.1 hg.2] at h
    split_ifs at h
    · cases hu : (handDown d id).unwrap id with
      | error cause =>
        rw [hu] at h
        exact absurd h (by simp [Report.error])
      | ok d₁ =>
        rw [hu] at h
        obtain ⟨rfl, rfl⟩ := Prod.mk.inj (Except.ok.inj h)
        exact ⟨rfl, .inr ⟨hg.1, hg.2, .inr rfl⟩⟩
    · obtain ⟨rfl, rfl⟩ := Prod.mk.inj (Except.ok.inj h)
      exact ⟨rfl, .inr ⟨hg.1, hg.2, .inl rfl⟩⟩
  · rw [visitGroup_of_other hg] at h
    obtain ⟨rfl, rfl⟩ := Prod.mk.inj (Except.ok.inj h)
    exact ⟨rfl, .inl rfl⟩

/-- A group that does not stand directly under the root can be unwrapped. -/
theorem exists_unwrap (hp : (d.parent? id).isSome = true) (hr : d.parent? id ≠ some .root)
    (he : d.isElement id = true) : ∃ d', d.unwrap id = .ok d' := by
  obtain ⟨parent, hparent⟩ := Option.isSome_iff_exists.1 hp
  refine ⟨_, unwrap_eq_ok_iff.2 ⟨parent, hparent, he, fun hroot => ?_, rfl⟩⟩
  exact absurd (hroot ▸ hparent) hr

theorem isElement_of_any {p : Element → Bool} (h : (d.element? id).any p = true) :
    d.isElement id = true := by
  rw [Option.any_eq_true_iff_get] at h
  exact h.1

/-- A group that goes leaves its children in its place. -/
theorem trims_collapseGroups : collapseGroups.Trims := by
  intro params r h
  obtain rfl := Except.ok.inj h
  refine ⟨fun d id hl hp => ?_, fun d id d' decision hl ho => ?_, fun d id d' hl _ ho => ?_,
    fun d hl => ⟨d, rfl, .refl hl⟩⟩
  · show ∃ visited, (visitGroup d id).outcome = .ok visited
    by_cases hg : d.isElementNamed id "g" = true ∧ d.parent? id ≠ some .root
    · rw [visitGroup_of_group hg.1 hg.2]
      split_ifs with he
      · obtain ⟨d', hd'⟩ : ∃ d', (handDown d id).unwrap id = .ok d' :=
          exists_unwrap (by simpa using hp) (by simpa using hg.2) (isElement_of_any he)
        exact ⟨(d', .keep), by rw [hd']; rfl⟩
      · exact ⟨_, rfl⟩
    · exact ⟨_, by rw [visitGroup_of_other hg]; rfl⟩
  · have hdown := trims_handDown hl id
    obtain ⟨-, rfl | ⟨hg, hr, rfl | hu⟩⟩ := visitGroup_eq_ok ho
    · exact .refl
    · exact hdown
    · refine hdown.tail (.unwrap ?_ (by simpa using hr) hu)
      rw [isElementNamed_of_bare ((hdown.trimmed hl).bare id)]
      exact hg
  · -- A group is never removed.
    obtain ⟨hkeep, -⟩ := visitGroup_eq_ok ho
    exact absurd hkeep (by simp)

/-- All plugins of the library trim documents. -/
theorem trims_of_mem_plugins {p : Plugin} (h : p ∈ plugins) : p.Trims := by
  simp only [plugins, List.mem_cons, List.not_mem_nil, or_false] at h
  rcases h with rfl | rfl | rfl | rfl | rfl | rfl | rfl | rfl | rfl | rfl | rfl | rfl | rfl | rfl |
    rfl | rfl
  · exact trims_removeDoctype
  · exact trims_removeXmlDeclaration
  · exact trims_removeComments
  · exact trims_removeMetadata
  · exact trims_removeEditorData
  · exact trims_removeHiddenElements
  · exact trims_convertStyles
  · exact trims_convertColors
  · exact trims_removeDefaults
  · exact trims_convertPaths
  · exact trims_removeEmptyContainers
  · exact trims_collapseGroups
  · exact trims_removeUnusedNamespaces
  · exact trims_sortAttributes
  · exact trims_removeAttributes
  · exact trims_addAttributes

end Builtin

end SvgPress
