import SvgPress.Proofs.Builtin.Trimming
import SvgPress.Proofs.Keyed
import SvgPress.Proofs.Walk.Grouping

/-!
# Edits of the preset

The plugins of the preset that visit parents first are edits: what they make of a node is told by
its payload and the payloads above it. Some look above a node for the root or for `defs`, which no
edit of the preset changes, and one looks there for attributes, which the plugins after it neither
add nor take away. So each of them overlooks those that come later.
-/

namespace SvgPress

open Document

/-! ## Edits of elements -/

/-- The edit that does to elements what a function says, and leaves all other nodes. -/
def Edit.ofElement (f : List NodeKind → Element → Element × Visit) : Edit := fun above kind =>
  match kind with
  | .element e => (.element (f above e).1, (f above e).2)
  | kind => (kind, .keep)

/-- The names for which an element has an attribute. -/
def NodeKind.hasAttr (kind : NodeKind) (name : String) : Bool :=
  kind.element?.any (·.hasAttr name)

namespace Edit

variable {f : List NodeKind → Element → Element × Visit} {α : Type} {view : NodeKind → α}

theorem local_ofElement (f : Element → Element × Visit) : Local (ofElement fun _ => f) :=
  fun _ _ _ => rfl

theorem sees_ofElement (h : ∀ A B e, A.map view = B.map view → f A e = f B e) :
    Sees (ofElement f) view := by
  intro A B kind hview
  cases kind <;> simp only [ofElement, h A B _ hview]

theorem keeps_bare_ofElement (h : ∀ above e, (f above e).1.name = e.name) :
    Keeps (ofElement f) NodeKind.bare := by
  intro above kind
  cases kind with
  | element e => simp only [ofElement, NodeKind.bare, h]
  | _ => rfl

theorem keeps_hasAttr_ofElement (h : ∀ above e name, (f above e).1.hasAttr name = e.hasAttr name) :
    Keeps (ofElement f) NodeKind.hasAttr := by
  intro above kind
  funext name
  cases kind with
  | element e => exact h above e name
  | _ => rfl

end Edit

namespace Document

variable {d : Document} {id : NodeId}

/-! ## Directly under the root -/

/-- The document element is the element directly under the root. -/
theorem Sound.documentElement?_eq_some_iff (h : d.Sound) (he : d.isElement id = true) :
    d.documentElement? = some id ↔ d.parent? id = some .root := by
  rw [h.linked.parent_iff]
  refine ⟨fun hd => (mem_childElements_iff.1 (List.mem_of_mem_head? hd)).1, fun hm => ?_⟩
  by_contra hd
  exact not_mem_childElements h.shaped.one_element hd (mem_childElements_iff.2 ⟨hm, he⟩)

/-- A node stands directly under the root if the payload above it says so. -/
theorem Sound.head?_kindsAbove (h : d.Sound) (hp : (d.parent? id).isSome = true) :
    (d.kindsAbove id).head? = some .root ↔ d.parent? id = some .root := by
  obtain ⟨parent, hparent⟩ := Option.isSome_iff_exists.1 hp
  have hk := kind?_eq_some_kindOf (h.linked.parent_held hparent)
  rw [h.linked.kindsAbove_eq hparent, lineage, List.map_cons, List.head?_cons, ← hk,
    h.shaped.root_iff, hparent, Option.some.injEq]

theorem element?_kindOf (d : Document) (id : NodeId) : (d.kindOf id).element? = d.element? id := by
  rw [kindOf, element?]
  cases d.kind? id <;> rfl

theorem kindOf_of_element? {e : Element} (h : d.element? id = some e) :
    d.kindOf id = .element e := by
  rw [kindOf, element?_eq_some_iff.1 h]
  rfl

/-- What is looked for among the payloads above a node is looked for among its ancestors. -/
theorem any_kindsAbove (d : Document) (id : NodeId) (p : Element → Bool) :
    (d.kindsAbove id).any (fun kind => kind.element?.any p) =
      (d.ancestors id).any fun a => (d.element? a).any p := by
  rw [kindsAbove, List.any_map]
  exact congrArg _ (funext fun a => by rw [Function.comp_apply, element?_kindOf])

end Document

/-! ## Plugins that are edits -/

/-- Whatever its parameters are, the plugin follows an edit of the given kind. -/
def Plugin.Follows (p : Plugin) (E : Edit → Prop) : Prop :=
  ∀ params r, p.prepare params = .ok r → ∃ edit, E edit ∧
    ∀ name traversal, Stage.Follows Document.Sound ⟨name, traversal, r⟩ edit

/-- What is known of the edits of a plugin can be forgotten. -/
theorem Plugin.Follows.mono {p : Plugin} {E E' : Edit → Prop} (h : p.Follows E)
    (himp : ∀ edit, E edit → E' edit) : p.Follows E' := by
  intro params r hr
  obtain ⟨edit, hedit, hstage⟩ := h params r hr
  exact ⟨edit, himp edit hedit, hstage⟩

variable {d : Document} {id : NodeId} {f : List NodeKind → Element → Element × Visit}
  {visit : Document → NodeId → Report PluginError (Document × Visit)}

/-- A plugin follows an edit of elements if it does to each element that stands in the tree what the
edit says, and nothing to other nodes. -/
theorem follows_ofElement {r : Rewriter}
    (he : ∀ d id e, d.Sound → (d.parent? id).isSome = true → d.element? id = some e →
      (r.visit d id).outcome = .ok (d.setKind id (.element (f (d.kindsAbove id) e).1),
        (f (d.kindsAbove id) e).2))
    (ho : ∀ d id, d.element? id = none → (r.visit d id).outcome = .ok (d, .keep))
    (name : String) (traversal : Traversal) :
    Stage.Follows Document.Sound ⟨name, traversal, r⟩ (Edit.ofElement f) where
  visit d id kind hd hp hk := by
    have hother : d.element? id = none →
        (r.visit d id).outcome = .ok (d.setKind id kind, .keep) := by
      intro hnone
      rw [ho d id hnone, setKind_self hk]
    cases kind with
    | element e => exact he d id e hd hp (element?_eq_some_iff.2 hk)
    | _ => exact hother (by rw [element?, hk]; rfl)
  alike above kind := by cases kind <;> rfl

theorem follows_editing (f : Element → Element) (name : String) (traversal : Traversal) :
    Stage.Follows Document.Sound ⟨name, traversal, { visit := Plugin.editing f }⟩
      (Edit.ofElement fun _ e => (f e, .keep)) := by
  refine follows_ofElement (fun d id e _ _ he => ?_) (fun d id ho => ?_) name traversal
  · have hmodify : d.modifyElement id f = d.setKind id (.element (f e)) := by
      rw [modifyElement, he]
    exact congrArg (fun d' => Except.ok (d', Visit.keep)) hmodify
  · have hmodify : d.modifyElement id f = d := by rw [modifyElement, ho]
    exact congrArg (fun d' => Except.ok (d', Visit.keep)) hmodify

/-- A stage that changes the payloads of elements, and keeps every node. -/
theorem Stage.editsOnly_of_visit {stage : Stage} {g : Document → NodeId → Element → Element}
    (h : ∀ d id, stage.rewriter.visit d id = .ok (d.modifyElement id (g d id), .keep)) :
    stage.EditsOnly := by
  intro d id d' decision _ hid ho
  rw [h] at ho
  obtain ⟨rfl, -⟩ := Prod.mk.inj (Except.ok.inj ho)
  have hk := kind?_eq_some_kindOf hid
  rw [modifyElement]
  split
  · rename_i e he
    have hold := element?_eq_some_iff.1 he
    exact ⟨_, rfl, fun old h => by rw [← Option.some.inj (hold.symm.trans h)]; rfl⟩
  · exact ⟨_, (setKind_self hk).symm, fun old h => by rw [Option.some.inj (hk.symm.trans h)]⟩

/-- A plugin that only decides, and only about elements. -/
theorem follows_deciding {g : Document → NodeId → Visit} {f : List NodeKind → Element → Visit}
    (he : ∀ d id e, d.Sound → (d.parent? id).isSome = true → d.element? id = some e →
      g d id = f (d.kindsAbove id) e)
    (ho : ∀ d id, d.element? id = none → g d id = .keep) (name : String) (traversal : Traversal) :
    Stage.Follows Document.Sound ⟨name, traversal, { visit := Plugin.deciding g }⟩
      (Edit.ofElement fun above e => (e, f above e)) := by
  refine follows_ofElement (fun d id e hd hp hid => ?_) (fun d id hid => ?_) name traversal
  · rw [setKind_self (element?_eq_some_iff.1 hid), ← he d id e hd hp hid]
    rfl
  · rw [← ho d id hid]
    rfl

namespace Builtin

/-! ## What the plugins make of payloads -/

/-- Whether the payloads above a node are those above a node directly under the root. -/
def underRoot (above : List NodeKind) : Bool :=
  decide (above.head? = some .root)

/-- Whether an element above a node has the given local name. -/
def inside (above : List NodeKind) (localPart : String) : Bool :=
  above.any fun kind => kind.element?.any (·.isNamed localPart)

/-- Whether an element above a node has an attribute. -/
def setAbove (above : List NodeKind) (attributeName : String) : Bool :=
  above.any (·.hasAttr attributeName)

/-- The edit of `removeComments`. -/
def commentEdit : Edit := fun _ kind =>
  (kind, match kind with
    | .comment content => if content.toList.head? = some '!' then .keep else .remove
    | _ => .keep)

/-- The edit of `removeMetadata`. -/
def metadataEdit : Edit :=
  .ofElement fun above e => (e,
    if underRoot above then .keep
    else if ["metadata", "title", "desc"].any e.isNamed then .remove
    else .keep)

/-- The edit of `removeEditorData`. -/
def editorEdit : Edit :=
  .ofElement fun above e =>
    if hasEditorQualifier e.name && !underRoot above then (e, .remove)
    else (e.keepAttrs fun a => !isEditorAttribute a, .keep)

/-- The edit of `removeHiddenElements`. -/
def hiddenEdit : Edit :=
  .ofElement fun above e => (e,
    if underRoot above || inside above "defs" then .keep
    else if isHidden e then .remove
    else .keep)

/-- The element without its redundant attributes. -/
def withoutDefaults (above : List NodeKind) (e : Element) : Element :=
  let redundant := (e.attributes.filter fun a => a.name.qualifier.isNone &&
    isDefaultValue e.name.localPart a.name.localPart (Text.trimSpace a.value) &&
    !(inheritedProperties.contains a.name.localPart && setAbove above a.name.localPart)).map
      (·.name.localPart)
  e.keepAttrs fun a => a.name.qualifier.isSome || !redundant.contains a.name.localPart

/-- The edit of `removeDefaults`. -/
def defaultsEdit : Edit :=
  .ofElement fun above e => (withoutDefaults above e, .keep)

/-- A path with shorter data, if the data can be read; any other element stays as it is. -/
def shortenPath (precision : Nat) (e : Element) : Element :=
  if e.isNamed "path" then
    match e.attr? "d" with
    | none => e
    | some data =>
      match Path.parse data with
      | .ok segments => e.setAttr "d" (Path.print precision segments)
      | .error _ => e
  else e

/-- The names above a node tell whether it stands directly under the root. -/
theorem underRoot_congr {A B : List NodeKind} (h : A.map NodeKind.bare = B.map NodeKind.bare) :
    underRoot A = underRoot B := by
  have hhead : ∀ above : List NodeKind,
      above.head? = some .root ↔ (above.map NodeKind.bare).head? = some .root := by
    intro above
    cases above with
    | nil => simp
    | cons kind above => cases kind <;> simp [NodeKind.bare]
  rw [underRoot, underRoot, decide_eq_decide, hhead, h, ← hhead]

theorem inside_congr {A B : List NodeKind} (h : A.map NodeKind.bare = B.map NodeKind.bare)
    (localPart : String) : inside A localPart = inside B localPart := by
  have hbare : ∀ above : List NodeKind, inside above localPart =
      (above.map NodeKind.bare).any fun kind => kind.element?.any (·.isNamed localPart) := by
    intro above
    rw [inside, List.any_map]
    refine congrArg _ (funext fun kind => ?_)
    cases kind <;> rfl
  rw [hbare, h, ← hbare]

theorem setAbove_congr {A B : List NodeKind} (h : A.map NodeKind.hasAttr = B.map NodeKind.hasAttr)
    (attributeName : String) : setAbove A attributeName = setAbove B attributeName := by
  have hmap : ∀ above : List NodeKind, setAbove above attributeName =
      (above.map NodeKind.hasAttr).any (· attributeName) := by
    intro above
    rw [setAbove, List.any_map]
    rfl
  rw [hmap, h, ← hmap]

/-- An element stands directly under the root if it is the document element. -/
theorem underRoot_kindsAbove (hd : d.Sound) (hp : (d.parent? id).isSome = true)
    (he : d.isElement id = true) :
    underRoot (d.kindsAbove id) = decide (d.documentElement? = some id) := by
  rw [underRoot, decide_eq_decide, hd.head?_kindsAbove hp, hd.documentElement?_eq_some_iff he]

/-! ## The plugins follow their edits -/

theorem isElement_of_element? {e : Element} (he : d.element? id = some e) :
    d.isElement id = true := by
  rw [isElement, he]
  rfl

theorem follows_removeComments : removeComments.Follows (· = commentEdit) := by
  intro params r h
  obtain rfl := Except.ok.inj h
  refine ⟨_, rfl, fun name traversal => ⟨fun d id kind _ _ hk => ?_, fun _ _ => rfl⟩⟩
  have hdecision : decideComment d id = (commentEdit (d.kindsAbove id) kind).2 := by
    rw [decideComment, hk]
    cases kind <;> rfl
  rw [← hdecision]
  exact congrArg (fun d' => Except.ok (d', decideComment d id)) (setKind_self hk).symm

theorem follows_removeMetadata : removeMetadata.Follows (· = metadataEdit) := by
  intro params r h
  obtain rfl := Except.ok.inj h
  refine ⟨_, rfl, follows_deciding (fun d id e hd hp he => ?_) fun d id hnone => ?_⟩
  · rw [decideMetadata, underRoot_kindsAbove hd hp (isElement_of_element? he), he]
    simp
  · rw [decideMetadata, hnone]
    simp

theorem follows_removeEditorData : removeEditorData.Follows (· = editorEdit) := by
  intro params r h
  obtain rfl := Except.ok.inj h
  refine ⟨_, rfl, follows_ofElement (fun d id e hd hp he => ?_) fun d id hnone => ?_⟩
  · have hself : d.setKind id (.element e) = d := setKind_self (element?_eq_some_iff.1 he)
    have hroot : (d.documentElement? != some id) = !underRoot (d.kindsAbove id) := by
      rw [underRoot_kindsAbove hd hp (isElement_of_element? he), Bool.eq_iff_iff]
      simp
    simp only [visitEditorData, modifyElement, he, Option.any_some, hroot]
    split_ifs
    · rw [hself]
      rfl
    · rfl
  · simp only [visitEditorData, modifyElement, hnone]
    rfl

theorem follows_removeHiddenElements : removeHiddenElements.Follows (· = hiddenEdit) := by
  intro params r h
  obtain rfl := Except.ok.inj h
  refine ⟨_, rfl, follows_deciding (fun d id e hd hp he => ?_) fun d id hnone => ?_⟩
  · have hinside : inside (d.kindsAbove id) "defs" = (d.closestElement? id "defs").isSome := by
      rw [inside, any_kindsAbove, closestElement?, List.isSome_find?]
      rfl
    rw [decideHidden, underRoot_kindsAbove hd hp (isElement_of_element? he), hinside, he]
    simp
  · rw [decideHidden, hnone]
    simp

theorem follows_convertStyles :
    convertStyles.Follows (· = .ofElement fun _ e => (minifyElementStyle e, .keep)) := by
  intro params r h
  obtain rfl := Except.ok.inj h
  exact ⟨_, rfl, follows_editing _⟩

theorem follows_convertColors :
    convertColors.Follows (· = .ofElement fun _ e => (shortenElementColors e, .keep)) := by
  intro params r h
  obtain rfl := Except.ok.inj h
  exact ⟨_, rfl, follows_editing _⟩

theorem follows_sortAttributes :
    sortAttributes.Follows (· = .ofElement fun _ e => (sortElementAttributes e, .keep)) := by
  intro params r h
  obtain rfl := Except.ok.inj h
  exact ⟨_, rfl, follows_editing _⟩

theorem follows_removeDefaults : removeDefaults.Follows (· = defaultsEdit) := by
  intro params r h
  obtain rfl := Except.ok.inj h
  refine ⟨_, rfl, follows_ofElement (fun d id e _ _ he => ?_) fun d id hnone => ?_⟩
  · have habove : ∀ name, setAbove (d.kindsAbove id) name = ancestorSets d id name :=
      fun name => any_kindsAbove d id (·.hasAttr name)
    have hmodify : dropDefaults d id =
        d.setKind id (.element (withoutDefaults (d.kindsAbove id) e)) := by
      simp only [dropDefaults, modifyElement, he, withoutDefaults, habove]
      rfl
    exact congrArg (fun d' => Except.ok (d', Visit.keep)) hmodify
  · have hmodify : dropDefaults d id = d := by rw [dropDefaults, modifyElement, hnone]
    exact congrArg (fun d' => Except.ok (d', Visit.keep)) hmodify

/-- Shortening path data is an edit of the element, also when there is nothing to shorten or the
data cannot be read. -/
theorem follows_visitPath (precision : Nat) (name : String) (traversal : Traversal) :
    Stage.Follows Document.Sound ⟨name, traversal, { visit := visitPath precision }⟩
      (.ofElement fun _ e => (shortenPath precision e, .keep)) := by
  refine follows_ofElement (fun d id e _ _ he => ?_) (fun d id hnone => ?_) name traversal
  · have hself : d.setKind id (.element e) = d := setKind_self (element?_eq_some_iff.1 he)
    simp only [visitPath, he, shortenPath, Option.filter_some]
    split_ifs
    · cases hdata : e.attr? "d" with
      | none => simp only [hdata, hself, Report.ok]
      | some data =>
        cases hparse : Path.parse data with
        | ok segments => simp only [hdata, hparse, Report.ok]
        | error cause => simp only [hdata, hparse, hself]; rfl
    · simp only [hself, Report.ok]
  · simp only [visitPath, hnone]
    rfl

/-- Each precision makes an edit of its own. -/
theorem follows_convertPaths : convertPaths.Follows fun edit => ∃ precision,
    edit = .ofElement fun _ e => (shortenPath precision e, .keep) := by
  intro params r h
  obtain ⟨precision, rfl⟩ := of_prepare_convertPaths h
  exact ⟨_, ⟨precision, rfl⟩, follows_visitPath precision⟩

/-! ## What the edits see and keep -/

/-- The edit looks above a node for nothing but names, and keeps names. -/
def IsPlain (edit : Edit) : Prop :=
  edit.Sees NodeKind.bare ∧ edit.Keeps NodeKind.bare

/-- The edit looks above a node for nothing but attributes, and keeps names. -/
def IsInheriting (edit : Edit) : Prop :=
  edit.Sees NodeKind.hasAttr ∧ edit.Keeps NodeKind.bare

/-- The edit looks at nothing above a node, and keeps names and which attributes there are. -/
def IsRewording (edit : Edit) : Prop :=
  edit.Local ∧ edit.Keeps NodeKind.bare ∧ edit.Keeps NodeKind.hasAttr

theorem hasAttr_sortElementAttributes (e : Element) (name : String) :
    (sortElementAttributes e).hasAttr name = e.hasAttr name :=
  (List.mergeSort_perm e.attributes mayPrecede).any_eq

/-- Path data are replaced where they stand, if anything changes. -/
theorem shortenPath_eq (precision : Nat) (e : Element) : shortenPath precision e = e ∨
    ∃ data data', e.attr? "d" = some data ∧ shortenPath precision e = e.setAttr "d" data' := by
  rw [shortenPath]
  split_ifs
  · split
    · exact .inl rfl
    · rename_i data hdata
      split
      · exact .inr ⟨data, _, hdata, rfl⟩
      · exact .inl rfl
  · exact .inl rfl

theorem hasAttr_shortenPath (precision : Nat) (e : Element) (name : String) :
    (shortenPath precision e).hasAttr name = e.hasAttr name := by
  rcases shortenPath_eq precision e with he | ⟨data, data', hdata, he⟩ <;> rw [he]
  exact Element.hasAttr_setAttr (Element.hasAttr_of_attr? hdata) _ name

theorem name_shortenPath (precision : Nat) (e : Element) :
    (shortenPath precision e).name = e.name := by
  rcases shortenPath_eq precision e with he | ⟨data, data', hdata, he⟩ <;> rw [he]
  rfl

theorem plain_commentEdit : IsPlain commentEdit :=
  ⟨Edit.Local.sees (fun _ _ _ => rfl) _, fun _ _ => rfl⟩

theorem plain_metadataEdit : IsPlain metadataEdit :=
  ⟨Edit.sees_ofElement fun A B e h => by simp only [underRoot_congr h],
    Edit.keeps_bare_ofElement fun _ _ => rfl⟩

theorem plain_editorEdit : IsPlain editorEdit := by
  refine ⟨Edit.sees_ofElement fun A B e h => by simp only [underRoot_congr h],
    Edit.keeps_bare_ofElement fun above e => ?_⟩
  split_ifs <;> rfl

theorem plain_hiddenEdit : IsPlain hiddenEdit :=
  ⟨Edit.sees_ofElement fun A B e h => by simp only [underRoot_congr h, inside_congr h],
    Edit.keeps_bare_ofElement fun _ _ => rfl⟩

/-- An edit that looks at the element alone is plain if it keeps names. -/
theorem plain_of_name {f : Element → Element} (h : ∀ e, (f e).name = e.name) :
    IsPlain (.ofElement fun _ e => (f e, .keep)) :=
  ⟨(Edit.local_ofElement _).sees _, Edit.keeps_bare_ofElement fun _ => h⟩

theorem inheriting_defaultsEdit : IsInheriting defaultsEdit :=
  ⟨Edit.sees_ofElement fun A B e h => by simp only [withoutDefaults, setAbove_congr h],
    Edit.keeps_bare_ofElement fun _ _ => rfl⟩

theorem rewording_of_name {f : Element → Element} (h : ∀ e, (f e).name = e.name)
    (ha : ∀ e name, (f e).hasAttr name = e.hasAttr name) :
    IsRewording (.ofElement fun _ e => (f e, .keep)) :=
  ⟨Edit.local_ofElement _, Edit.keeps_bare_ofElement fun _ => h,
    Edit.keeps_hasAttr_ofElement fun _ => ha⟩

/-- The plugins of the preset that visit parents first, in order, each with what is known of its
edits. -/
def itemPlugins : List (Plugin × (Edit → Prop)) :=
  [(removeComments, IsPlain), (removeMetadata, IsPlain), (removeEditorData, IsPlain),
    (removeHiddenElements, IsPlain), (convertStyles, IsPlain), (convertColors, IsPlain),
    (removeDefaults, IsInheriting), (convertPaths, IsRewording), (sortAttributes, IsRewording)]

/-- Each plugin follows edits of its kind. -/
theorem follows_itemPlugins : ∀ x ∈ itemPlugins, x.1.Follows x.2 := by
  intro x hx
  simp only [itemPlugins, List.mem_cons, List.not_mem_nil, or_false] at hx
  rcases hx with rfl | rfl | rfl | rfl | rfl | rfl | rfl | rfl | rfl
  · exact follows_removeComments.mono fun _ h => h ▸ plain_commentEdit
  · exact follows_removeMetadata.mono fun _ h => h ▸ plain_metadataEdit
  · exact follows_removeEditorData.mono fun _ h => h ▸ plain_editorEdit
  · exact follows_removeHiddenElements.mono fun _ h => h ▸ plain_hiddenEdit
  · exact follows_convertStyles.mono fun _ h => h ▸ plain_of_name name_minifyElementStyle
  · exact follows_convertColors.mono fun _ h => h ▸ plain_of_name name_shortenElementColors
  · exact follows_removeDefaults.mono fun _ h => h ▸ inheriting_defaultsEdit
  · refine follows_convertPaths.mono fun _ h => ?_
    obtain ⟨precision, rfl⟩ := h
    exact rewording_of_name (name_shortenPath precision) (hasAttr_shortenPath precision)
  · exact follows_sortAttributes.mono fun _ h =>
      h ▸ rewording_of_name (fun _ => rfl) hasAttr_sortElementAttributes

/-- Each of these plugins overlooks what those after it do. -/
theorem overlooks_itemPlugins :
    itemPlugins.Pairwise fun x y => ∀ f g, x.2 f → y.2 g → f.Overlooks g := by
  have hplain : ∀ {f g : Edit}, IsPlain f → g.Keeps NodeKind.bare → f.Overlooks g :=
    fun hf hg => hf.1.overlooks hg
  have h1 : ∀ f g, IsPlain f → IsPlain g → f.Overlooks g := fun f g hf hg => hplain hf hg.2
  have h2 : ∀ f g, IsPlain f → IsInheriting g → f.Overlooks g := fun f g hf hg => hplain hf hg.2
  have h3 : ∀ f g, IsPlain f → IsRewording g → f.Overlooks g := fun f g hf hg => hplain hf hg.2.1
  have h4 : ∀ f g, IsInheriting f → IsRewording g → f.Overlooks g :=
    fun f g hf hg => hf.1.overlooks hg.2.2
  have h5 : ∀ f g, IsRewording f → IsRewording g → f.Overlooks g :=
    fun f g hf _ => hf.1.overlooks g
  simp only [itemPlugins, List.pairwise_cons, List.mem_cons, List.not_mem_nil, or_false,
    forall_eq_or_imp, forall_eq, List.Pairwise.nil, IsEmpty.forall_iff, implies_true]
  tauto

end Builtin

end SvgPress
