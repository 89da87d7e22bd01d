import SvgPress.Proofs.Builtin.Batching
import SvgPress.Proofs.Builtin.Passes

/-!
# What the preset makes of a document

The preset drops what precedes the tree of a document, settles its payloads from the top down, tidies
containers and groups from below, drops the unused namespace declarations of the document element
and orders the attributes. All of this is a function of what the document says.
-/

namespace SvgPress

open Document

namespace Builtin

/-- The edits of the plugins that visit parents first, up to the one that shortens paths. -/
def frontEdits : List Edit :=
  [commentEdit, metadataEdit, editorEdit, hiddenEdit,
    .ofElement fun _ e => (minifyElementStyle e, .keep),
    .ofElement fun _ e => (shortenElementColors e, .keep), defaultsEdit,
    .ofElement fun _ e => (shortenPath defaultPrecision e, .keep)]

/-- The edit of the plugin that orders attributes. -/
def sortEdit : Edit :=
  .ofElement fun _ e => (sortElementAttributes e, .keep)

/-- The forest without the namespace declarations of its first element that nothing uses. -/
def withoutUnused (F : Forest NodeKind) : Forest NodeKind :=
  F.editFirst (·.keepAttrs (isUsed (qualifiersIn F)))

/-- What the preset makes of the trees below the root. -/
def presetForest (F : Forest NodeKind) : Forest NodeKind :=
  (withoutUnused ((F.settle (Edit.settle frontEdits) [.root]).rebuild tidied true)).settle
    (Edit.settle [sortEdit]) [.root]

/-- A plugin without parameters, prepared. -/
def stageOf (p : Plugin) (rewriter : Rewriter) : Stage :=
  ⟨p.name, rewriter.traversal.getD p.traversal, rewriter⟩

/-- The plugins of the preset that visit parents first, up to the one that shortens paths. -/
def frontStages : List Stage :=
  [stageOf removeComments { visit := Plugin.deciding decideComment },
    stageOf removeMetadata { visit := Plugin.deciding decideMetadata },
    stageOf removeEditorData { visit := visitEditorData },
    stageOf removeHiddenElements { visit := Plugin.deciding decideHidden },
    stageOf convertStyles { visit := Plugin.editing minifyElementStyle },
    stageOf convertColors { visit := Plugin.editing shortenElementColors },
    stageOf removeDefaults { visit := fun d id => .ok (dropDefaults d id, .keep) },
    stageOf convertPaths { visit := visitPath defaultPrecision }]

/-- The plugins of the preset that visit children first. -/
def tidyStages : List Stage :=
  [stageOf removeEmptyContainers { visit := Plugin.deciding decideEmptyContainer },
    stageOf collapseGroups { visit := visitGroup }]

/-- The plugin of the preset that orders attributes. -/
def sortStage : Stage :=
  stageOf sortAttributes { visit := Plugin.editing sortElementAttributes }

/-- The groups that the plugins of the preset form. -/
def presetGroups : List Group :=
  [⟨.full, [stageOf removeDoctype { rewrite := fun d => .ok { d with doctype := none } }]⟩,
    ⟨.full, [stageOf removeXmlDeclaration { rewrite := fun d => .ok { d with declaration := none } }]⟩,
    ⟨.perItem, frontStages⟩, ⟨.perItemReverse, tidyStages⟩,
    ⟨.full, [stageOf removeUnusedNamespaces { rewrite := fun d => .ok (dropUnusedDeclarations d) }]⟩,
    ⟨.perItem, [sortStage]⟩]

/-- The configuration without entries runs the groups of the preset. -/
theorem engine_of_preset {multipass : Bool} {engine : Engine}
    (h : Engine.ofConfig { multipass } registry = .ok engine) :
    engine = ⟨⟨presetGroups⟩, {}, passBudget multipass⟩ :=
  (Except.ok.inj h).symm

theorem prepares_stageOf {p : Plugin} {rewriter : Rewriter}
    (h : p.prepare ⟨[]⟩ = .ok rewriter) : Prepares p (stageOf p rewriter) :=
  ⟨rfl, ⟨[]⟩, h⟩

/-- The stage of a plugin follows the one edit that the plugin follows. -/
theorem follows_stageOf {p : Plugin} {rewriter : Rewriter} {edit : Edit}
    (hf : p.Follows (· = edit)) (h : p.prepare ⟨[]⟩ = .ok rewriter) :
    Stage.Follows Document.Sound (stageOf p rewriter) edit := by
  obtain ⟨_, rfl, hfollows⟩ := hf ⟨[]⟩ rewriter h
  exact hfollows _ _

theorem trims_presetGroups : ∀ group ∈ presetGroups, ∀ stage ∈ group.stages,
    stage.rewriter.Trims :=
  @Engine.trims_of_ofConfig {} ⟨⟨presetGroups⟩, {}, 1⟩ rfl

/-- The stages that visit parents first follow their edits. -/
theorem follows_frontStages :
    List.Forall₂ (Stage.Follows Document.Sound) frontStages frontEdits :=
  .cons (follows_stageOf follows_removeComments rfl) <|
  .cons (follows_stageOf follows_removeMetadata rfl) <|
  .cons (follows_stageOf follows_removeEditorData rfl) <|
  .cons (follows_stageOf follows_removeHiddenElements rfl) <|
  .cons (follows_stageOf follows_convertStyles rfl) <|
  .cons (follows_stageOf follows_convertColors rfl) <|
  .cons (follows_stageOf follows_removeDefaults rfl) <|
  .cons (follows_visitPath defaultPrecision "convertPathData" .perItem) .nil

theorem visits_tidyStages : Visits tidyStages tidied :=
  visits_tidied (prepares_stageOf (p := removeEmptyContainers) rfl).visit_removeEmptyContainers
    (prepares_stageOf (p := collapseGroups) rfl).visit_collapseGroups

/-- The groups of the preset, one after the other. -/
theorem does_presetGroups : Does presetGroups fun gist =>
    ⟨none, none, gist.root, (withoutUnused ((gist.payloads.settle (Edit.settle frontEdits)
      [gist.root]).rebuild tidied true)).settle (Edit.settle [sortEdit]) [gist.root]⟩ := by
  have hdoctype := does_removeDoctype (prepares_stageOf (p := removeDoctype) rfl)
  have hdeclaration := does_removeXmlDeclaration (prepares_stageOf (p := removeXmlDeclaration) rfl)
  have hfront := does_parentsFirst follows_frontStages
    (trims_presetGroups ⟨.perItem, frontStages⟩ (by simp [presetGroups]))
  have htidied := does_childrenFirst visits_tidyStages.turns
    (trims_presetGroups ⟨.perItemReverse, tidyStages⟩ (by simp [presetGroups]))
  have hunused := does_removeUnusedNamespaces (prepares_stageOf (p := removeUnusedNamespaces) rfl)
  have hsort : List.Forall₂ (Stage.Follows Document.Sound) [sortStage] [sortEdit] :=
    .cons (follows_stageOf follows_sortAttributes rfl) .nil
  have hsorted := does_parentsFirst hsort
    (trims_presetGroups ⟨.perItem, [sortStage]⟩ (by simp [presetGroups]))
  exact hdoctype.append (hdeclaration.append
    (hfront.append (htidied.append (hunused.append hsorted))))

/-- What the preset makes of a document. -/
theorem apply_presetGroups {d : Document} (hd : d.Sound) :
    ∃ d', (applyGroups presetGroups d).outcome = .ok d' ∧ d'.Sound ∧ d'.declaration = none ∧
      d'.doctype = none ∧ d'.payloads = presetForest d.payloads := by
  obtain ⟨d', ho, hd', hgist⟩ := does_presetGroups d hd
  have hroot : d.gist.root = .root := hd.shaped.kindOf_root
  simp only [hroot] at hgist
  simp only [gist, Gist.mk.injEq] at hgist
  exact ⟨d', ho, hd', hgist.1, hgist.2.1, hgist.2.2.2⟩

end Builtin

end SvgPress
