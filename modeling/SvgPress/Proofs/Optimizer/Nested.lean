import SvgPress.Proofs.Optimizer.Pressed

/-!
# Drawings that use the passes up

A hidden shape among visible ones is removed, and a group with a single child hands its visibility
down to this child. So every pass over hidden groups that stand inside each other, each with a
visible shape, removes one level of them: what is handed down after the removal of hidden shapes is
seen only by the next pass. The number of passes that are needed is not bounded, but the number of
those that are done is.
-/

namespace SvgPress

open Builtin Markup

/-! ## Trees of elements -/

namespace Forest

variable {f : Forest NodeKind} {around : Bool}

/-- All nodes are elements. -/
def OfElements (f : Forest NodeKind) : Prop :=
  ∀ kind ∈ f.preorder, kind.element?.isSome = true

theorem ofElements_cons_iff {kind : NodeKind} {below rest : Forest NodeKind} :
    (cons kind below rest).OfElements ↔
      kind.element?.isSome = true ∧ below.OfElements ∧ rest.OfElements :=
  forall_mem_preorder_cons

theorem OfElements.fits (h : f.OfElements) : f.Fits := by
  induction f with
  | nil => trivial
  | cons kind below rest ihb ihr =>
    obtain ⟨hkind, hbelow, hrest⟩ := ofElements_cons_iff.1 h
    refine ⟨?_, fun hnone => ?_, ihb hbelow, ihr hrest⟩
    · rintro rfl
      simp [NodeKind.element?] at hkind
    · rw [hnone] at hkind
      exact absurd hkind (by simp)

theorem OfElements.isParted (h : f.OfElements) : f.IsParted := by
  induction f with
  | nil => trivial
  | cons kind below rest ihb ihr =>
    obtain ⟨hkind, hbelow, hrest⟩ := ofElements_cons_iff.1 h
    refine ⟨fun ht => ?_, ihb hbelow, ihr hrest⟩
    cases kind <;> simp [NodeKind.element?, NodeKind.isText] at hkind ht

theorem OfElements.hasNoXml (h : f.OfElements) : f.HasNoXml := fun _ hm =>
  absurd (h _ hm) (by simp [NodeKind.element?])

/-- Where nothing but elements stands, nothing is lost when the trees are read again. -/
theorem OfElements.reread_eq (h : f.OfElements) : f.reread around = f := by
  induction f generalizing around with
  | nil => rfl
  | cons kind below rest ihb ihr =>
    obtain ⟨hkind, hbelow, hrest⟩ := ofElements_cons_iff.1 h
    cases kind with
    | element e =>
      have he : NodeKind.isReread around (.element e) = true := rfl
      rw [reread, if_pos he, ihb hbelow, ihr hrest]
    | _ => simp [NodeKind.element?] at hkind

theorem settle_eq_self {s : List NodeKind → NodeKind → Option NodeKind} {above : List NodeKind}
    (h : ∀ kind ∈ f.preorder, ∀ above, s above kind = some kind) : f.settle s above = f := by
  induction f generalizing above with
  | nil => rfl
  | cons kind below rest ihb ihr =>
    obtain ⟨hkind, hbelow, hrest⟩ := forall_mem_preorder_cons.1 h
    rw [settle, hkind]
    exact congrArg₂ (cons kind) (ihb hbelow) (ihr hrest)

end Forest

/-! ## Hidden groups inside each other -/

namespace Nested

/-- A shape. -/
def shape : Element :=
  Element.named "rect"

/-- A shape that is hidden. -/
def hiddenShape : Element :=
  ⟨QName.ofString "rect", [Attribute.ofStrings "visibility" "hidden"]⟩

/-- A group that is hidden. -/
def hiddenGroup : Element :=
  ⟨QName.ofString "g", [Attribute.ofStrings "visibility" "hidden"]⟩

/-- So many hidden groups inside each other, each with a shape at its end, around a hidden shape;
other trees follow. -/
def groups : Nat → Forest NodeKind → Forest NodeKind
  | 0, rest => .cons (.element hiddenShape) .nil rest
  | n + 1, rest =>
    .cons (.element hiddenGroup) (groups n (.cons (.element shape) .nil .nil)) rest

/-- The groups without the hidden shape. -/
def emptyGroups : Nat → Forest NodeKind → Forest NodeKind
  | 0, rest => rest
  | n + 1, rest =>
    .cons (.element hiddenGroup) (emptyGroups n (.cons (.element shape) .nil .nil)) rest

/-- A drawing with such groups and a link. -/
def drawing (n : Nat) : Forest NodeKind :=
  .cons (.element (Element.named "svg")) (groups n (.cons (.element (Element.named "a")) .nil .nil))
    .nil

/-- The text of such groups, before other text. -/
def groupsText : Nat → String → String
  | 0, rest => "<rect visibility=\"hidden\"/>" ++ rest
  | n + 1, rest => "<g visibility=\"hidden\">" ++ groupsText n "<rect/>" ++ "</g>" ++ rest

/-- The text of a drawing with such groups and a link. -/
def drawingText (n : Nat) : String :=
  "<svg>" ++ groupsText n "<a/>" ++ "</svg>"

variable {P : NodeKind → Prop} {rest : Forest NodeKind} {above : List NodeKind} {after : String}

/-- What holds of the shapes, of the groups and of what follows them holds of all payloads. -/
theorem forall_mem_groups (hshape : P (.element shape)) (hhidden : P (.element hiddenShape))
    (hgroup : P (.element hiddenGroup)) (hrest : ∀ kind ∈ rest.preorder, P kind) (n : Nat) :
    ∀ kind ∈ (groups n rest).preorder, P kind := by
  induction n generalizing rest with
  | zero =>
    rw [groups, Forest.forall_mem_preorder_cons]
    exact ⟨hhidden, by simp [Forest.preorder], hrest⟩
  | succ n ih =>
    rw [groups, Forest.forall_mem_preorder_cons]
    exact ⟨hgroup, ih (by simpa [Forest.preorder] using hshape), hrest⟩

theorem forall_mem_drawing (hsvg : P (.element (Element.named "svg")))
    (hlink : P (.element (Element.named "a"))) (hshape : P (.element shape))
    (hhidden : P (.element hiddenShape)) (hgroup : P (.element hiddenGroup)) (n : Nat) :
    ∀ kind ∈ (drawing n).preorder, P kind := by
  rw [drawing, Forest.forall_mem_preorder_cons]
  refine ⟨hsvg, forall_mem_groups hshape hhidden hgroup ?_ n, by simp [Forest.preorder]⟩
  simpa [Forest.preorder] using hlink

theorem ofElements_drawing (n : Nat) : (drawing n).OfElements := by
  refine forall_mem_drawing ?_ ?_ ?_ ?_ ?_ n <;> rfl

/-- The drawing is found again where it is written. -/
theorem isReadableTree_drawing (n : Nat) : (drawing n).IsReadableTree where
  readable := by
    have hnamed : ∀ name : String, Content.isName name.toList = true →
        (Element.named name).IsChecked := fun name h =>
      ⟨⟨name, h, rfl⟩, fun a ha => absurd ha List.not_mem_nil, List.nodup_nil⟩
    have hhidden : ∀ name : String, Content.isName name.toList = true →
        Element.IsChecked ⟨QName.ofString name, [Attribute.ofStrings "visibility" "hidden"]⟩ :=
      fun name h => ⟨⟨name, h, rfl⟩,
        fun a ha => List.mem_singleton.1 ha ▸ ⟨"visibility", by decide, rfl⟩, List.nodup_singleton _⟩
    exact forall_mem_drawing (P := NodeKind.IsReadable) (hnamed "svg" (by decide))
      (hnamed "a" (by decide)) (hnamed "rect" (by decide)) (hhidden "rect" (by decide))
      (hhidden "g" (by decide)) n
  fits := (ofElements_drawing n).fits
  one_element := rfl
  no_characters kind hk := by
    obtain rfl := List.mem_singleton.1 hk
    rfl

/-! ### Their text -/

theorem groupsText_zero (after : String) :
    groupsText 0 after = "<rect visibility=\"hidden\"/>" ++ after :=
  rfl

theorem groupsText_succ (n : Nat) (after : String) : groupsText (n + 1) after =
    "<g visibility=\"hidden\">" ++ groupsText n "<rect/>" ++ "</g>" ++ after :=
  rfl

theorem utf8ByteSize_groupsText (n : Nat) (after : String) :
    (groupsText n after).utf8ByteSize = 34 * n + 27 + after.utf8ByteSize := by
  induction n generalizing after with
  | zero =>
    rw [groupsText_zero, String.utf8ByteSize_append]
    rfl
  | succ n ih =>
    have hopen : "<g visibility=\"hidden\">".utf8ByteSize = 23 := rfl
    have hshape : "<rect/>".utf8ByteSize = 7 := rfl
    have hclose : "</g>".utf8ByteSize = 4 := rfl
    rw [groupsText_succ, String.utf8ByteSize_append, String.utf8ByteSize_append,
      String.utf8ByteSize_append, ih, hopen, hshape, hclose]
    omega

theorem utf8ByteSize_drawingText (n : Nat) : (drawingText n).utf8ByteSize = 34 * n + 42 := by
  rw [drawingText, String.utf8ByteSize_append, String.utf8ByteSize_append, utf8ByteSize_groupsText]
  have hopen : "<svg>".utf8ByteSize = 5 := rfl
  have hlink : "<a/>".utf8ByteSize = 4 := rfl
  have hclose : "</svg>".utf8ByteSize = 6 := rfl
  omega

section Text

variable {depth : Nat} {preserving : Bool} {below : Forest NodeKind}

theorem textOf_tokens_childless (e : Element) (rest : Forest NodeKind) :
    textOf (({} : Style).tokens depth preserving false (.cons (.element e) .nil rest)) =
      (Token.empty (({} : Style).tag e)).written ++
        textOf (({} : Style).tokens depth preserving false rest) :=
  rfl

theorem textOf_tokens_element (e : Element) (hbelow : below.tops.isEmpty = false)
    (rest : Forest NodeKind) :
    textOf (({} : Style).tokens depth preserving false (.cons (.element e) below rest)) =
      (Token.start (({} : Style).tag e)).written ++
        textOf (({} : Style).tokens (depth + 1) ((NodeKind.element e).preservesBelow preserving) false
          below) ++ (Token.close e.name.full).written ++
        textOf (({} : Style).tokens depth preserving false rest) := by
  have hbreaks : ∀ depth, ({} : Style).breakTokens false depth = [] := fun _ => rfl
  have hapart : ∀ scope, ({} : Style).breaksBelow scope below = false := fun _ => rfl
  simp only [Style.tokens, hapart, hbreaks, hbelow, Style.nodeTokens, List.nil_append,
    Bool.false_eq_true, if_false, textOf_cons, textOf_append, textOf_nil, List.append_nil,
    List.append_assoc]

theorem isEmpty_tops_groups (n : Nat) (rest : Forest NodeKind) :
    (groups n rest).tops.isEmpty = false := by
  cases n <;> rfl

/-- The groups are written as their text, if what follows them is. -/
theorem textOf_tokens_groups (h : ∀ depth preserving,
      textOf (({} : Style).tokens depth preserving false rest) = after.toList) (n : Nat) :
    textOf (({} : Style).tokens depth preserving false (groups n rest)) =
      (groupsText n after).toList := by
  induction n generalizing depth preserving rest after with
  | zero =>
    have hshape : (Token.empty (({} : Style).tag hiddenShape)).written =
        "<rect visibility=\"hidden\"/>".toList := by decide +kernel
    rw [groups, textOf_tokens_childless, h, hshape, groupsText_zero, String.toList_append]
  | succ n ih =>
    have hopen : (Token.start (({} : Style).tag hiddenGroup)).written =
        "<g visibility=\"hidden\">".toList := by decide +kernel
    have hclose : (Token.close hiddenGroup.name.full).written = "</g>".toList := by decide +kernel
    have hshape : (Token.empty (({} : Style).tag shape)).written = "<rect/>".toList := by
      decide +kernel
    have hbelow : ∀ depth preserving, textOf (({} : Style).tokens depth preserving false
        (groups n (.cons (.element shape) .nil .nil))) = (groupsText n "<rect/>").toList := by
      refine fun depth preserving => ih fun depth preserving => ?_
      rw [textOf_tokens_childless, hshape]
      exact List.append_nil _
    rw [groups, textOf_tokens_element _ (isEmpty_tops_groups n _), hbelow, h, hopen, hclose,
      groupsText_succ, String.toList_append, String.toList_append, String.toList_append]

theorem toList_drawingText (n : Nat) :
    (drawingText n).toList = textOf (({} : Style).wholeTokens .empty (drawing n)) := by
  have hopen : (Token.start (({} : Style).tag (Element.named "svg"))).written = "<svg>".toList := by
    decide +kernel
  have hclose : (Token.close (Element.named "svg").name.full).written = "</svg>".toList := by
    decide +kernel
  have hlink : (Token.empty (({} : Style).tag (Element.named "a"))).written = "<a/>".toList := by
    decide +kernel
  have hgroups : ∀ depth preserving, textOf (({} : Style).tokens depth preserving false
      (groups n (.cons (.element (Element.named "a")) .nil .nil))) =
        (groupsText n "<a/>").toList := by
    refine fun depth preserving => textOf_tokens_groups (fun depth preserving => ?_) n
    rw [textOf_tokens_childless, hlink]
    exact List.append_nil _
  have htop : ({} : Style).wholeTokens .empty (drawing n) =
      ({} : Style).tokens 0 false false (drawing n) := by
    simp [Style.wholeTokens, Style.prologTokens, Style.declarationTokens, Style.doctypeTokens,
      drawing, Style.topTokens, Document.empty]
    rfl
  rw [htop, drawing, textOf_tokens_element _ (isEmpty_tops_groups n _), hgroups, hopen, hclose,
    drawingText, String.toList_append, String.toList_append]
  exact (List.append_nil _).symm

end Text

/-! ### What the preset makes of them -/

theorem settle_shape (above : List NodeKind) :
    Edit.settle frontEdits above (.element shape) = some (.element shape) := by
  simp only [frontEdits, Edit.settle, commentEdit, metadataEdit, editorEdit, hiddenEdit,
    Edit.ofElement, defaultsEdit, withoutDefaults]
  cases underRoot above <;> cases inside above "defs" <;> rfl

theorem settle_hiddenGroup (above : List NodeKind) :
    Edit.settle frontEdits above (.element hiddenGroup) = some (.element hiddenGroup) := by
  simp only [frontEdits, Edit.settle, commentEdit, metadataEdit, editorEdit, hiddenEdit,
    Edit.ofElement, defaultsEdit, withoutDefaults]
  cases underRoot above <;> cases inside above "defs" <;> rfl

/-- The hidden shape is removed, but not from definitions and not as the document element. -/
theorem settle_hiddenShape (hroot : underRoot above = false) (hdefs : inside above "defs" = false) :
    Edit.settle frontEdits above (.element hiddenShape) = none := by
  simp only [frontEdits, Edit.settle, commentEdit, metadataEdit, editorEdit, hiddenEdit,
    Edit.ofElement, defaultsEdit, withoutDefaults, hroot, hdefs]
  rfl

theorem settle_link (above : List NodeKind) :
    Edit.settle frontEdits above (.element (Element.named "a")) =
      some (.element (Element.named "a")) := by
  simp only [frontEdits, Edit.settle, commentEdit, metadataEdit, editorEdit, hiddenEdit,
    Edit.ofElement, defaultsEdit, withoutDefaults]
  cases underRoot above <;> cases inside above "defs" <;> rfl

/-- Of the groups nothing goes but the hidden shape. -/
theorem settle_groups (hroot : underRoot above = false) (hdefs : inside above "defs" = false)
    (hrest : ∀ above, rest.settle (Edit.settle frontEdits) above = rest) (n : Nat) :
    (groups n rest).settle (Edit.settle frontEdits) above = emptyGroups n rest := by
  induction n generalizing above rest with
  | zero => rw [groups, Forest.settle, settle_hiddenShape hroot hdefs, hrest, emptyGroups]
  | succ n ih =>
    have hshape : ∀ above, (Forest.cons (.element shape) .nil .nil).settle
        (Edit.settle frontEdits) above = .cons (.element shape) .nil .nil := by
      intro above
      rw [Forest.settle, settle_shape]
      rfl
    have hbelow : inside (.element hiddenGroup :: above) "defs" = false := by
      rw [inside, List.any_cons, Bool.or_eq_false_iff]
      exact ⟨by decide, hdefs⟩
    rw [groups, Forest.settle, settle_hiddenGroup, hrest]
    exact congrArg (Forest.cons _ · rest) (ih rfl hbelow hshape)

/-- The innermost group has a single child then, hands its visibility down to it and goes. Those
around it keep a second child. -/
theorem rebuild_emptyGroups (hrest : rest.rebuild tidied false = rest) (n : Nat) :
    (emptyGroups (n + 1) rest).rebuild tidied false = groups n rest := by
  induction n generalizing rest with
  | zero =>
    rw [emptyGroups, Forest.rebuild, hrest]
    rfl
  | succ n ih =>
    have hstays : tidied false (.element hiddenGroup) (groups n (.cons (.element shape) .nil .nil)) =
        .cons (.element hiddenGroup) (groups n (.cons (.element shape) .nil .nil)) .nil := by
      cases n <;> rfl
    rw [emptyGroups, Forest.rebuild, hrest, ih rfl, hstays]
    rfl

theorem settle_sortEdit_drawing (n : Nat) :
    (drawing n).settle (Edit.settle [sortEdit]) [.root] = drawing n := by
  have hsame : ∀ name attributes, attributes.Pairwise (fun a b => mayPrecede a b = true) →
      sortedKind (.element ⟨name, attributes⟩) = .element ⟨name, attributes⟩ := by
    intro name attributes h
    rw [sortedKind, sortElementAttributes, List.mergeSort_of_pairwise h]
  have hsorted := forall_mem_drawing (P := fun kind => sortedKind kind = kind) (hsame _ _ .nil)
    (hsame _ _ .nil) (hsame _ _ .nil) (hsame _ _ (List.pairwise_singleton _ _))
    (hsame _ _ (List.pairwise_singleton _ _)) n
  exact Forest.settle_eq_self fun kind hk above => by rw [settle_sortEdit, hsorted kind hk]

/-- The preset removes one level of groups. -/
theorem presetForest_drawing (n : Nat) : presetForest (drawing (n + 1)) = drawing n := by
  have hlink : ∀ above, (Forest.cons (.element (Element.named "a")) .nil .nil).settle
      (Edit.settle frontEdits) above = .cons (.element (Element.named "a")) .nil .nil := by
    intro above
    rw [Forest.settle, settle_link]
    rfl
  have hfront : (drawing (n + 1)).settle (Edit.settle frontEdits) [.root] =
      .cons (.element (Element.named "svg"))
        (emptyGroups (n + 1) (.cons (.element (Element.named "a")) .nil .nil)) .nil := by
    have hsvg : Edit.settle frontEdits [.root] (.element (Element.named "svg")) =
        some (.element (Element.named "svg")) := by rfl
    rw [drawing, Forest.settle, hsvg]
    dsimp only
    rw [settle_groups (by decide) (by decide) hlink]
    rfl
  have htidied : (Forest.cons (.element (Element.named "svg"))
      (emptyGroups (n + 1) (.cons (.element (Element.named "a")) .nil .nil)) .nil).rebuild tidied
        true = drawing n := by
    rw [Forest.rebuild, rebuild_emptyGroups rfl]
    rfl
  have hused : withoutUnused (drawing n) = drawing n := rfl
  rw [presetForest, hfront, htidied, hused, settle_sortEdit_drawing]

/-! ### Passes over them -/

theorem exists_parse_drawingText (n : Nat) :
    ∃ d, parse (drawingText n) = .ok d ∧ d.payloads = drawing n := by
  have hprolog : Document.empty.HasReadableProlog :=
    ⟨fun _ h => absurd h (by simp [Document.empty]), fun _ h => absurd h (by simp [Document.empty])⟩
  have helements := ofElements_drawing n
  obtain ⟨d, hs, -, -, -, hpayloads⟩ := exists_parse_of_wholeTokens hprolog
    (isReadableTree_drawing n) helements.isParted helements.hasNoXml (toList_drawingText n)
  exact ⟨d, hs, hpayloads.trans helements.reread_eq⟩

/-- A pass removes one level of groups. -/
theorem optimizeOnce_drawingText (budget n : Nat) :
    ((Engine.ofPreset budget).optimizeOnce (drawingText (n + 1))).outcome =
      .ok (drawingText n) := by
  obtain ⟨d, hs, hpayloads⟩ := exists_parse_drawingText (n + 1)
  obtain ⟨d', text, -, ho, hd', hpayloads'⟩ := Engine.exists_optimizeOnce hs budget
  rw [hpayloads, presetForest_drawing] at hpayloads'
  have htext : text = drawingText n := by
    rw [← String.toList_inj, hd'.toList_eq, hpayloads', toList_drawingText]
  rw [ho, htext]

/-- Every pass removes a level: `i` passes remove `i` of them. -/
theorem pass_drawingText (budget n i : Nat) :
    ((Engine.ofPreset budget).pass (drawingText (n + i)) i).outcome = .ok (drawingText n) := by
  induction i generalizing n with
  | zero => rfl
  | succ i ih =>
    have hbefore := ih (n + 1)
    rw [Nat.add_right_comm, Nat.add_assoc] at hbefore
    rw [Engine.pass, hbefore]
    exact optimizeOnce_drawingText budget n

/-- Each pass removes one level of groups, until there are no more passes. -/
theorem optimize_drawingText (n : Nat) :
    ((Engine.ofPreset maxPasses).optimize (drawingText (n + maxPasses))).outcome =
      .ok ⟨drawingText n, maxPasses⟩ := by
  have hpass : ∀ i ≤ maxPasses, ((Engine.ofPreset maxPasses).pass (drawingText (n + maxPasses))
      i).outcome = .ok (drawingText (n + maxPasses - i)) := by
    intro i hi
    have h := pass_drawingText maxPasses (n + maxPasses - i) i
    rwa [Nat.sub_add_cancel (Nat.le_trans hi (Nat.le_add_left _ _))] at h
  have hlast : (Engine.ofPreset maxPasses).IsLast (drawingText (n + maxPasses)) maxPasses := by
    refine Engine.isLast_of_shrinks (e := Engine.ofPreset maxPasses) fun i hi => ?_
    have hi : i < maxPasses := hi
    refine ⟨_, _, hpass i (Nat.le_of_lt hi), hpass (i + 1) hi, ?_⟩
    rw [utf8ByteSize_drawingText, utf8ByteSize_drawingText]
    omega
  rw [hlast.optimize_eq, hpass maxPasses (Nat.le_refl _), Nat.add_sub_cancel]
  rfl

/-- Results that are not optimized to themselves: what is left when the passes are used up, path data
with numbers that are too large to be rounded exactly, and names with quotes, which make the last
pass read a tag in place of a CDATA section. -/
theorem optimize_does_not_stay : ∃ engine,
    Engine.ofConfig { multipass := true } registry = .ok engine ∧
    ((engine.optimize (drawingText 10)).outcome =
        .ok ⟨"<svg><rect visibility=\"hidden\"/><a/></svg>", 10⟩ ∧
      (engine.optimize "<svg><rect visibility=\"hidden\"/><a/></svg>").outcome =
        .ok ⟨"<svg><a/></svg>", 2⟩) ∧
    ((engine.optimize "<svg><path d=\"M4400000000000.021 0\"/></svg>").outcome =
        .ok ⟨"<svg><path d=\"M4400000000000.023 0\"/></svg>", 2⟩ ∧
      (engine.optimize "<svg><path d=\"M4400000000000.023 0\"/></svg>").outcome =
        .ok ⟨"<svg><path d=\"M4400000000000.025 0\"/></svg>", 2⟩) ∧
    (engine.optimize ("<svg><a\" inkscape:x\"=\"1\"/><![CDATA[\"/>>>" ++
        "<g visibility=\"hidden\"><b/></g>]]></svg>")).outcome =
      .ok ⟨"<svg><a\"/><![CDATA[\"/>&gt;&gt;<b visibility=\"hidden\"/>]]&gt;</svg>", 2⟩ ∧
    (engine.optimize
        "<svg><a\"/><![CDATA[\"/>&gt;&gt;<b visibility=\"hidden\"/>]]&gt;</svg>").outcome =
      .ok ⟨"<svg><a\"/><![CDATA[\"/>&gt;&gt;]]&gt;</svg>", 2⟩ := by
  refine ⟨_, Engine.ofConfig_preset true, ⟨?_, ?_⟩, ⟨?_, ?_⟩, ?_, ?_⟩
  · have hrest : "<svg><rect visibility=\"hidden\"/><a/></svg>" = drawingText 0 := by decide +kernel
    exact hrest ▸ optimize_drawingText 0
  all_goals exact Outcome.eq_ok_of_toOption (by decide +kernel)

end Nested

end SvgPress
