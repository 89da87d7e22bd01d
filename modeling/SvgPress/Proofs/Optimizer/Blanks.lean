import SvgPress.Proofs.Optimizer.Pressed
import Mathlib.Data.List.Find

/-!
# Blank text between two passes

Blank text is read only where blanks count, and this is decided by the attribute `xml:space` and by
the names of the elements above. The preset leaves both as they are, but for groups, which hand their
attributes down and go. As long as no group says that blanks do not count in it, they count where
they counted before: what the preset leaves of a document is read again from its text, with no
blank text lost.
-/

namespace SvgPress

open Builtin Markup

/-! ## Where blanks count -/

namespace Markup

variable {e e' g c : Element} {around : Bool}

theorem preservesBlanks_congr (hn : e'.name = e.name)
    (ha : e'.attr? "xml:space" = e.attr? "xml:space") (around : Bool) :
    preservesBlanks around e' = preservesBlanks around e := by
  rw [preservesBlanks, preservesBlanks, hn, ha]

/-- A group says nothing about blanks but by its attribute. -/
theorem preservesBlanks_of_group (hg : g.isNamed "g" = true) (ha : g.attr? "xml:space" = none) :
    preservesBlanks around g = around := by
  have hname : g.name.localPart = "g" := by simpa [Element.isNamed] using hg
  have hother : blankPreserving.contains "g" = false := by decide
  rw [preservesBlanks, ha, hname, hother, Bool.or_false]

theorem attr?_append (attributes : List Attribute) (name : String) :
    Element.attr? { c with attributes := c.attributes ++ attributes } name =
      (c.attr? name).or (Element.attr? ⟨c.name, attributes⟩ name) := by
  simp only [Element.attr?, List.find?_append, Option.map_or]

theorem attr?_of_canHandDown (h : canHandDown g c = true) {name value : String}
    (hg : g.attr? name = some value) : c.attr? name = none := by
  obtain ⟨a, ha, hspelled, -⟩ := Element.attr?_mem hg
  rw [canHandDown, Bool.and_eq_true, List.all_eq_true] at h
  have hnone := h.2 a ha
  rw [Bool.not_eq_true', List.any_eq_false] at hnone
  rw [Element.attr?, Option.map_eq_none_iff, List.find?_eq_none]
  intro b hb hother
  refine hnone b hb ?_
  rw [QName.isSpelled_iff.1 hspelled, QName.isSpelled_iff.1 hother, beq_self_eq_true]

/-- Blanks count in a child that has been handed the attributes of its group where they counted
before, if the group does not say that they do not. -/
theorem preservesBlanks_handDown (hg : g.isNamed "g" = true)
    (ha : g.attr? "xml:space" ≠ some "default") (h : canHandDown g c = true) :
    preservesBlanks around { c with attributes := c.attributes ++ g.attributes } =
      preservesBlanks (preservesBlanks around g) c := by
  have hattr := attr?_append (c := c) g.attributes "xml:space"
  have hsame : Element.attr? ⟨c.name, g.attributes⟩ "xml:space" = g.attr? "xml:space" := rfl
  rw [hsame] at hattr
  cases hspace : g.attr? "xml:space" with
  | none =>
    rw [hspace, Option.or_none] at hattr
    rw [preservesBlanks_of_group hg hspace]
    refine preservesBlanks_congr (e := c) ?_ hattr around
    rfl
  | some value =>
    have hchild := attr?_of_canHandDown h hspace
    have hname : g.name.localPart = "g" := by simpa [Element.isNamed] using hg
    have hother : blankPreserving.contains "g" = false := by decide
    rw [hchild, hspace, Option.none_or] at hattr
    rw [hspace] at ha
    simp only [preservesBlanks, hattr, hchild, hspace, hname, hother, Bool.or_false]
    split
    · simp
    · simp_all
    · rfl

end Markup

/-! ## What the preset makes of blank text -/

/-- The payloads are read alike, and blanks count alike below them. -/
def NodeKind.SameBlanks (kind' kind : NodeKind) : Prop :=
  ∀ around, kind'.isReread around = kind.isReread around ∧
    kind'.preservesBelow around = kind.preservesBelow around

/-- No group says that blanks do not count in it. -/
def Forest.GroupsKeepBlanks (f : Forest NodeKind) : Prop :=
  ∀ kind ∈ f.preorder, ∀ e ∈ kind.element?, e.isNamed "g" = true →
    e.attr? "xml:space" ≠ some "default"

instance (f : Forest NodeKind) : Decidable f.GroupsKeepBlanks :=
  inferInstanceAs (Decidable (∀ kind ∈ f.preorder, ∀ e ∈ kind.element?, e.isNamed "g" = true →
    e.attr? "xml:space" ≠ some "default"))

/-- A payload that is found again, is no group that says that blanks do not count in it, and is not
named like a declaration. -/
structure NodeKind.IsSteady (kind : NodeKind) : Prop where
  readable : kind.IsReadable
  group : ∀ e ∈ kind.element?, e.isNamed "g" = true → e.attr? "xml:space" ≠ some "default"
  not_xml : ∀ content, kind ≠ .instruction "xml" content

/-- Trees of such payloads whose blank texts are read. -/
structure Forest.IsSteady (around : Bool) (f : Forest NodeKind) : Prop where
  kinds : ∀ kind ∈ f.preorder, kind.IsSteady
  read : f.AllReread around

theorem NodeKind.sameBlanks_element {e e' : Element} (hn : e'.name = e.name)
    (ha : e'.attr? "xml:space" = e.attr? "xml:space") :
    SameBlanks (.element e') (.element e) :=
  fun around => ⟨rfl, preservesBlanks_congr hn ha around⟩

theorem NodeKind.IsSteady.of_attr? {e e' : Element} (h : IsSteady (.element e))
    (hc : e'.IsChecked) (hn : e'.name = e.name)
    (ha : e'.attr? "xml:space" = e.attr? "xml:space") : IsSteady (.element e') where
  readable := hc
  group x hx hg := by
    obtain rfl := Option.some.inj hx
    rw [ha]
    rw [Element.isNamed, hn] at hg
    exact h.group e rfl hg
  not_xml _ := by simp

namespace Forest

variable {s : List NodeKind → NodeKind → Option NodeKind} {above : List NodeKind}
  {t : Bool → NodeKind → Forest NodeKind → Forest NodeKind} {top around : Bool}
  {P : NodeKind → Prop} {f g : Forest NodeKind}

theorem AllReread.append (hf : f.AllReread around) (hg : g.AllReread around) :
    (f ++ g).AllReread around := by
  induction f generalizing around with
  | nil => exact hg
  | cons kind below rest _ ihr =>
    obtain ⟨hkind, hbelow, hrest⟩ := hf
    exact ⟨hkind, hbelow, ihr hrest hg⟩

theorem AllReread.settle (hs : ∀ kind ∈ f.preorder, ∀ above kind', s above kind = some kind' →
      kind'.SameBlanks kind) (h : f.AllReread around) : (f.settle s above).AllReread around := by
  induction f generalizing above around with
  | nil => trivial
  | cons kind below rest ihb ihr =>
    obtain ⟨hskind, hsbelow, hsrest⟩ := forall_mem_preorder_cons.1 hs
    obtain ⟨hkind, hbelow, hrest⟩ := h
    rw [Forest.settle]
    split
    · exact ihr hsrest hrest
    · rename_i kind' hkind'
      obtain ⟨hread, hpreserves⟩ := hskind _ _ hkind' around
      exact ⟨hread.trans hkind, ihb hsbelow (hpreserves ▸ hbelow), ihr hsrest hrest⟩

theorem AllReread.rebuild
    (ht : ∀ top kind below around, P kind → (∀ x ∈ below.preorder, P x) →
      (cons kind below nil).AllReread around → (t top kind below).AllReread around)
    (hP : ∀ top kind below, P kind → (∀ x ∈ below.preorder, P x) →
      ∀ x ∈ (t top kind below).preorder, P x)
    (hf : ∀ kind ∈ f.preorder, P kind) (h : f.AllReread around) :
    (f.rebuild t top).AllReread around := by
  induction f generalizing top around with
  | nil => trivial
  | cons kind below rest ihb ihr =>
    obtain ⟨hpkind, hpbelow, hprest⟩ := forall_mem_preorder_cons.1 hf
    obtain ⟨hkind, hbelow, hrest⟩ := h
    refine AllReread.append (ht _ _ _ _ hpkind (forall_mem_rebuild hP hpbelow) ?_) (ihr hprest hrest)
    exact ⟨hkind, ihb hpbelow hbelow, trivial⟩

theorem AllReread.editFirst {edit : Element → Element}
    (he : ∀ e, (NodeKind.element (edit e)).SameBlanks (.element e)) (h : f.AllReread around) :
    (f.editFirst edit).AllReread around := by
  induction f with
  | nil => trivial
  | cons kind below rest _ ihr =>
    obtain ⟨hkind, hbelow, hrest⟩ := h
    cases kind with
    | element e => exact ⟨rfl, (he e around).2 ▸ hbelow, hrest⟩
    | _ =>
      rw [editFirst_cons_of_other rfl]
      exact ⟨hkind, hbelow, ihr hrest⟩

end Forest

namespace Builtin

variable {f below : Forest NodeKind} {kind : NodeKind} {top around : Bool} {g c e : Element}

theorem attr?_frontElement (above : List NodeKind) (e : Element) :
    (frontElement above e).attr? "xml:space" = e.attr? "xml:space" := by
  have htrimmed : (trimmedElement above e).attr? "xml:space" = e.attr? "xml:space" := by
    rw [trimmedElement, attr?_withoutDefaults (.inl (by decide)),
      attr?_shortenElementColors (by decide) (by decide), attr?_minifyElementStyle (by decide)]
    refine Element.attr?_keepAttrs fun a ha => ?_
    rw [isEditorAttribute, QName.isSpelled_iff.1 ha]
    decide
  rw [frontElement]
  rcases shortenPath_cases (trimmedElement above e) with ⟨-, h⟩ | ⟨data, data', -, hdata, h⟩
  · rw [h, htrimmed]
  · rw [h, Element.attr?_setAttr (by decide), htrimmed]

/-- Groups that say nothing against it leave blank text where it is read. -/
theorem allReread_ungrouped (hg : g.isNamed "g" = true) (ha : g.attr? "xml:space" ≠ some "default")
    (h : (Forest.cons (.element g) below .nil).AllReread around) :
    (ungrouped g below).AllReread around := by
  have hbelow := h.2.1
  rw [ungrouped]
  rcases handed_cases g below with ⟨c, inner, rfl, hcan, hh⟩ | hh
  · rw [hh]
    refine ⟨rfl, ?_, trivial⟩
    rw [NodeKind.preservesBelow, preservesBlanks_handDown hg ha hcan]
    exact hbelow.2.1
  · rw [hh]
    split_ifs with hempty
    · have hnone : g.attr? "xml:space" = none := by
        rw [Element.attr?, List.isEmpty_iff.1 hempty]
        rfl
      rw [NodeKind.preservesBelow, preservesBlanks_of_group hg hnone] at hbelow
      exact hbelow
    · exact h

theorem allReread_tidied (hk : kind.IsSteady) (h : (Forest.cons kind below .nil).AllReread around) :
    (tidied top kind below).AllReread around := by
  rcases tidied_cases top kind below with ⟨e, rfl, ht⟩ | ⟨g, rfl, hnamed, ht⟩ | ht
  · rw [ht]
    trivial
  · rw [ht]
    exact allReread_ungrouped hnamed (hk.group g rfl hnamed) h
  · rw [ht]
    exact h

theorem isSteady_handDown (hn : g.isNamed "g" = true) (hg : NodeKind.IsSteady (.element g))
    (hc : NodeKind.IsSteady (.element c)) (h : canHandDown g c = true) :
    NodeKind.IsSteady (.element { c with attributes := c.attributes ++ g.attributes }) where
  readable := isChecked_handDown hg.readable hc.readable h
  group e he hchild := by
    obtain rfl := Option.some.inj he
    rw [attr?_append]
    cases hspace : c.attr? "xml:space" with
    | none => exact hg.group g rfl hn
    | some value =>
      rw [Option.some_or, ← hspace]
      exact hc.group c rfl hchild
  not_xml _ := by simp

theorem steady_frontKind (h : kind.IsSteady) (above : List NodeKind) :
    (frontKind above kind).IsSteady ∧ (frontKind above kind).SameBlanks kind := by
  cases kind with
  | element e =>
    have hname := (within_frontElement above e).name
    have hattr := attr?_frontElement above e
    exact ⟨h.of_attr? ((within_frontElement above e).isChecked h.readable) hname hattr,
      NodeKind.sameBlanks_element hname hattr⟩
  | _ => exact ⟨h, fun _ => ⟨rfl, rfl⟩⟩

theorem steady_sortedKind (h : kind.IsSteady) :
    (sortedKind kind).IsSteady ∧ (sortedKind kind).SameBlanks kind := by
  cases kind with
  | element e =>
    have hattr := congrFun (attr?_sortElementAttributes e) "xml:space"
    exact ⟨h.of_attr? (isChecked_sortElementAttributes h.readable) rfl hattr,
      NodeKind.sameBlanks_element rfl hattr⟩
  | _ => exact ⟨h, fun _ => ⟨rfl, rfl⟩⟩

theorem attr?_keepAttrs_isUsed (qualifiers : List String) (e : Element) :
    (e.keepAttrs (isUsed qualifiers)).attr? "xml:space" = e.attr? "xml:space" := by
  refine Element.attr?_keepAttrs fun a ha => ?_
  rw [isUsed, QName.isSpelled_iff.1 ha]
  rfl

end Builtin

namespace Forest.IsSteady

variable {f : Forest NodeKind} {around : Bool}

theorem front (h : f.IsSteady around) (above : List NodeKind) :
    (f.settle (Edit.settle frontEdits) above).IsSteady around where
  kinds := forall_mem_settle (fun _ _ _ hk hs => settle_frontEdits hs ▸ (steady_frontKind hk _).1)
    h.kinds
  read := h.read.settle fun kind hk _ _ hs =>
    settle_frontEdits hs ▸ (steady_frontKind (h.kinds kind hk) _).2

theorem tidied (h : f.IsSteady around) (top : Bool) :
    (f.rebuild Builtin.tidied top).IsSteady around := by
  have hdown : ∀ top kind below, kind.IsSteady → (∀ x ∈ below.preorder, x.IsSteady) →
      ∀ x ∈ (Builtin.tidied top kind below).preorder, x.IsSteady := fun top kind below =>
    forall_mem_tidied fun _ _ hn hg hc hcan => isSteady_handDown hn hg hc hcan
  exact ⟨forall_mem_rebuild hdown h.kinds,
    h.read.rebuild (fun _ _ _ _ hk _ => allReread_tidied hk) hdown h.kinds⟩

theorem withoutUnused (h : f.IsSteady around) : (withoutUnused f).IsSteady around where
  kinds := forall_mem_editFirst (fun e he =>
    he.of_attr? ((e.within_keepAttrs _).isChecked he.readable) rfl (attr?_keepAttrs_isUsed _ e))
    h.kinds
  read := h.read.editFirst fun e => NodeKind.sameBlanks_element rfl (attr?_keepAttrs_isUsed _ e)

theorem sorted (h : f.IsSteady around) (above : List NodeKind) :
    (f.settle (Edit.settle [sortEdit]) above).IsSteady around := by
  have hsorted : ∀ above kind kind', Edit.settle [sortEdit] above kind = some kind' →
      kind' = sortedKind kind := fun above kind kind' hs =>
    Option.some.inj (hs.symm.trans (settle_sortEdit above kind))
  exact ⟨forall_mem_settle (fun _ _ _ hk hs => hsorted _ _ _ hs ▸ (steady_sortedKind hk).1) h.kinds,
    h.read.settle fun kind hk _ _ hs => hsorted _ _ _ hs ▸ (steady_sortedKind (h.kinds kind hk)).2⟩

/-- What the preset leaves is read again, if what it was given is. -/
theorem presetForest (h : f.IsSteady around) : (presetForest f).IsSteady around :=
  ((h.front [.root]).tidied true).withoutUnused.sorted [.root]

end Forest.IsSteady

/-! ## From one pass to the next -/

namespace Engine

variable {engine : Engine} {s : String} {d : Document} {multipass : Bool}

/-- A pass hands on the trees that it has built: what the preset leaves of a document is written, and
read from the text with texts that stand side by side as one text, if the names that were read are
names, no instruction is named like a declaration and no group says that blanks do not count in
it. -/
theorem parse_write_of_apply (hc : ofConfig { multipass } registry = .ok engine)
    (hs : parse s = .ok d) (hn : d.payloads.IsNamed) (hx : d.payloads.HasNoXml)
    (hg : d.payloads.GroupsKeepBlanks) :
    ∃ d' text d'', (engine.pipeline.apply d).outcome = .ok d' ∧ write {} d' = .ok text ∧
      (engine.optimizeOnce s).outcome = .ok text ∧ parse text = .ok d'' ∧
      d''.declaration = d'.declaration ∧ d''.doctype = d'.doctype ∧
      d''.payloads = d'.payloads.joined := by
  obtain rfl := engine_of_preset hc
  obtain ⟨d', text, ha, ho, hd', hpayloads⟩ := exists_optimizeOnce hs (passBudget multipass)
  have hsteady : d.payloads.IsSteady false :=
    ⟨fun kind hk => ⟨(isReadableTree_of_parse hs hn).readable kind hk, hg kind hk,
      fun content he => hx content (he ▸ hk)⟩,
      Forest.allReread_iff.2 ((denotes_of_parse hs).1.reread_eq hx)⟩
  have hsteady' : d'.payloads.IsSteady false := hpayloads ▸ hsteady.presetForest
  have hreadable : d'.payloads.IsReadable := fun kind hk => (hsteady'.kinds kind hk).readable
  have hx' : d'.payloads.HasNoXml := fun content hm => (hsteady'.kinds _ hm).not_xml content rfl
  obtain ⟨_, d'', hw, hr, -, hdeclaration, hdoctype, hjoined⟩ :=
    exists_parse_write hd'.sound.linked hd'.sound.shaped hd'.hasReadableProlog
      (hd'.isReadableTree hreadable) hx' {}
  obtain rfl := Except.ok.inj (hw.symm.trans hd'.write)
  rw [hsteady'.read.joined.reread_eq] at hjoined
  exact ⟨d', _, d'', ha, hw, ho, hr, hdeclaration, hdoctype, hjoined⟩

/-- A blank text below a group in which blanks count is read again. -/
theorem parse_write_of_apply_of_group : ∃ engine d,
    ofConfig { multipass := true } registry = .ok engine ∧
    parse "<svg><g xml:space=\"preserve\"><b> </b></g></svg>" = .ok d ∧
    d.payloads.IsNamed ∧ d.payloads.HasNoXml ∧ d.payloads.GroupsKeepBlanks ∧
    ∃ d' d'', (engine.pipeline.apply d).outcome = .ok d' ∧
      write {} d' = .ok "<svg><b xml:space=\"preserve\"> </b></svg>" ∧
      parse "<svg><b xml:space=\"preserve\"> </b></svg>" = .ok d'' ∧
      d''.payloads = d'.payloads.joined := by
  obtain ⟨d, hs, hpayloads⟩ : ∃ d,
      parse "<svg><g xml:space=\"preserve\"><b> </b></g></svg>" = .ok d ∧
        d.payloads = .cons (.element (Element.named "svg")) (.cons
          (.element ⟨QName.ofString "g", [Attribute.ofStrings "xml:space" "preserve"]⟩)
          (.cons (.element (Element.named "b")) (.cons (.text " ") .nil .nil) .nil) .nil) .nil :=
    ⟨_, rfl, rfl⟩
  have hn : d.payloads.IsNamed := by
    rw [hpayloads]
    decide
  have hx : d.payloads.HasNoXml := by
    rw [hpayloads]
    decide
  have hg : d.payloads.GroupsKeepBlanks := by
    rw [hpayloads]
    decide
  obtain ⟨d', text, d'', ha, hw, ho, hr, -, -, hjoined⟩ :=
    parse_write_of_apply (ofConfig_preset true) hs hn hx hg
  have hpass : ((ofPreset (passBudget true)).optimizeOnce
      "<svg><g xml:space=\"preserve\"><b> </b></g></svg>").outcome =
        .ok "<svg><b xml:space=\"preserve\"> </b></svg>" :=
    Outcome.eq_ok_of_toOption (by decide +kernel)
  obtain rfl := Except.ok.inj (ho.symm.trans hpass)
  exact ⟨_, d, ofConfig_preset true, hs, hn, hx, hg, d', d'', ha, hw, hr, hjoined⟩

/-- A group in which blanks do not count hands this down to the text inside it, in which they did. -/
theorem parse_write_of_apply_loses_blanks : ∃ engine d d' d'',
    ofConfig {} registry = .ok engine ∧
    parse "<svg><g xml:space=\"default\"><text> </text></g></svg>" = .ok d ∧
    (engine.pipeline.apply d).outcome = .ok d' ∧
    write {} d' = .ok "<svg><text xml:space=\"default\"> </text></svg>" ∧
    parse "<svg><text xml:space=\"default\"> </text></svg>" = .ok d'' ∧
    NodeKind.text " " ∈ d'.payloads.preorder ∧ NodeKind.text " " ∉ d''.payloads.preorder := by
  obtain ⟨d, hs, hpayloads⟩ : ∃ d,
      parse "<svg><g xml:space=\"default\"><text> </text></g></svg>" = .ok d ∧
        d.payloads = .cons (.element (Element.named "svg")) (.cons
          (.element ⟨QName.ofString "g", [Attribute.ofStrings "xml:space" "default"]⟩)
          (.cons (.element (Element.named "text")) (.cons (.text " ") .nil .nil) .nil) .nil) .nil :=
    ⟨_, rfl, rfl⟩
  obtain ⟨d'', hr, hlost⟩ : ∃ d'', parse "<svg><text xml:space=\"default\"> </text></svg>" =
      .ok d'' ∧ NodeKind.text " " ∉ d''.payloads.preorder :=
    ⟨_, rfl, by decide +kernel⟩
  obtain ⟨d', text, ha, ho, hd', hpressed⟩ := exists_optimizeOnce hs 1
  have hpass : ((ofPreset 1).optimizeOnce
      "<svg><g xml:space=\"default\"><text> </text></g></svg>").outcome =
        .ok "<svg><text xml:space=\"default\"> </text></svg>" :=
    Outcome.eq_ok_of_toOption (by decide +kernel)
  obtain rfl := Except.ok.inj (ho.symm.trans hpass)
  refine ⟨_, d, d', d'', ofConfig_preset false, hs, ha, hd'.write, hr, ?_, hlost⟩
  rw [hpressed, hpayloads]
  decide +kernel

end Engine

end SvgPress
