import SvgPress.Proofs.Builtin.Inheriting
import SvgPress.Proofs.Walk.Amending

/-!
# Default values that go

Whether a default may go depends on what is above it, and there the same walk has already taken
defaults away. An element above that still has an inherited property after the walk is one that
gives it another value than the initial one, or resets such a value. So the walk takes a property
away exactly where nothing from the root down has ever given it another value, and every node ends
up with the values it had.
-/

namespace SvgPress

open Document Relation

/-! ## Initial values -/

namespace Builtin

/-- The initial value of an inherited property. -/
def initialValue : String → String
  | "fill-opacity" | "stroke-opacity" | "stroke-width" => "1"
  | "stroke-linecap" => "butt"
  | "stroke-linejoin" => "miter"
  | "stroke-miterlimit" => "4"
  | "fill-rule" | "clip-rule" => "nonzero"
  | "font-style" | "font-weight" => "normal"
  | "text-anchor" => "start"
  | "visibility" => "visible"
  | _ => ""

/-- The value that a text denotes for a property: the normal weight of a font is also a number. -/
def valueOf (property text : String) : String :=
  if property = "font-weight" ∧ Text.trimSpace text = "400" then "normal"
  else Text.trimSpace text

/-- A text denotes the initial value of a property. -/
def IsInitial (property text : String) : Prop :=
  valueOf property text = initialValue property

instance (property text : String) : Decidable (IsInitial property text) :=
  inferInstanceAs (Decidable (_ = _))

/-- The text that a payload has for an unqualified attribute. -/
def own? (property : String) (kind : NodeKind) : Option String :=
  (kind.attributes.find? (·.name == ⟨none, property⟩)).map (·.value)

/-- One of the payloads gives a property another value than the initial one. -/
def departs (line : List NodeKind) (property : String) : Bool :=
  line.any fun kind => (own? property kind).any (!IsInitial property ·)

/-- Whether an attribute of an element of the given name can go, where it is known which attributes
count as set above the element. -/
def isDispensable (set : String → Bool) (elementName : String) (a : Attribute) : Bool :=
  a.name.qualifier.isNone &&
    isDefaultValue elementName a.name.localPart (Text.trimSpace a.value) &&
    !(inheritedProperties.contains a.name.localPart && set a.name.localPart)

end Builtin

namespace Document

/-- The value that a property has at a node: that of the nearest element with the attribute, from
the node upwards, and the initial value if there is none. -/
def effectiveValue (d : Document) (x : NodeId) (property : String) : String :=
  ((d.inheritedAttr? x ⟨none, property⟩).map (Builtin.valueOf property)).getD
    (Builtin.initialValue property)

/-- Whether an attribute of an element is a default, and no element above gives the property another
value than the initial one, if the property is inherited. -/
def isSuperfluous (d : Document) (x : NodeId) (e : Element) (a : Attribute) : Bool :=
  Builtin.isDispensable (Builtin.departs (d.kindsAbove x)) e.name.localPart a

/-- The second document is the first one without the superfluous attributes below the root. -/
structure Lightened (d d' : Document) : Prop where
  declaration : d'.declaration = d.declaration
  doctype : d'.doctype = d.doctype
  parent? : ∀ x, d'.parent? x = d.parent? x
  children : ∀ x, d'.children x = d.children x
  kind?_other : ∀ x, x ∉ d.descendants .root ∨ d.element? x = none → d'.kind? x = d.kind? x
  element? : ∀ x ∈ d.descendants .root, ∀ e, d.element? x = some e →
    d'.element? x = some (e.keepAttrs fun a => !d.isSuperfluous x e a)

end Document

namespace Builtin

variable {property text : String} {kind : NodeKind} {above line : List NodeKind} {e : Element}
  {a : Attribute}

/-- The initial values are the defaults of the inherited properties. -/
theorem isDefaultValue_iff (hp : property ∈ inheritedProperties) (elementName : String) :
    isDefaultValue elementName property (Text.trimSpace text) = true ↔ IsInitial property text := by
  have hlisted : ∀ p ∈ inheritedProperties,
      (commonDefaults.filter (·.1 == p)).map Prod.snd =
        if p = "font-weight" then ["normal", "400"] else [initialValue p] := by decide
  have helements : ∀ entry ∈ elementDefaults, entry.2.1 ∉ inheritedProperties := by decide
  have hmem : isDefaultValue elementName property (Text.trimSpace text) = true ↔
      Text.trimSpace text ∈ (commonDefaults.filter (·.1 == property)).map Prod.snd := by
    have hnone : (elementName, property, Text.trimSpace text) ∉ elementDefaults :=
      fun hm => helements _ hm hp
    simp [isDefaultValue, hnone]
  rw [hmem, hlisted property hp, IsInitial, valueOf]
  by_cases hweight : property = "font-weight"
  · subst hweight
    by_cases hnumber : Text.trimSpace text = "400"
    · simp [hnumber, initialValue]
    · simp [hnumber, initialValue]
  · simp [hweight]

/-! ## One element -/

theorem hasAttr_eq (hp : property ∈ inheritedProperties) (kind : NodeKind) :
    kind.hasAttr property = (own? property kind).isSome := by
  have hspelled : ∀ p ∈ inheritedProperties, QName.ofString p = ⟨none, p⟩ := by decide
  have hname : (fun a : Attribute => a.name.isSpelled property) =
      fun a => a.name == ⟨none, property⟩ := by
    funext a
    rw [Bool.eq_iff_iff, QName.isSpelled_iff, hspelled property hp, beq_iff_eq]
  rw [own?, Option.isSome_map, List.isSome_find?, NodeKind.hasAttr]
  cases kind with
  | element e => exact congrArg e.attributes.any hname
  | _ => rfl

theorem qualifier_of_isDispensable {set : String → Bool} {elementName : String}
    (h : isDispensable set elementName a = true) : a.name.qualifier = none := by
  simp only [isDispensable, Bool.and_eq_true, Option.isNone_iff_eq_none] at h
  exact h.1.1

theorem eq_of_qualifier {name : QName} (h : name.qualifier = none) :
    name = ⟨none, name.localPart⟩ := by
  rw [← h]

/-- The local names of the attributes that go. -/
def goingNames (above : List NodeKind) (e : Element) : List String :=
  (e.attributes.filter (isDispensable (setAbove above) e.name.localPart)).map (·.name.localPart)

theorem withoutDefaults_eq (above : List NodeKind) (e : Element) :
    withoutDefaults above e = e.keepAttrs fun a =>
      a.name.qualifier.isSome || !(goingNames above e).contains a.name.localPart :=
  rfl

/-- What goes goes by its local name, which is that of no other unqualified attribute. -/
theorem attributes_withoutDefaults (above : List NodeKind)
    (h : (e.attributes.map (·.name)).Nodup) : (withoutDefaults above e).attributes =
      e.attributes.filter fun a => !isDispensable (setAbove above) e.name.localPart a := by
  rw [withoutDefaults_eq, Element.keepAttrs]
  refine List.filter_congr fun a ha => ?_
  cases hgo : isDispensable (setAbove above) e.name.localPart a with
  | true =>
    have hmem : a.name.localPart ∈ goingNames above e :=
      List.mem_map_of_mem (List.mem_filter.2 ⟨ha, hgo⟩)
    simp [qualifier_of_isDispensable hgo, hmem]
  | false =>
    rw [Bool.not_false, Bool.or_eq_true, or_iff_not_imp_left, Bool.not_eq_true',
      List.contains_eq_mem, decide_eq_false_iff_not]
    intro hsome hmem
    obtain ⟨b, hb, hlocal⟩ := List.mem_map.1 hmem
    obtain ⟨hb, hother⟩ := List.mem_filter.1 hb
    have hname : b.name = a.name := by
      rw [eq_of_qualifier (Option.not_isSome_iff_eq_none.1 hsome), ← hlocal]
      exact eq_of_qualifier (qualifier_of_isDispensable hother)
    rw [List.inj_on_of_nodup_map h hb ha hname, hgo] at hother
    exact absurd hother (by simp)

/-- What is left could not go in the same place. -/
theorem withoutDefaults_withoutDefaults (above : List NodeKind) (e : Element) :
    withoutDefaults above (withoutDefaults above e) = withoutDefaults above e := by
  have hnone : goingNames above (withoutDefaults above e) = [] := by
    rw [goingNames, List.map_eq_nil_iff, List.filter_eq_nil_iff]
    intro a ha hgo
    rw [withoutDefaults_eq] at ha
    obtain ⟨ha, hkept⟩ := List.mem_filter.1 ha
    have hmem : a.name.localPart ∈ goingNames above e :=
      List.mem_map_of_mem (List.mem_filter.2 ⟨ha, hgo⟩)
    simp [qualifier_of_isDispensable hgo, hmem] at hkept
  rw [withoutDefaults_eq above (withoutDefaults above e), hnone]
  simp [Element.keepAttrs]

/-- Keeping some of the attributes, whose names differ, keeps the one of a name or leaves none. -/
theorem find?_filter_of_nodup {attributes : List Attribute}
    (h : (attributes.map (·.name)).Nodup) (keep : Attribute → Bool) (name : QName) :
    (attributes.filter keep).find? (·.name == name) =
      (attributes.find? (·.name == name)).filter keep := by
  induction attributes with
  | nil => rfl
  | cons a rest ih =>
    rw [List.map_cons, List.nodup_cons] at h
    by_cases hname : a.name = name
    · subst hname
      have hrest : (rest.filter keep).find? (·.name == a.name) = none := by
        rw [List.find?_eq_none]
        intro b hb
        rw [beq_iff_eq]
        exact fun hsame => h.1 (hsame ▸ List.mem_map_of_mem (List.mem_of_mem_filter hb))
      rw [List.find?_cons_of_pos (by simp), List.filter_cons]
      split_ifs with hkeep
      · rw [List.find?_cons_of_pos (by simp), Option.filter_some, if_pos hkeep]
      · rw [hrest, Option.filter_some, if_neg hkeep]
    · rw [List.find?_cons_of_neg (by simpa using hname), ← ih h.2, List.filter_cons]
      split_ifs
      · rw [List.find?_cons_of_neg (by simpa using hname)]
      · rfl

/-- A payload keeps what it gives an inherited property, unless it is the initial value and the
property is not set above. -/
theorem own?_defaultsEdit (hp : property ∈ inheritedProperties) (above : List NodeKind)
    (h : (kind.attributes.map (·.name)).Nodup) :
    own? property (defaultsEdit above kind).1 = (own? property kind).filter fun text =>
      setAbove above property || !IsInitial property text := by
  cases kind with
  | element e =>
    have hnames : (e.attributes.map (·.name)).Nodup := h
    have hdefault : ∀ value, isDefaultValue e.name.localPart property (Text.trimSpace value) =
        decide (IsInitial property value) := by
      intro value
      rw [Bool.eq_iff_iff, isDefaultValue_iff hp, decide_eq_true_iff]
    have hown : own? property (defaultsEdit above (.element e)).1 =
        ((e.attributes.find? (·.name == ⟨none, property⟩)).filter fun a =>
          !isDispensable (setAbove above) e.name.localPart a).map (·.value) := by
      rw [← find?_filter_of_nodup hnames, ← attributes_withoutDefaults above hnames]
      rfl
    rw [hown, own?, NodeKind.attributes]
    cases hfound : e.attributes.find? (·.name == ⟨none, property⟩) with
    | none => rfl
    | some a =>
      have hname : a.name = ⟨none, property⟩ := by simpa using List.find?_some hfound
      have hgo : (!isDispensable (setAbove above) e.name.localPart a) =
          (setAbove above property || !IsInitial property a.value) := by
        simp [isDispensable, hname, hdefault, hp, Bool.or_comm]
      rw [Option.filter_some, Option.map_some, Option.filter_some, hgo]
      split_ifs <;> rfl
  | _ => rfl

/-! ## From the root down -/

theorem setAbove_eq (hp : property ∈ inheritedProperties) (above : List NodeKind) :
    setAbove above property = (above.findSome? (own? property)).isSome := by
  rw [List.isSome_findSome?, setAbove]
  exact congrArg above.any (funext (hasAttr_eq hp))

theorem departs_cons (kind : NodeKind) (above : List NodeKind) (property : String) :
    departs (kind :: above) property =
      ((own? property kind).any (!IsInitial property ·) || departs above property) :=
  rfl

theorem isSome_of_departs (h : departs line property = true) :
    (line.findSome? (own? property)).isSome = true := by
  obtain ⟨kind, hkind, hother⟩ := List.any_eq_true.1 h
  rw [List.findSome?_isSome_iff]
  exact ⟨kind, hkind, Option.isSome_of_any hother⟩

/-- Where some payload gives a property another value than the initial one, the nearest payload with
the property still is the one it was; elsewhere none has it any more. -/
theorem findSome?_descend (hp : property ∈ inheritedProperties)
    (h : ∀ kind ∈ line, (kind.attributes.map (·.name)).Nodup) :
    (defaultsEdit.descend line).findSome? (own? property) =
      if departs line property then line.findSome? (own? property) else none := by
  induction line with
  | nil => rfl
  | cons kind above ih =>
    obtain ⟨hkind, habove⟩ := List.forall_mem_cons.1 h
    have hset := setAbove_eq hp (defaultsEdit.descend above)
    rw [Edit.descend, List.findSome?_cons, own?_defaultsEdit hp _ hkind, hset, ih habove,
      departs_cons, List.findSome?_cons]
    cases hdeparts : departs above property with
    | true =>
      -- A value above is to be reset, so the payload keeps what it has.
      rw [if_pos rfl, isSome_of_departs hdeparts, Bool.or_true, if_pos rfl]
      cases own? property kind <;> rfl
    | false =>
      rw [Bool.or_false, if_neg Bool.false_ne_true]
      cases own? property kind with
      | none => rfl
      | some text => by_cases htext : IsInitial property text <;> simp [htext, Option.filter]

/-- After the walk an inherited property is set above a node if it departed from its initial value
before. -/
theorem setAbove_descend (hp : property ∈ inheritedProperties)
    (h : ∀ kind ∈ line, (kind.attributes.map (·.name)).Nodup) :
    setAbove (defaultsEdit.descend line) property = departs line property := by
  rw [setAbove_eq hp, findSome?_descend hp h]
  split_ifs with hdeparts
  · rw [isSome_of_departs hdeparts, hdeparts]
  · rw [Bool.eq_false_iff.2 hdeparts]
    rfl

/-- Values that never depart from the initial one are the initial one. -/
theorem getD_of_not_departs (h : departs line property = false) :
    ((line.findSome? (own? property)).map (valueOf property)).getD (initialValue property) =
      initialValue property := by
  cases hfound : line.findSome? (own? property) with
  | none => rfl
  | some text =>
    obtain ⟨kind, hkind, htext⟩ := List.exists_of_findSome?_eq_some hfound
    have hall := List.any_eq_false.1 h kind hkind
    have htext' : IsInitial property text := by simpa [htext] using hall
    exact htext'

theorem stays_defaultsEdit : defaultsEdit.Stays := by
  intro above kind
  cases kind <;> rfl

theorem settled_defaultsEdit : defaultsEdit.Settled := by
  intro above kind
  cases kind with
  | element e => exact congrArg NodeKind.element (withoutDefaults_withoutDefaults above e)
  | _ => rfl

/-! ## Whole documents -/

variable {d d' : Document} {x : NodeId} {stage : Stage}

theorem Prepares.visit_removeDefaults (h : Prepares removeDefaults stage) :
    stage.rewriter.visit = fun d id => .ok (dropDefaults d id, .keep) := by
  obtain ⟨-, params, hprepare⟩ := h
  rw [← Except.ok.inj hprepare]

theorem editsOnly_removeDefaults (h : Prepares removeDefaults stage) : stage.EditsOnly :=
  Stage.editsOnly_of_visit fun d id => congrFun₂ h.visit_removeDefaults d id

theorem follows_of_prepares (h : Prepares removeDefaults stage) :
    stage.Follows Document.Sound defaultsEdit :=
  h.follows follows_removeDefaults

/-- No element from a node of a document that has been read upwards has two attributes of one
name. -/
theorem nodup_names_lineage {s : String} (hs : Markup.parse s = .ok d)
    (hx : ReflTransGen d.IsParent .root x) :
    ∀ kind ∈ d.lineage x, (kind.attributes.map (·.name)).Nodup := by
  have hd := Markup.sound_of_parse hs
  obtain ⟨f, hf⟩ := hd.linked.exists_grows
  refine hd.forall_mem_lineage List.nodup_nil (fun x hx => ?_) hx
  rw [hf.descendants_eq] at hx
  exact Markup.nodup_names_entries hs hf (d.entry x) (Forest.mem_map_entry.2 ⟨hx, rfl⟩)

theorem isDispensable_congr {set set' : String → Bool}
    (h : ∀ p ∈ inheritedProperties, set p = set' p) (elementName : String) (a : Attribute) :
    isDispensable set elementName a = isDispensable set' elementName a := by
  rw [isDispensable, isDispensable]
  by_cases hp : a.name.localPart ∈ inheritedProperties
  · rw [h _ hp]
  · rw [List.contains_eq_mem, decide_eq_false hp, Bool.false_and, Bool.false_and]

section

variable (hd : d.Sound) (h : Amended defaultsEdit d d')
include hd h

theorem effectiveValue_eq (hx : ReflTransGen d.IsParent .root x)
    (hnodup : ∀ kind ∈ d.lineage x, (kind.attributes.map (·.name)).Nodup)
    (hp : property ∈ inheritedProperties) :
    d'.effectiveValue x property = d.effectiveValue x property := by
  have hlook : ∀ a : Document, a.effectiveValue x property =
      (((a.lineage x).findSome? (own? property)).map (valueOf property)).getD
        (initialValue property) := fun _ => rfl
  rw [hlook, hlook, h.lineage_eq hd rfl hx, findSome?_descend hp hnodup]
  split_ifs with hdeparts
  · rfl
  · rw [getD_of_not_departs (Bool.eq_false_iff.2 hdeparts)]
    rfl

/-- The walk takes the superfluous attributes, which are told by the document before it. -/
theorem lightened_of_amended (hnodup : ∀ x, ReflTransGen d.IsParent .root x →
      ∀ kind ∈ d.lineage x, (kind.attributes.map (·.name)).Nodup) : Lightened d d' := by
  refine ⟨h.declaration, h.doctype, h.parent?, h.children, fun x hx => ?_, fun x hx e he => ?_⟩
  · by_cases hmem : x ∈ d.descendants .root
    · obtain ⟨above, hp, -⟩ := hd.linked.exists_parent hmem
      have hkind := h.kindOf_eq x hmem
      have hnone := hx.resolve_left (not_not.2 hmem)
      rw [← element?_kindOf] at hnone
      rw [kind?_eq_some_kindOf (holds_of_parent? hp),
        kind?_eq_some_kindOf (holds_of_parent? ((h.parent? x).trans hp)), hkind]
      cases hk : d.kindOf x with
      | element e => exact absurd hnone (by simp [hk, NodeKind.element?])
      | _ => rfl
    · exact h.kind?_other x hmem
  · obtain ⟨above, hp, habove⟩ := hd.linked.exists_parent hx
    have hline : d'.kindsAbove x = defaultsEdit.descend (d.kindsAbove x) := by
      rw [h.linked.kindsAbove_eq ((h.parent? x).trans hp), h.lineage_eq hd rfl habove,
        hd.linked.kindsAbove_eq hp]
    have hnames := hnodup x (habove.tail hp)
    rw [hd.linked.lineage_eq hp, ← hd.linked.kindsAbove_eq hp, List.forall_mem_cons,
      kindOf_of_element? he] at hnames
    obtain ⟨hown, hnames⟩ := hnames
    have hkeep : withoutDefaults (d'.kindsAbove x) e =
        e.keepAttrs fun a => !d.isSuperfluous x e a := by
      have hattributes := attributes_withoutDefaults (d'.kindsAbove x) hown
      simp only [hline, isDispensable_congr fun p hp => setAbove_descend hp hnames] at hattributes
      rw [hline]
      exact congrArg (Element.mk e.name) hattributes
    rw [← element?_kindOf, h.kindOf_eq x hx, kindOf_of_element? he, ← hkeep]
    rfl

end

end Builtin

/-! ## The plugin -/

/-- A pipeline that does nothing but remove defaults makes of every text that is a document the
document without its superfluous attributes, and nothing else of it changes. Every node ends up with
the same values of all inherited properties. When the pipeline is run again, it changes nothing. -/
theorem Pipeline.apply_removeDefaults (descriptors : List Descriptor) (p : Pipeline)
    (s : String) (d : Document)
    (hplugins : (descriptors.filter (·.enabled)).map (·.plugin) = [Builtin.removeDefaults])
    (hp : Pipeline.ofDescriptors descriptors = .ok p) (hs : Markup.parse s = .ok d) :
    ∃ d', (p.apply d).outcome = .ok d' ∧ d.Lightened d' ∧
      (∀ x ∈ d.descendants .root, ∀ property ∈ Builtin.inheritedProperties,
        d'.effectiveValue x property = d.effectiveValue x property) ∧
      (p.apply d').outcome = .ok d' := by
  obtain ⟨stage, hstage, -, happly⟩ := Pipeline.exists_stage_of_alone hplugins hp
    (by simp [Builtin.presetPlugins, Builtin.plugins]) (by decide)
  have hkeeps : ∀ d id d', (stage.rewriter.visit d id).outcome ≠ .ok (d', .remove) := by
    intro d id d'
    rw [hstage.visit_removeDefaults]
    simp [Report.ok]
  have hwalk : ∀ a : Document, a.Sound → ∃ a', (p.apply a).outcome = .ok a' ∧ a'.Sound ∧
      Amended Builtin.defaultsEdit a a' := by
    intro a ha
    obtain ⟨a', ho, ha', hamended⟩ := walk_amends (Builtin.follows_of_prepares hstage)
      (Builtin.editsOnly_removeDefaults hstage) hkeeps Builtin.stays_defaultsEdit ha
    exact ⟨a', (happly a).trans ho, ha', hamended⟩
  have hd := Markup.sound_of_parse hs
  obtain ⟨d', ho, hd', hamended⟩ := hwalk d hd
  obtain ⟨d'', ho', -, hagain⟩ := hwalk d' hd'
  obtain rfl := hamended.eq_of_settled hagain hd hd' rfl Builtin.settled_defaultsEdit
  refine ⟨_, ho, Builtin.lightened_of_amended hd hamended fun x => Builtin.nodup_names_lineage hs,
    fun x hx property => ?_, ho'⟩
  have hreach := (hd.linked.mem_descendants_iff.1 hx).to_reflTransGen
  exact Builtin.effectiveValue_eq hd hamended hreach (Builtin.nodup_names_lineage hs hreach)

/-- A default that resets a value from above stays; another one goes. -/
theorem Pipeline.apply_removeDefaults_of_reset : ∃ (p : Pipeline) (d : Document),
    Pipeline.ofDescriptors [.ofPlugin Builtin.removeDefaults] = .ok p ∧
    Markup.parse "<svg version='1.1'><g stroke-width='3'><g stroke-width='1'/></g></svg>" = .ok d ∧
    ∃ d', (p.apply d).outcome = .ok d' ∧
      Markup.write {} d' =
        .ok "<svg><g stroke-width=\"3\"><g stroke-width=\"1\"/></g></svg>" ∧
      d.Lightened d' ∧
      (∀ x ∈ d.descendants .root, ∀ property ∈ Builtin.inheritedProperties,
        d'.effectiveValue x property = d.effectiveValue x property) ∧
      (p.apply d').outcome = .ok d' := by
  obtain ⟨p, d, d₁, hp, hs, ho₁, hw⟩ : ∃ (p : Pipeline) (d d' : Document),
      Pipeline.ofDescriptors [.ofPlugin Builtin.removeDefaults] = .ok p ∧
      Markup.parse "<svg version='1.1'><g stroke-width='3'><g stroke-width='1'/></g></svg>" =
        .ok d ∧
      (p.apply d).outcome = .ok d' ∧
      Markup.write {} d' =
        .ok "<svg><g stroke-width=\"3\"><g stroke-width=\"1\"/></g></svg>" :=
    ⟨_, _, _, rfl, rfl, rfl, rfl⟩
  obtain ⟨d', ho, h⟩ := Pipeline.apply_removeDefaults _ p _ d rfl hp hs
  obtain rfl := Except.ok.inj (ho₁.symm.trans ho)
  exact ⟨p, d, hp, hs, _, ho, hw, h⟩

end SvgPress
