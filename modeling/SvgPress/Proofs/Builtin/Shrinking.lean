import SvgPress.Proofs.Builtin.Preset
import SvgPress.Proofs.Css.Shortening

/-!
# Elements that get smaller

No plugin of the preset makes an element larger, but for paths whose data come out longer. What a
plugin has made short is short for the plugins after it and for the next pass: it stays as it is, or
it gets smaller.
-/

namespace SvgPress

open Builtin

/-! ## Attributes -/

namespace Attribute

theorem size_pos (a : Attribute) : 0 < a.size :=
  Nat.succ_pos _

/-- An attribute whose value is written as short as the preset writes colors. -/
structure IsShort (a : Attribute) : Prop where
  color : shortenColorAttribute a = a
  style : a.name.isSpelled "style" = true → Css.shortenStyleColors a.value = a.value

variable {a : Attribute} {value : String}

theorem size_shortenColorAttribute_le (a : Attribute) : (shortenColorAttribute a).size ≤ a.size := by
  rw [shortenColorAttribute]
  split_ifs
  · have hvalue := Css.valueSize_shorten_le a.value
    simp only [size]
    omega
  · exact Nat.le_refl _

theorem shortenColorAttribute_shortenColorAttribute (a : Attribute) :
    shortenColorAttribute (shortenColorAttribute a) = shortenColorAttribute a := by
  by_cases hcolor : (a.name.qualifier.isNone && Css.colorProperties.contains a.name.localPart) = true
  · rw [shortenColorAttribute, shortenColorAttribute, if_pos hcolor, if_pos hcolor,
      Css.shorten_shorten]
  · rw [shortenColorAttribute, shortenColorAttribute, if_neg hcolor, if_neg hcolor]

theorem name_shortenColorAttribute (a : Attribute) : (shortenColorAttribute a).name = a.name := by
  rw [shortenColorAttribute]
  split_ifs <;> rfl

/-- The value of an attribute that is no color is no concern of the plugin for colors. -/
theorem shortenColorAttribute_of_isSpelled {name : String} (h : a.name.isSpelled name = true)
    (hc : Css.colorProperties.contains (QName.ofString name).localPart = false) (value : String) :
    shortenColorAttribute { a with value } = { a with value } := by
  rw [shortenColorAttribute, if_neg]
  rw [QName.isSpelled_iff.1 h, hc, Bool.and_false]
  exact Bool.false_ne_true

end Attribute

namespace Element

variable {e e' : Element} {name value old : String} {keep : Attribute → Bool}

/-! ## Attributes that go or change -/

/-- The element has no other attributes, in the old order. -/
theorem size_le_of_sublist (hn : e'.name = e.name) (h : e'.attributes.Sublist e.attributes) :
    e'.size ≤ e.size := by
  have hle := sum_map_le_of_sublist h Attribute.size
  rw [size, size, hn]
  omega

theorem eq_of_sublist (hn : e'.name = e.name) (h : e'.attributes.Sublist e.attributes)
    (hs : e'.size = e.size) : e' = e := by
  have hattributes : e'.attributes = e.attributes := by
    refine eq_of_sublist_of_sum h Attribute.size_pos ?_
    rw [size, size, hn] at hs
    omega
  obtain ⟨name, attributes⟩ := e
  obtain ⟨name', attributes'⟩ := e'
  exact congrArg₂ mk hn hattributes

theorem setFirst_append {before after : List Attribute} {a : Attribute}
    (hb : ∀ b ∈ before, (!b.name.isSpelled name) = true) (ha : a.name.isSpelled name = true) :
    setFirst name value (before ++ a :: after) = before ++ { a with value } :: after := by
  induction before with
  | nil => rw [List.nil_append, setFirst, if_pos ha, List.nil_append]
  | cons b before ih =>
    obtain ⟨hb, hbefore⟩ := List.forall_mem_cons.1 hb
    rw [List.cons_append, setFirst, if_neg (by simpa using hb), ih hbefore, List.cons_append]

/-- Setting an attribute that an element has changes the value of one attribute. -/
theorem exists_setAttr (h : e.attr? name = some old) : ∃ before a after,
    e.attributes = before ++ a :: after ∧ a.name.isSpelled name = true ∧ a.value = old ∧
      ∀ value, e.setAttr name value = ⟨e.name, before ++ { a with value } :: after⟩ := by
  obtain ⟨a, hfind, rfl⟩ := Option.map_eq_some_iff.1 h
  obtain ⟨hspelled, before, after, hattributes, hbefore⟩ := List.find?_eq_some_iff_append.1 hfind
  refine ⟨before, a, after, hattributes, hspelled, rfl, fun value => ?_⟩
  rw [setAttr, hattributes, setFirst_append hbefore hspelled]

theorem size_setAttr (h : e.attr? name = some old) (value : String) :
    (e.setAttr name value).size + valueSize old = e.size + valueSize value := by
  obtain ⟨before, a, after, hattributes, -, rfl, hset⟩ := exists_setAttr h
  rw [hset, size, size, hattributes]
  simp only [List.map_append, List.map_cons, List.sum_append, List.sum_cons, Attribute.size]
  omega

theorem setAttr_self (h : e.attr? name = some old) : e.setAttr name old = e := by
  obtain ⟨before, a, after, hattributes, -, rfl, hset⟩ := exists_setAttr h
  rw [hset, ← hattributes]

theorem attr?_mem (h : e.attr? name = some old) :
    ∃ a ∈ e.attributes, a.name.isSpelled name = true ∧ a.value = old := by
  obtain ⟨before, a, after, hattributes, hspelled, hvalue, -⟩ := exists_setAttr h
  exact ⟨a, by simp [hattributes], hspelled, hvalue⟩

/-! ## Names -/

/-- The element has the name of the other one, and no attributes of names that this one does not
have, in the order that they have there. -/
structure Within (e' e : Element) : Prop where
  name : e'.name = e.name
  names : (e'.attributes.map (·.name)).Sublist (e.attributes.map (·.name))

theorem Within.refl (e : Element) : e.Within e :=
  ⟨rfl, List.Sublist.refl _⟩

theorem Within.trans {e₁ e₂ e₃ : Element} (h : e₁.Within e₂) (h' : e₂.Within e₃) : e₁.Within e₃ :=
  ⟨h.name.trans h'.name, h.names.trans h'.names⟩

theorem Within.of_sublist (hn : e'.name = e.name) (h : e'.attributes.Sublist e.attributes) :
    e'.Within e :=
  ⟨hn, h.map _⟩

theorem Within.isChecked (h : e'.Within e) (he : e.IsChecked) : e'.IsChecked where
  name := h.name ▸ he.name
  attributes a ha := by
    obtain ⟨b, hb, hname⟩ := List.mem_map.1 (h.names.subset (List.mem_map_of_mem ha))
    exact hname ▸ he.attributes b hb
  distinct := he.distinct.sublist h.names

theorem within_keepAttrs (e : Element) (keep : Attribute → Bool) : (e.keepAttrs keep).Within e :=
  .of_sublist rfl List.filter_sublist

theorem size_keepAttrs_le (e : Element) (keep : Attribute → Bool) :
    (e.keepAttrs keep).size ≤ e.size :=
  size_le_of_sublist rfl List.filter_sublist

theorem keepAttrs_of_size (h : (e.keepAttrs keep).size = e.size) : e.keepAttrs keep = e :=
  eq_of_sublist rfl List.filter_sublist h

/-! ## Attributes of another name -/

/-- Attributes of other names may go. -/
theorem attr?_keepAttrs (h : ∀ a : Attribute, a.name.isSpelled name = true → keep a = true) :
    (e.keepAttrs keep).attr? name = e.attr? name := by
  rw [attr?, attr?, keepAttrs, List.find?_filter]
  congr 2
  funext a
  cases hspelled : a.name.isSpelled name with
  | false => simp
  | true => simp [h a hspelled]

end Element

/-! ## What the plugins make of an element -/

namespace Builtin

variable {e : Element} {above : List NodeKind}

section Styles

theorem minifyElementStyle_cases (e : Element) :
    minifyElementStyle e = e ∨ minifyElementStyle e = e.removeAttr "style" ∨
      ∃ style, e.attr? "style" = some style ∧
        minifyElementStyle e = e.setAttr "style" (Css.minifyStyle style) := by
  unfold minifyElementStyle
  split
  · exact .inl rfl
  · rename_i style hstyle
    dsimp only
    split_ifs
    · exact .inr (.inl rfl)
    · exact .inr (.inr ⟨style, hstyle, rfl⟩)

theorem within_minifyElementStyle (e : Element) : (minifyElementStyle e).Within e := by
  rcases minifyElementStyle_cases e with h | h | ⟨style, hstyle, h⟩
  · rw [h]
    exact .refl e
  · rw [h]
    exact .of_sublist rfl List.eraseP_sublist
  · rw [h]
    exact ⟨rfl, by rw [Element.names_setAttr (Element.hasAttr_of_attr? hstyle)]⟩

/-- Minifying the style of an element makes it smaller, unless it changes nothing. -/
theorem size_minifyElementStyle (e : Element) : (minifyElementStyle e).size ≤ e.size ∧
    ((minifyElementStyle e).size = e.size → minifyElementStyle e = e) := by
  rcases minifyElementStyle_cases e with h | h | ⟨style, hstyle, h⟩
  · rw [h]
    exact ⟨Nat.le_refl _, fun _ => rfl⟩
  · rw [h]
    exact ⟨Element.size_le_of_sublist rfl List.eraseP_sublist,
      Element.eq_of_sublist rfl List.eraseP_sublist⟩
  · have hsize := Element.size_setAttr hstyle (Css.minifyStyle style)
    have hsublist := Css.minifyStyle_sublist style
    have hle : valueSize (Css.minifyStyle style) ≤ valueSize style :=
      quotedSize_le_of_sublist hsublist
    rw [h]
    refine ⟨by omega, fun hs => ?_⟩
    rw [eq_of_sublist_of_valueSize hsublist (by omega), Element.setAttr_self hstyle]

end Styles

section Colors

/-- The element with the colors in its attributes in short notation. -/
def recolored (e : Element) : Element :=
  { e with attributes := e.attributes.map shortenColorAttribute }

theorem names_recolored (e : Element) :
    (recolored e).attributes.map (·.name) = e.attributes.map (·.name) := by
  rw [recolored, List.map_map]
  exact List.map_congr_left fun a _ => a.name_shortenColorAttribute

theorem within_recolored (e : Element) : (recolored e).Within e :=
  ⟨rfl, names_recolored e ▸ List.Sublist.refl _⟩

/-- The colors in attributes are shortened before those in the style. -/
theorem shortenElementColors_cases (e : Element) :
    ((recolored e).attr? "style" = none ∧ shortenElementColors e = recolored e) ∨
      ∃ style, (recolored e).attr? "style" = some style ∧
        shortenElementColors e =
          (recolored e).setAttr "style" (Css.shortenStyleColors style) := by
  unfold shortenElementColors
  rw [← recolored]
  dsimp only
  split
  · rename_i hnone
    exact .inl ⟨hnone, rfl⟩
  · rename_i style hstyle
    exact .inr ⟨style, hstyle, rfl⟩

theorem names_shortenElementColors (e : Element) :
    (shortenElementColors e).attributes.map (·.name) = e.attributes.map (·.name) := by
  rcases shortenElementColors_cases e with ⟨-, h⟩ | ⟨style, hstyle, h⟩
  · rw [h, names_recolored]
  · rw [h, Element.names_setAttr (Element.hasAttr_of_attr? hstyle), names_recolored]

theorem within_shortenElementColors (e : Element) : (shortenElementColors e).Within e :=
  ⟨name_shortenElementColors e, names_shortenElementColors e ▸ List.Sublist.refl _⟩

theorem size_shortenElementColors_le (e : Element) : (shortenElementColors e).size ≤ e.size := by
  have hfirst : (recolored e).size ≤ e.size := by
    have hsum : ((e.attributes.map shortenColorAttribute).map Attribute.size).sum ≤
        (e.attributes.map Attribute.size).sum := by
      rw [List.map_map]
      exact List.sum_le_sum fun a _ => a.size_shortenColorAttribute_le
    exact Nat.succ_le_succ (Nat.add_le_add_left hsum _)
  rcases shortenElementColors_cases e with ⟨-, h⟩ | ⟨style, hstyle, h⟩
  · rw [h]
    exact hfirst
  · have hsize := Element.size_setAttr hstyle (Css.shortenStyleColors style)
    have hvalue := Css.valueSize_shortenStyleColors_le style
    rw [h]
    omega

/-- Short colors are left as they are. -/
theorem shortenElementColors_of_isShort (h : ∀ a ∈ e.attributes, a.IsShort) :
    shortenElementColors e = e := by
  have hfirst : recolored e = e := by
    rw [recolored, List.map_congr_left fun a ha => (h a ha).color, List.map_id']
  rcases shortenElementColors_cases e with ⟨-, hc⟩ | ⟨style, hstyle, hc⟩
  · rw [hc, hfirst]
  · rw [hfirst] at hstyle hc
    obtain ⟨a, ha, hspelled, rfl⟩ := Element.attr?_mem hstyle
    rw [hc, (h a ha).style hspelled, Element.setAttr_self hstyle]

/-- Shortened colors are short. -/
theorem isShort_shortenElementColors (h : e.IsChecked) :
    ∀ a ∈ (shortenElementColors e).attributes, a.IsShort := by
  have hcolor : ∀ a ∈ (recolored e).attributes, shortenColorAttribute a = a := by
    intro a ha
    obtain ⟨b, -, rfl⟩ := List.mem_map.1 ha
    exact b.shortenColorAttribute_shortenColorAttribute
  rcases shortenElementColors_cases e with ⟨hnone, hc⟩ | ⟨style, hstyle, hc⟩
  · rw [hc]
    refine fun a ha => ⟨hcolor a ha, fun hspelled => ?_⟩
    rw [Element.attr?, Option.map_eq_none_iff, List.find?_eq_none] at hnone
    exact absurd hspelled (hnone a ha)
  · obtain ⟨before, a, after, hattributes, hspelled, rfl, hset⟩ := Element.exists_setAttr hstyle
    have hdistinct := ((within_recolored e).isChecked h).distinct
    rw [hattributes, List.map_append, List.map_cons, List.nodup_middle, List.nodup_cons,
      ← List.map_append] at hdistinct
    have hother : ∀ b ∈ before ++ after, b.IsShort := by
      intro b hb
      have hmem : b ∈ (recolored e).attributes := by
        rw [hattributes]
        rcases List.mem_append.1 hb with hb | hb
        · exact List.mem_append_left _ hb
        · exact List.mem_append_right _ (List.mem_cons_of_mem _ hb)
      refine ⟨hcolor b hmem, fun hs => absurd ?_ hdistinct.1⟩
      rw [QName.isSpelled_iff.1 hspelled, ← QName.isSpelled_iff.1 hs]
      exact List.mem_map_of_mem hb
    rw [hc, hset]
    intro b hb
    rcases List.mem_append.1 hb with hb | hb
    · exact hother b (List.mem_append_left _ hb)
    · rcases List.mem_cons.1 hb with rfl | hb
      · exact ⟨Attribute.shortenColorAttribute_of_isSpelled hspelled (by decide) _,
          fun _ => Css.shortenStyleColors_shortenStyleColors _⟩
      · exact hother b (List.mem_append_right _ hb)

end Colors

section Paths

/-- The data of a path, and what they become, if they can be read. -/
def pathChange? (e : Element) : Option (String × String) :=
  if e.isNamed "path" then
    (e.attr? "d").bind fun data => (Path.parse data).toOption.map fun segments =>
      (data, Path.print defaultPrecision segments)
  else none

theorem shortenPath_cases (e : Element) :
    (pathChange? e = none ∧ shortenPath defaultPrecision e = e) ∨
      ∃ data data', pathChange? e = some (data, data') ∧ e.attr? "d" = some data ∧
        shortenPath defaultPrecision e = e.setAttr "d" data' := by
  unfold pathChange? shortenPath
  split_ifs
  · cases hdata : e.attr? "d" with
    | none => exact .inl ⟨rfl, rfl⟩
    | some data =>
      cases hparse : Path.parse data with
      | error cause => exact .inl ⟨by simp [hparse, Except.toOption], by simp [hparse]⟩
      | ok segments =>
        exact .inr ⟨data, Path.print defaultPrecision segments,
          by simp [hparse, Except.toOption], rfl, by simp [hparse]⟩
  · exact .inl ⟨rfl, rfl⟩

theorem names_shortenPath (precision : Nat) (e : Element) :
    (shortenPath precision e).attributes.map (·.name) = e.attributes.map (·.name) := by
  rcases shortenPath_eq precision e with he | ⟨data, data', hdata, he⟩ <;> rw [he]
  exact Element.names_setAttr (Element.hasAttr_of_attr? hdata) _

theorem within_shortenPath (e : Element) : (shortenPath defaultPrecision e).Within e :=
  ⟨name_shortenPath defaultPrecision e,
    names_shortenPath defaultPrecision e ▸ List.Sublist.refl _⟩

theorem size_shortenPath_le (h : ∀ x ∈ pathChange? e, valueSize x.2 ≤ valueSize x.1) :
    (shortenPath defaultPrecision e).size ≤ e.size := by
  rcases shortenPath_cases e with ⟨-, hp⟩ | ⟨data, data', hchange, hdata, hp⟩
  · rw [hp]
  · have hsize := Element.size_setAttr hdata data'
    have hle := h _ hchange
    rw [hp]
    dsimp only at hle
    omega

theorem shortenPath_of_size (h : ∀ x ∈ pathChange? e, x.2 = x.1 ∨ valueSize x.2 < valueSize x.1)
    (hs : (shortenPath defaultPrecision e).size = e.size) : shortenPath defaultPrecision e = e := by
  rcases shortenPath_cases e with ⟨-, hp⟩ | ⟨data, data', hchange, hdata, hp⟩
  · exact hp
  · have hsize := Element.size_setAttr hdata data'
    rw [hp] at hs ⊢
    rcases h _ hchange with heq | hlt
    · dsimp only at heq
      rw [heq, Element.setAttr_self hdata]
    · dsimp only at hlt
      omega

theorem isShort_shortenPath (h : ∀ a ∈ e.attributes, a.IsShort) :
    ∀ a ∈ (shortenPath defaultPrecision e).attributes, a.IsShort := by
  rcases shortenPath_cases e with ⟨-, hp⟩ | ⟨data, data', -, hdata, hp⟩
  · rwa [hp]
  · obtain ⟨before, a, after, hattributes, hspelled, -, hset⟩ := Element.exists_setAttr hdata
    rw [hattributes] at h
    rw [hp, hset]
    intro b hb
    rcases List.mem_append.1 hb with hb | hb
    · exact h b (List.mem_append_left _ hb)
    · rcases List.mem_cons.1 hb with rfl | hb
      · refine ⟨Attribute.shortenColorAttribute_of_isSpelled hspelled (by decide) _, fun hs => ?_⟩
        rw [QName.not_isSpelled (by decide) hspelled] at hs
        exact absurd hs Bool.false_ne_true
      · exact h b (List.mem_append_right _ (List.mem_cons_of_mem _ hb))

end Paths

section Front

/-- What the plugins that visit parents first, up to the one for paths, make of an element that
stays. -/
def trimmedElement (above : List NodeKind) (e : Element) : Element :=
  withoutDefaults above (shortenElementColors
    (minifyElementStyle (e.keepAttrs fun a => !isEditorAttribute a)))

/-- What the plugins that visit parents first make of an element that stays. -/
def frontElement (above : List NodeKind) (e : Element) : Element :=
  shortenPath defaultPrecision (trimmedElement above e)

theorem within_trimmedElement (above : List NodeKind) (e : Element) :
    (trimmedElement above e).Within e :=
  (Element.within_keepAttrs _ _).trans <| (within_shortenElementColors _).trans <|
    (within_minifyElementStyle _).trans (e.within_keepAttrs _)

theorem within_frontElement (above : List NodeKind) (e : Element) :
    (frontElement above e).Within e :=
  (within_shortenPath _).trans (within_trimmedElement above e)

/-- What is left of an element whose names are distinct has short colors. -/
theorem isShort_frontElement (h : e.IsChecked) :
    ∀ a ∈ (frontElement above e).attributes, a.IsShort := by
  have hwithin : (minifyElementStyle (e.keepAttrs fun a => !isEditorAttribute a)).Within e :=
    (within_minifyElementStyle _).trans (e.within_keepAttrs _)
  have hcolors := isShort_shortenElementColors (hwithin.isChecked h)
  exact isShort_shortenPath fun a ha => hcolors a (List.filter_sublist.subset ha)

/-! ### Other attributes meanwhile -/

theorem attr?_minifyElementStyle {name : String} (hne : "style" ≠ name) (e : Element) :
    (minifyElementStyle e).attr? name = e.attr? name := by
  rcases minifyElementStyle_cases e with h | h | ⟨style, hstyle, h⟩
  · rw [h]
  · rw [h, Element.attr?_removeAttr hne]
  · rw [h, Element.attr?_setAttr hne]

theorem attr?_shortenElementColors {name : String} (hne : "style" ≠ name)
    (hcolor : Css.colorProperties.contains (QName.ofString name).localPart = false) (e : Element) :
    (shortenElementColors e).attr? name = e.attr? name := by
  have hfirst : (recolored e).attr? name = e.attr? name := by
    rw [Element.attr?, Element.attr?, recolored, List.find?_map, Option.map_map]
    have hnames : ((fun a : Attribute => a.name.isSpelled name) ∘ shortenColorAttribute) =
        fun a => a.name.isSpelled name :=
      funext fun a => by rw [Function.comp_apply, Attribute.name_shortenColorAttribute]
    rw [hnames]
    refine Option.map_congr fun a ha => congrArg Attribute.value ?_
    exact Attribute.shortenColorAttribute_of_isSpelled (a := a) (by simpa using List.find?_some ha)
      hcolor a.value
  rcases shortenElementColors_cases e with ⟨-, h⟩ | ⟨style, hstyle, h⟩
  · rw [h, hfirst]
  · rw [h, Element.attr?_setAttr hne, hfirst]

theorem attr?_withoutDefaults {name : String} (h : (QName.ofString name).qualifier.isSome = true ∨
      ∀ element value, isDefaultValue element (QName.ofString name).localPart value = false)
    (above : List NodeKind) (e : Element) :
    (withoutDefaults above e).attr? name = e.attr? name := by
  refine Element.attr?_keepAttrs fun a ha => ?_
  rw [QName.isSpelled_iff.1 ha, Bool.or_eq_true]
  refine h.imp_right fun hdefault => ?_
  simp only [Bool.not_eq_true', List.contains_eq_mem, decide_eq_false_iff_not, List.mem_map,
    List.mem_filter, not_exists, not_and]
  rintro b ⟨-, hb⟩ hlocal
  simp [hlocal, hdefault] at hb

/-- Only the plugin for paths changes path data. -/
theorem pathChange?_trimmedElement (above : List NodeKind) (e : Element) :
    pathChange? (trimmedElement above e) = pathChange? e := by
  have hnever : ∀ element value, isDefaultValue element (QName.ofString "d").localPart value =
      false := by
    intro element value
    simp [QName.ofString, Text.splitFirst, isDefaultValue, commonDefaults, elementDefaults]
  have hdata : (trimmedElement above e).attr? "d" = e.attr? "d" := by
    rw [trimmedElement, attr?_withoutDefaults (.inr hnever),
      attr?_shortenElementColors (by decide) (by decide), attr?_minifyElementStyle (by decide)]
    refine Element.attr?_keepAttrs fun a ha => ?_
    have hname : a.name = ⟨none, "d"⟩ := QName.isSpelled_iff.1 ha
    simp [isEditorAttribute, hasEditorQualifier, hname]
  rw [pathChange?, pathChange?, Element.isNamed, Element.isNamed,
    (within_trimmedElement above e).name, hdata]

/-! ### Sizes -/

theorem size_trimmedElement_le (above : List NodeKind) (e : Element) :
    (trimmedElement above e).size ≤ e.size :=
  le_trans (Element.size_keepAttrs_le _ _) <| le_trans (size_shortenElementColors_le _) <|
    le_trans (size_minifyElementStyle _).1 (e.size_keepAttrs_le _)

/-- An element with short colors gets smaller, unless it stays as it is. -/
theorem trimmedElement_of_size (hshort : ∀ a ∈ e.attributes, a.IsShort)
    (hs : (trimmedElement above e).size = e.size) : trimmedElement above e = e := by
  have h₁ := e.size_keepAttrs_le fun a => !isEditorAttribute a
  obtain ⟨h₂, hstyle⟩ := size_minifyElementStyle (e.keepAttrs fun a => !isEditorAttribute a)
  have h₃ := size_shortenElementColors_le
    (minifyElementStyle (e.keepAttrs fun a => !isEditorAttribute a))
  have h₄ : (trimmedElement above e).size ≤ _ := Element.size_keepAttrs_le _ _
  -- Nothing gets larger, so nothing may get smaller on the way either.
  have hkept : (e.keepAttrs fun a => !isEditorAttribute a) = e :=
    Element.keepAttrs_of_size (by omega)
  have hminified : minifyElementStyle e = e := by
    rw [hkept] at h₂ h₃ h₄ hstyle
    exact hstyle (by omega)
  rw [trimmedElement, hkept, hminified, shortenElementColors_of_isShort hshort] at hs ⊢
  exact Element.keepAttrs_of_size hs

/-- An element does not get larger, unless path data do. -/
theorem size_frontElement_le (h : ∀ x ∈ pathChange? e, valueSize x.2 ≤ valueSize x.1) :
    (frontElement above e).size ≤ e.size :=
  le_trans (size_shortenPath_le (pathChange?_trimmedElement above e ▸ h))
    (size_trimmedElement_le above e)

/-- An element with short colors gets smaller, unless it stays as it is or its path data change
without getting smaller. -/
theorem frontElement_of_size (hshort : ∀ a ∈ e.attributes, a.IsShort)
    (h : ∀ x ∈ pathChange? e, x.2 = x.1 ∨ valueSize x.2 < valueSize x.1)
    (hs : (frontElement above e).size = e.size) : frontElement above e = e := by
  have hle : ∀ x ∈ pathChange? (trimmedElement above e), valueSize x.2 ≤ valueSize x.1 := by
    rw [pathChange?_trimmedElement]
    exact fun x hx => (h x hx).elim (fun he => he ▸ Nat.le_refl _) Nat.le_of_lt
  have hpath := size_shortenPath_le hle
  have htrimmed := size_trimmedElement_le above e
  rw [frontElement] at hs ⊢
  have hsame : trimmedElement above e = e := trimmedElement_of_size hshort (by omega)
  rw [hsame] at hs ⊢
  exact shortenPath_of_size h hs

end Front

end Builtin

end SvgPress
