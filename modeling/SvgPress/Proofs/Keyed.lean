import Mathlib.Data.List.Nodup
import Mathlib.Logic.Function.Basic
import SvgPress.Element

/-!
# Attributes as an ordered map

A text spells one qualified name, and a name that was read from a text spells that text again. So
looking an attribute up by the two halves of a text is looking up the name that the text spells,
and an element whose names differ is a map from texts to values: `setAttr` and `takeAttr` change
it at one text. The list remembers an order besides, which both leave alone.
-/

namespace SvgPress

namespace QName

theorem ofString_injective : Function.Injective ofString :=
  Function.LeftInverse.injective full_ofString

/-- Texts that differ do not spell the same name. -/
theorem isSpelled_ofString (n m : String) : (ofString n).isSpelled m = true ↔ m = n := by
  rw [isSpelled_iff, ofString_injective.eq_iff, eq_comm]

theorem not_isSpelled {q : QName} {n m : String} (hne : n ≠ m) (h : q.isSpelled n = true) :
    q.isSpelled m = false := by
  rw [← Bool.not_eq_true, isSpelled_iff.1 h, isSpelled_ofString]
  exact hne.symm

/-- The name is one that a text spells: there is no colon in its qualifier, and none in its local
part unless it has a qualifier. -/
def IsRead (q : QName) : Prop :=
  ofString q.full = q

theorem isRead_ofString (s : String) : (ofString s).IsRead := by
  rw [IsRead, full_ofString]

end QName

/-- Attributes of different names are spelled differently. -/
theorem Attribute.nodup_full {l : List Attribute} (h : (l.map (·.name)).Nodup)
    (hr : ∀ a ∈ l, a.name.IsRead) : (l.map (·.name.full)).Nodup := by
  refine List.Nodup.of_map QName.ofString ?_
  rw [List.map_map]
  convert h using 1
  exact List.map_congr_left hr

namespace Element

variable {e : Element} {n m v : String}

/-! ## Look-ups -/

theorem attr?_nil (q : QName) (m : String) : (mk q []).attr? m = none := rfl

theorem attr?_cons (q : QName) (a : Attribute) (l : List Attribute) (m : String) :
    (mk q (a :: l)).attr? m =
      if a.name.isSpelled m then some a.value else (mk q l).attr? m := by
  rw [attr?, List.find?_cons]
  cases a.name.isSpelled m <;> rfl

theorem hasAttr_eq_isSome (e : Element) (m : String) : e.hasAttr m = (e.attr? m).isSome := by
  rw [hasAttr, attr?, Option.isSome_map, List.isSome_find?]

theorem hasAttr_of_attr? (h : e.attr? m = some v) : e.hasAttr m = true := by
  rw [hasAttr_eq_isSome, h, Option.isSome_some]

theorem hasAttr_iff_mem_names :
    e.hasAttr m = true ↔ QName.ofString m ∈ e.attributes.map (·.name) := by
  simp only [hasAttr, List.any_eq_true, List.mem_map, QName.isSpelled_iff]

/-- A look-up finds what stands under the name that the text spells. -/
theorem attr?_eq_some_iff (h : (e.attributes.map (·.name)).Nodup) :
    e.attr? m = some v ↔ Attribute.mk (QName.ofString m) v ∈ e.attributes := by
  obtain ⟨q, attributes⟩ := e
  induction attributes with
  | nil => simp [attr?_nil]
  | cons a rest ih =>
    obtain ⟨hnew, hrest⟩ := List.nodup_cons.1 h
    rw [attr?_cons, List.mem_cons]
    split_ifs with hspelled
    · -- The name stands here, so it does not stand further on.
      rw [QName.isSpelled_iff] at hspelled
      have hlater : Attribute.mk (QName.ofString m) v ∉ rest := fun hmem =>
        hnew (List.mem_map.2 ⟨_, hmem, hspelled.symm⟩)
      obtain ⟨name, value⟩ := a
      simp_all [eq_comm]
    · have hother : Attribute.mk (QName.ofString m) v ≠ a := by
        rintro rfl
        exact hspelled (QName.isSpelled_iff.2 rfl)
      simp [ih hrest, hother]

/-! ## Setting -/

/-- One attribute gets the value, at every text but one nothing changes. -/
theorem attr?_setFirst (q : QName) (l : List Attribute) (n v m : String) :
    (mk q (setFirst n v l)).attr? m = if m = n then some v else (mk q l).attr? m := by
  induction l with
  | nil => simp [setFirst, attr?_cons, attr?_nil, Attribute.ofStrings, QName.isSpelled_ofString]
  | cons a rest ih =>
    rw [setFirst]
    split_ifs with hspelled hm hm
    · rw [attr?_cons, hm, if_pos hspelled]
    · -- The text that is looked up is another one, so the attribute that changed is not meant.
      have ha : ¬ a.name.isSpelled m = true := by
        rwa [QName.isSpelled_iff.1 hspelled, QName.isSpelled_ofString]
      rw [attr?_cons, attr?_cons, if_neg ha, if_neg ha]
    · rw [attr?_cons, ih, if_pos hm, if_neg (hm ▸ hspelled)]
    · rw [attr?_cons, attr?_cons, ih, if_neg hm]

theorem attr?_setAttr_eq_update (e : Element) (n v : String) :
    (e.setAttr n v).attr? = Function.update e.attr? n (some v) := by
  funext m
  rw [Function.update_apply]
  exact attr?_setFirst e.name e.attributes n v m

/-- Other attributes may be set. -/
theorem attr?_setAttr (hne : n ≠ m) (v : String) : (e.setAttr n v).attr? m = e.attr? m := by
  rw [attr?_setAttr_eq_update, Function.update_of_ne hne.symm]

theorem hasAttr_setAttr (h : e.hasAttr n = true) (v m : String) :
    (e.setAttr n v).hasAttr m = e.hasAttr m := by
  rw [hasAttr_eq_isSome, hasAttr_eq_isSome, attr?_setAttr_eq_update, Function.update_apply]
  split_ifs with hm
  · rw [hm, ← hasAttr_eq_isSome, h, Option.isSome_some]
  · rfl

/-- The names keep their places, a new one comes last. -/
theorem names_setFirst (n v : String) (l : List Attribute) :
    (setFirst n v l).map (·.name) =
      if QName.ofString n ∈ l.map (·.name) then l.map (·.name)
      else l.map (·.name) ++ [QName.ofString n] := by
  induction l with
  | nil => simp [setFirst, Attribute.ofStrings]
  | cons a rest ih =>
    rw [setFirst]
    split_ifs with hspelled hmem hmem
    · rfl
    · exact absurd (by simp [QName.isSpelled_iff.1 hspelled]) hmem
    · rw [QName.isSpelled_iff, eq_comm] at hspelled
      rw [List.map_cons, ih, if_pos (by simpa [hspelled] using hmem), List.map_cons]
    · rw [List.map_cons, List.mem_cons, not_or] at hmem
      rw [List.map_cons, ih, if_neg hmem.2, List.map_cons, List.cons_append]

theorem names_setAttr_eq (e : Element) (n v : String) :
    (e.setAttr n v).attributes.map (·.name) =
      if e.hasAttr n then e.attributes.map (·.name)
      else e.attributes.map (·.name) ++ [QName.ofString n] := by
  simp only [hasAttr_iff_mem_names]
  exact names_setFirst n v e.attributes

theorem names_setAttr (h : e.hasAttr n = true) (v : String) :
    (e.setAttr n v).attributes.map (·.name) = e.attributes.map (·.name) := by
  rw [names_setAttr_eq, if_pos h]

theorem nodup_names_setAttr (h : (e.attributes.map (·.name)).Nodup) (n v : String) :
    ((e.setAttr n v).attributes.map (·.name)).Nodup := by
  rw [names_setAttr_eq]
  split_ifs with hmem
  · exact h
  · rw [hasAttr_iff_mem_names] at hmem
    refine h.append (List.nodup_singleton _) ?_
    rwa [List.disjoint_singleton]

theorem isRead_setAttr (h : ∀ a ∈ e.attributes, a.name.IsRead) (n v : String) :
    ∀ a ∈ (e.setAttr n v).attributes, a.name.IsRead := by
  intro a ha
  have hname : a.name ∈ (e.setAttr n v).attributes.map (·.name) := List.mem_map_of_mem ha
  have hnew : a.name ∈ e.attributes.map (·.name) ∨ a.name = QName.ofString n := by
    rw [names_setAttr_eq] at hname
    split_ifs at hname
    · exact .inl hname
    · simpa [List.mem_append] using hname
  rcases hnew with hold | hnew
  · obtain ⟨b, hb, hba⟩ := List.mem_map.1 hold
    exact hba ▸ h b hb
  · exact hnew ▸ QName.isRead_ofString n

/-! ## Removing -/

theorem takeFirst_eq (q : QName) (n : String) (l : List Attribute) :
    takeFirst n l = ((mk q l).attr? n, l.eraseP fun a => a.name.isSpelled n) := by
  induction l with
  | nil => rfl
  | cons a rest ih =>
    rw [takeFirst, attr?_cons, List.eraseP_cons, ih]
    cases a.name.isSpelled n <;> rfl

/-- What is removed is what a look-up finds. -/
theorem takeAttr_eq (e : Element) (n : String) : e.takeAttr n = (e.attr? n, e.removeAttr n) := by
  rw [takeAttr, takeFirst_eq e.name]
  rfl

/-- Other attributes may be removed. -/
theorem attr?_removeAttr (hne : n ≠ m) : (e.removeAttr n).attr? m = e.attr? m := by
  rw [attr?, attr?, removeAttr]
  rcases List.exists_or_eq_self_of_eraseP (fun a : Attribute => a.name.isSpelled n)
    e.attributes with he | ⟨a, before, after, -, hspelled, hattributes, he⟩
  · rw [he]
  · have ha := QName.not_isSpelled hne hspelled
    rw [he, hattributes]
    simp [List.find?_append, ha]

/-- Where names differ, only one attribute can go. -/
theorem removeAttr_eq_keepAttrs (h : (e.attributes.map (·.name)).Nodup) (n : String) :
    e.removeAttr n = e.keepAttrs fun a => a.name ≠ QName.ofString n := by
  rw [removeAttr, keepAttrs]
  congr 1
  generalize e.attributes = l at h ⊢
  induction l with
  | nil => rfl
  | cons a rest ih =>
    obtain ⟨hnew, hrest⟩ := List.nodup_cons.1 h
    rw [List.eraseP_cons, List.filter_cons, ih hrest]
    by_cases hname : a.name = QName.ofString n
    · have hkept : ∀ b ∈ rest, b.name ≠ QName.ofString n := fun b hb hbname =>
        hnew (List.mem_map.2 ⟨b, hb, hbname.trans hname.symm⟩)
      rw [if_neg (by simpa using hname), QName.isSpelled_iff.2 hname, cond_true,
        List.filter_eq_self.2 (by simpa using hkept)]
    · have hspelled : a.name.isSpelled n = false := by
        rwa [← Bool.not_eq_true, QName.isSpelled_iff]
      rw [if_pos (by simpa using hname), hspelled, cond_false]

theorem attr?_removeAttr_eq_update (h : (e.attributes.map (·.name)).Nodup) (n : String) :
    (e.removeAttr n).attr? = Function.update e.attr? n none := by
  funext m
  rw [Function.update_apply]
  split_ifs with hm
  · -- No other attribute has the name.
    rw [hm, attr?, removeAttr_eq_keepAttrs h, keepAttrs, Option.map_eq_none_iff,
      List.find?_eq_none]
    intro a ha
    rw [QName.isSpelled_iff]
    simpa using (List.mem_filter.1 ha).2
  · exact attr?_removeAttr (Ne.symm hm)

/-! ## Names that are read -/

/-- The names in an element are read from texts, those of its attributes from allowed ones, and no
two attributes have the same name. -/
structure IsKeyed (allowed : String → Prop) (e : Element) : Prop where
  name : e.name.IsRead
  read : ∀ a ∈ e.attributes, a.name.IsRead
  allowed : ∀ a ∈ e.attributes, allowed a.name.full
  distinct : (e.attributes.map (·.name)).Nodup

theorem IsKeyed.nodup_full {allowed : String → Prop} (h : e.IsKeyed allowed) :
    (e.attributes.map (·.name.full)).Nodup :=
  Attribute.nodup_full h.distinct h.read

/-! ## The map -/

/-- A text spells exactly the name that is read from it, which spells the text again. So the
attributes of an element whose names differ are a map from texts to values, kept in an order:
setting changes the map at one text, leaves the names that are there in their places and puts a
new one last, where names that differ stay spelled differently; removing hands out the value that
the map had at a text, has no value there from then on, and leaves all the rest in order. -/
theorem attributes_ordered_map {e : Element} (h : (e.attributes.map (·.name)).Nodup)
    (n v : String) :
    ((QName.ofString n).full = n ∧
        (∀ q : QName, q.isSpelled n = true ↔ q = QName.ofString n) ∧
        (e.attr? n = some v ↔ Attribute.mk (QName.ofString n) v ∈ e.attributes) ∧
        e.hasAttr n = (e.attr? n).isSome) ∧
      ((e.setAttr n v).attr? = Function.update e.attr? n (some v) ∧
        ((e.setAttr n v).attributes.map (·.name)).Nodup ∧
        (e.setAttr n v).attributes.map (·.name) =
          (if e.hasAttr n then e.attributes.map (·.name)
            else e.attributes.map (·.name) ++ [QName.ofString n]) ∧
        ((∀ a ∈ e.attributes, a.name.IsRead) →
          ((e.setAttr n v).attributes.map (·.name.full)).Nodup)) ∧
      ((e.takeAttr n).1 = e.attr? n ∧
        (e.takeAttr n).2.attr? = Function.update e.attr? n none ∧
        (e.takeAttr n).2.attributes =
          e.attributes.filter fun a => a.name ≠ QName.ofString n) := by
  refine ⟨⟨QName.full_ofString n, fun _ => QName.isSpelled_iff, attr?_eq_some_iff h,
    hasAttr_eq_isSome e n⟩, ⟨attr?_setAttr_eq_update e n v, nodup_names_setAttr h n v,
    names_setAttr_eq e n v, fun hr => ?_⟩, ?_⟩
  · exact Attribute.nodup_full (nodup_names_setAttr h n v) (isRead_setAttr hr n v)
  · rw [takeAttr_eq]
    refine ⟨rfl, attr?_removeAttr_eq_update h n, ?_⟩
    rw [removeAttr_eq_keepAttrs h, keepAttrs]

/-- A link with odd names gets another target: the attribute stays in its place, all others keep
their values, and the old target is what taking it gives. -/
theorem attributes_ordered_map_of_link :
    let e : Element := ⟨.ofString "a", [.ofStrings "id" "top", .ofStrings "xlink:href" "#b",
      .ofStrings ":" "", .ofStrings "x:y:z" "1"]⟩
    (e.attributes.map (·.name)).Nodup ∧ e.hasAttr "xlink:href" = true ∧
      (e.setAttr "xlink:href" "#c").attr? = Function.update e.attr? "xlink:href" (some "#c") ∧
      (e.setAttr "xlink:href" "#c").attributes.map (·.name) = e.attributes.map (·.name) ∧
      (e.takeAttr "xlink:href").1 = some "#b" := by
  intro e
  have h : (e.attributes.map (·.name)).Nodup := by decide
  obtain ⟨-, ⟨hset, -, hnames, -⟩, htaken, -⟩ := attributes_ordered_map h "xlink:href" "#c"
  have hhas : e.hasAttr "xlink:href" = true := by decide
  refine ⟨h, hhas, hset, ?_, ?_⟩
  · rw [hnames, if_pos hhas]
  · rw [htaken]
    decide

end Element

end SvgPress
