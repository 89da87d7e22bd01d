import Mathlib.Data.List.Forall2
import SvgPress.Proofs.Css.Meaning

/-!
# What is left of a style

Of several declarations for one property the last one counts. A minified style gives a property the
last value that is no default, so a default that comes after another value is lost. Apart from that
the two plugins for styles agree on what a declaration is: what both have written, neither writes in
another way.
-/

namespace SvgPress.Css

open Text

namespace Declaration

/-- The value that a complete declaration gives to a property. -/
def valueFor? (property : String) : Declaration → Option String
  | pair name value =>
    if name = property ∧ name ≠ "" ∧ value ≠ "" then some value else none
  | incomplete _ => none

/-- Both declarations are for one property, and give it the same value, unless it is a color. -/
def AgreesButForColor (d d' : Declaration) : Prop :=
  ∃ property value value', d = .pair property value ∧ d' = .pair property value' ∧
    (property ∉ colorProperties → value' = value)

end Declaration

/-- The values that the complete declarations of a style give to a property, in order. -/
def valuesOf (style property : String) : List String :=
  (declarations style).filterMap (Declaration.valueFor? property)

/-- The value of a property in a style: of several declarations the last one counts. -/
def value? (style property : String) : Option String :=
  (valuesOf style property).getLast?

variable {d : Declaration} {style property value : String}

/-! ## The declaration that counts -/

/-- A minified style has the values that are no defaults. -/
theorem valuesOf_minifyStyle (style property : String) :
    valuesOf (minifyStyle style) property =
      (valuesOf style property).filter (!isDefault property ·) := by
  rw [valuesOf, declarations_minifyStyle, valuesOf, List.filter_filterMap, List.filterMap_filter]
  refine List.filterMap_congr fun d _ => ?_
  cases d with
  | incomplete text => rfl
  | pair name value =>
    by_cases hfor : name = property ∧ name ≠ "" ∧ value ≠ ""
    · obtain ⟨rfl, hname, hvalue⟩ := hfor
      simp [Declaration.valueFor?, Declaration.isNeeded, hname, hvalue, Option.filter]
    · simp [Declaration.valueFor?, hfor]

/-- Leaving elements out keeps the last one, or leaves nothing where it goes, unless it goes and one
before it stays. -/
theorem getLast?_filter_iff {α : Type} (p : α → Bool) (xs : List α) :
    ((xs.filter p).getLast? = xs.getLast? ∨
        (xs.filter p).getLast? = none ∧ ∃ x, xs.getLast? = some x ∧ p x = false) ↔
      ∀ x, xs.getLast? = some x → p x = false → ∀ y ∈ xs, p y = false := by
  rcases List.eq_nil_or_concat xs with rfl | ⟨xs, x, rfl⟩
  · simp
  · rw [List.concat_eq_append, List.filter_append, List.getLast?_concat]
    cases hx : p x with
    | true => simp [hx]
    | false =>
      have hlast : [x].filter p = [] := by simp [hx]
      rw [hlast, List.append_nil]
      constructor
      · rintro (h | ⟨h, -⟩) _ - - y hy
        · have hp := List.of_mem_filter (List.mem_of_getLast? h)
          exact absurd hp (by simp [hx])
        · rw [List.getLast?_eq_none_iff, List.filter_eq_nil_iff] at h
          rcases List.mem_append.1 hy with hy | hy
          · simpa using h y hy
          · rwa [List.mem_singleton.1 hy]
      · intro h
        have hall := h x rfl hx
        refine .inr ⟨?_, x, rfl, hx⟩
        rw [List.getLast?_eq_none_iff, List.filter_eq_nil_iff]
        intro y hy
        simp [hall y (List.mem_append_left _ hy)]

/-- A minified style gives a property the last value that is no default. So it gives the value that
counted, or none where that was a default, unless a default came after a value that is none. -/
theorem value?_minifyStyle_iff (style property : String) :
    value? (minifyStyle style) property =
        ((valuesOf style property).filter (!isDefault property ·)).getLast? ∧
      ((value? (minifyStyle style) property = value? style property ∨
          value? (minifyStyle style) property = none ∧
            ∃ value, value? style property = some value ∧ isDefault property value = true) ↔
        ∀ value, value? style property = some value → isDefault property value = true →
          ∀ other ∈ valuesOf style property, isDefault property other = true) := by
  have hvalue : value? (minifyStyle style) property =
      ((valuesOf style property).filter (!isDefault property ·)).getLast? := by
    rw [value?, valuesOf_minifyStyle]
  refine ⟨hvalue, ?_⟩
  rw [hvalue, value?]
  have hiff := getLast?_filter_iff (!isDefault property ·) (valuesOf style property)
  simpa only [Bool.not_eq_false'] using hiff

/-- A style that sets an opacity back to the default. -/
theorem value?_minifyStyle_ne :
    value? "opacity:.5;opacity:1" "opacity" = some "1" ∧
      value? (minifyStyle "opacity:.5;opacity:1") "opacity" = some ".5" := by
  decide

/-! ## Both plugins for styles -/

/-- A style after it has been minified and its colors have been shortened. -/
def pressStyle (style : String) : String :=
  shortenStyleColors (minifyStyle style)

theorem shorten_ne_empty (h : strip isSpace value.toList = value.toList) (hne : value ≠ "") :
    shorten value ≠ "" := by
  intro hempty
  have hnone : mixture? "".toList = none := by decide
  rcases shorten_cases_mixture? value with ⟨m, -, hm⟩ | ⟨hshort, -⟩
  · rw [hempty, hnone] at hm
    exact absurd hm (by simp)
  · rw [hempty, h] at hshort
    exact hne (String.toList_injective hshort.symm)

/-- No property with colors has a default. -/
theorem isDefault_of_mem_colorProperties (h : property ∈ colorProperties) (value : String) :
    isDefault property value = false := by
  simp only [colorProperties, List.mem_cons, List.not_mem_nil, or_false] at h
  rcases h with rfl | rfl | rfl | rfl | rfl | rfl <;> simp [isDefault]

theorem Declaration.isNeeded_shortenColor (hd : d.IsTidy) (h : d.isNeeded = true) :
    d.shortenColor.isNeeded = true := by
  cases d with
  | incomplete text => exact h
  | pair property value =>
    rw [shortenColor]
    split_ifs with hcolor
    · rw [List.contains_iff_mem] at hcolor
      simp only [isNeeded, isDefault_of_mem_colorProperties hcolor, Bool.and_eq_true, bne_iff_ne,
        Bool.not_false, and_true] at h ⊢
      exact ⟨h.1, shorten_ne_empty hd.2.1 h.2⟩
    · exact h

theorem declarations_pressStyle (style : String) : declarations (pressStyle style) =
    (declarations (minifyStyle style)).map Declaration.shortenColor :=
  declarations_shortenStyleColors _

/-- All that the two plugins leave is needed. -/
theorem isNeeded_of_mem_pressStyle (h : d ∈ declarations (pressStyle style)) :
    d.isNeeded = true := by
  rw [declarations_pressStyle] at h
  obtain ⟨d, hd, rfl⟩ := List.mem_map.1 h
  refine Declaration.isNeeded_shortenColor (isTidy_of_mem_declarations hd) ?_
  rw [declarations_minifyStyle] at hd
  exact (List.mem_filter.1 hd).2

theorem minifyStyle_pressStyle (style : String) :
    minifyStyle (pressStyle style) = pressStyle style := by
  rw [minifyStyle, List.filter_eq_self.2 fun _ hd => isNeeded_of_mem_pressStyle hd,
    declarations_pressStyle]
  rfl

theorem Declaration.agreesButForColor_shortenColor (h : d.isNeeded = true) :
    d.AgreesButForColor d.shortenColor := by
  cases d with
  | incomplete text => exact absurd h (by simp [isNeeded])
  | pair property value =>
    refine ⟨property, value, _, rfl, rfl, fun hcolor => if_neg ?_⟩
    rwa [List.contains_iff_mem]

/-- The two plugins for styles are done after one turn: what they leave of a style, neither of them
changes any more. It takes no more bytes than the style, and its declarations are those of the
minified style, in the same order, with nothing but values of colors changed. -/
theorem pressStyle_settles (style : String) :
    pressStyle (pressStyle style) = pressStyle style ∧
      (pressStyle style).utf8ByteSize ≤ style.utf8ByteSize ∧
      minifyStyle (pressStyle style) = pressStyle style ∧
      List.Forall₂ Declaration.AgreesButForColor (declarations (minifyStyle style))
        (declarations (pressStyle style)) := by
  have hminify := minifyStyle_pressStyle style
  refine ⟨?_, ?_, hminify, ?_⟩
  · rw [pressStyle, hminify, pressStyle, shortenStyleColors_shortenStyleColors]
  · have hle := byteLength_le_of_sublist (minifyStyle_sublist style)
    rw [byteLength_toList, byteLength_toList] at hle
    exact (utf8ByteSize_shortenStyleColors_le _).trans hle
  · rw [declarations_pressStyle, List.forall₂_map_right_iff, List.forall₂_same]
    intro d hd
    rw [declarations_minifyStyle] at hd
    exact Declaration.agreesButForColor_shortenColor (List.mem_filter.1 hd).2

end SvgPress.Css
