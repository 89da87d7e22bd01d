import SvgPress.Proofs.Markup.Building
import SvgPress.Proofs.Tree.Reachable

/-!
# Reading undoes writing

Whatever the style, a document that can be read back is written, and reading the text gives a
document that is the same. What is written are the tokens of its payloads; they are legible, no two
runs of character data among them meet, and they build these payloads again.
-/

namespace SvgPress.Markup

open Document

variable {d : Document} {style : Style}

theorem tops_payloads (hl : d.Linked) : d.payloads.tops = (d.children .root).map d.kindOf := by
  obtain ⟨f, ht, hf, -, -, -⟩ := hl.exists_forest_below .root
  rw [hl.payloads_eq ht hf, Forest.tops_map, ht]

/-- The elements among the payloads under the root are the elements under the root. -/
theorem length_filter_tops (hl : d.Linked) :
    (d.payloads.tops.filter fun kind => kind.element?.isSome).length =
      (d.childElements .root).length := by
  rw [tops_payloads hl, List.filter_map, List.length_map, childElements]
  congr 2
  funext id
  rw [Function.comp_apply, isElement, element?, kindOf]
  cases d.kind? id <;> rfl

theorem isSome_documentElement? (h : (d.childElements .root).length = 1) :
    d.documentElement?.isSome = true := by
  obtain ⟨id, hid⟩ := List.length_eq_one_iff.1 h
  rw [documentElement?, hid]
  rfl

/-- The trees of a document with one element and no character data directly under the root can be
read, if their payloads can. -/
theorem isReadableTree_payloads (hl : d.Linked) (hs : d.Shaped) (h : d.payloads.IsReadable)
    (hone : (d.childElements .root).length = 1)
    (hplain : ∀ child ∈ d.children .root, (d.kindOf child).isCharacterData = false) :
    d.payloads.IsReadableTree where
  readable := h
  fits := hs.fits_payloads hl
  one_element := (length_filter_tops hl).trans hone
  no_characters kind hk := by
    rw [tops_payloads hl] at hk
    obtain ⟨child, hc, rfl⟩ := List.mem_map.1 hk
    exact hplain child hc

end SvgPress.Markup
