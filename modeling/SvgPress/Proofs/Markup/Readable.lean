import SvgPress.Markup.Token
import SvgPress.Proofs.Checked
import SvgPress.Proofs.Cutting
import SvgPress.Proofs.Tree.Payload

/-!
# Documents that can be read

What a text can say is more than what new content may: comments with hyphens, instructions with any
target, document types with brackets of their own. Whatever is read from a text can be written so
that its tokens are found again, but for what they are named; so much is said here of payloads, and
all that has been checked satisfies it.
-/

namespace SvgPress

open Text

namespace Markup

/-! ## Document types and instructions -/

/-- Every angle bracket in the text has its partner there. -/
def IsBalanced (cs : List Char) : Prop :=
  ∀ rest, cutBalanced 0 (cs ++ '>' :: rest) = some (cs, rest)

/-- A text that stands in a document type declaration between the keyword and the end. -/
structure IsReadableDoctype (doctype : String) : Prop where
  ne : doctype ≠ ""
  trimmed : trimSpace doctype = doctype
  balanced : IsBalanced doctype.toList

/-- What stands between the delimiters of a processing instruction. -/
def instructionText (target : String) : Option String → String
  | none => target
  | some content => target ++ " " ++ content

/-- An instruction whose target and content are told apart, and that ends where it is written to
end. -/
structure IsReadableInstruction (target : String) (content : Option String) : Prop where
  unspaced : ∀ c ∈ target.toList, isSpace c = false
  trimmed : ∀ c ∈ content, c ≠ "" ∧ trimSpace c = c
  head : ∀ c ∈ (instructionText target content).toList.head?, c ≠ '>'
  closed : contains "?>".toList (instructionText target content).toList = false

/-- A character that is no angle bracket leaves the depth as it is. -/
theorem cutBalanced_cons {c : Char} (hlt : c ≠ '<') (hgt : c ≠ '>') (depth : Nat)
    (cs : List Char) : cutBalanced depth (c :: cs) =
      (cutBalanced depth cs).map fun (before, after) => (c :: before, after) := by
  rw [cutBalanced]
  simp only [hlt, hgt, decide_false, Bool.false_and, Bool.false_eq_true, if_false]

/-- A text without angle brackets is balanced. -/
theorem isBalanced_of_plain {cs : List Char} (h : ∀ c ∈ cs, c ≠ '<' ∧ c ≠ '>') :
    IsBalanced cs := by
  intro rest
  induction cs with
  | nil => rfl
  | cons c cs ih =>
    obtain ⟨hlt, hgt⟩ := h c List.mem_cons_self
    rw [List.cons_append, cutBalanced_cons hlt hgt, ih fun x hx => h x (List.mem_cons_of_mem _ hx)]
    rfl

end Markup

open Markup

/-! ## Payloads -/

/-- A payload whose written form is found again where it is written. -/
def NodeKind.IsReadable : NodeKind → Prop
  | .root => True
  | .element e => e.IsChecked
  | .text content => content ≠ ""
  | .cdata content => contains "]]>".toList content.toList = false
  | .comment content => contains "-->".toList content.toList = false
  | .instruction target content => IsReadableInstruction target content

namespace Forest

/-- All payloads are found again. -/
def IsReadable (f : Forest NodeKind) : Prop :=
  ∀ kind ∈ f.preorder, kind.IsReadable

/-- No two texts stand side by side. -/
def IsParted : Forest NodeKind → Prop
  | nil => True
  | cons kind below rest =>
    (kind.isText = true → ∀ next ∈ rest.tops.head?, next.isText = false) ∧
      below.IsParted ∧ rest.IsParted

theorem isReadable_cons_iff {kind : NodeKind} {below rest : Forest NodeKind} :
    (cons kind below rest).IsReadable ↔
      kind.IsReadable ∧ below.IsReadable ∧ rest.IsReadable := by
  simp only [IsReadable, preorder, List.forall_mem_cons, List.forall_mem_append]

end Forest

/-- Trees that can stand under the root of a document and are found again: one element, and no
character data beside it. -/
structure Forest.IsReadableTree (f : Forest NodeKind) : Prop where
  readable : f.IsReadable
  fits : f.Fits
  one_element : (f.tops.filter fun kind => kind.element?.isSome).length = 1
  no_characters : ∀ kind ∈ f.tops, kind.isCharacterData = false

/-- What precedes the tree of a document is found again. -/
structure Document.HasReadableProlog (d : Document) : Prop where
  declaration : ∀ declaration ∈ d.declaration, declaration.IsQuotable
  doctype : ∀ doctype ∈ d.doctype, IsReadableDoctype doctype

theorem Forest.IsReadableTree.ne_nil {f : Forest NodeKind} (h : f.IsReadableTree) : f ≠ .nil := by
  rintro rfl
  exact absurd h.one_element (by simp [tops])

/-! ## What has been checked can be read -/

section Checked

variable {target : String} {content : Option String} {kind : NodeKind} {preserving : Bool}
  {f : Forest NodeKind} {d : Document}

theorem Markup.toList_instructionText (target : String) (content : Option String) :
    (instructionText target content).toList =
      target.toList ++ (content.map fun content => ' ' :: content.toList).getD [] := by
  cases content <;> simp [instructionText]

/-- An instruction that has been made holds no end of an instruction: a question mark does not stand
in its target, and its content has been checked. -/
theorem Markup.contains_instructionText (h : Content.instructionOf target content = .ok kind) :
    contains "?>".toList (instructionText target content).toList = false := by
  obtain ⟨hname, -, hend, -⟩ := Content.of_instructionOf h
  obtain ⟨-, hall⟩ := Content.not_breaksName_of_isName hname
  have hmark : '?' ∉ target.toList := fun hm =>
    Content.ne_of_not_breaksName (hall _ hm) (by decide) rfl
  have htext : contains ('?' :: ['>']) (target.toList ++ _) = _ :=
    contains_append hmark ((content.map fun content => ' ' :: content.toList).getD [])
  rw [toList_instructionText]
  refine htext.trans ?_
  cases content with
  | none => rfl
  | some content =>
    have hspace : contains "?>".toList ([] ++ ' ' :: content.toList) = _ :=
      contains_append_cons (by decide) [] content.toList
    exact hspace.trans (by rw [hend content rfl]; rfl)

/-- An instruction that has been made can be read, if its content is trimmed and not empty. -/
theorem Markup.isReadableInstruction_of_instructionOf
    (h : Content.instructionOf target content = .ok kind)
    (htrim : ∀ c ∈ content, c ≠ "" ∧ trimSpace c = c) : IsReadableInstruction target content := by
  obtain ⟨hname, -, -⟩ := Content.of_instructionOf h
  obtain ⟨hne, hall⟩ := Content.not_breaksName_of_isName hname
  refine ⟨fun c hc => Content.not_isSpace_of_not_breaksName (hall c hc), htrim, fun x hx => ?_,
    contains_instructionText h⟩
  obtain ⟨c, cs, hcs⟩ := List.exists_cons_of_ne_nil hne
  rw [toList_instructionText, hcs, List.cons_append, List.head?_cons] at hx
  obtain rfl := Option.some.inj hx
  exact Content.ne_of_not_breaksName (hall c (by simp [hcs])) (by decide)

/-- A payload that has been checked can be read. -/
theorem NodeKind.IsChecked.isReadable (h : kind.IsChecked preserving) : kind.IsReadable := by
  cases kind with
  | root => trivial
  | element e => exact h
  | text content => exact h.1
  | cdata content => exact (Content.of_cdataOf h).1
  | comment content =>
    -- The end of a comment starts with two hyphens, which the comment does not hold.
    have hhyphens := (Content.of_commentOf h).1
    rw [← Bool.not_eq_true, contains_iff_infix] at hhyphens
    rw [NodeKind.IsReadable, ← Bool.not_eq_true, contains_iff_infix]
    exact fun hend => hhyphens (List.IsInfix.trans ⟨[], ['>'], rfl⟩ hend)
  | instruction target content => exact isReadableInstruction_of_instructionOf h.1 h.2

theorem Forest.IsChecked.isReadable (h : f.IsChecked preserving) : f.IsReadable := by
  induction f generalizing preserving with
  | nil => exact fun _ hk => absurd hk List.not_mem_nil
  | cons kind below rest ihb ihr =>
    obtain ⟨hkind, -, hbelow, hrest⟩ := h
    exact isReadable_cons_iff.2 ⟨hkind.isReadable, ihb hbelow, ihr hrest⟩

/-- In trees that have been checked no two texts stand side by side. -/
theorem Forest.IsChecked.isParted (h : f.IsChecked preserving) : f.IsParted := by
  induction f generalizing preserving with
  | nil => trivial
  | cons kind below rest ihb ihr =>
    obtain ⟨-, hnext, hbelow, hrest⟩ := h
    exact ⟨hnext, ihb hbelow, ihr hrest⟩

/-- What precedes the tree of a checked document can be read. -/
theorem Document.IsChecked.hasReadableProlog (h : d.IsChecked) : d.HasReadableProlog where
  declaration declaration hd := (h.declaration declaration hd).isQuotable
  doctype doctype hd := ⟨h.doctype_ne doctype hd, h.doctype_trimmed doctype hd,
    isBalanced_of_plain (h.doctype_plain doctype hd)⟩

end Checked

end SvgPress
