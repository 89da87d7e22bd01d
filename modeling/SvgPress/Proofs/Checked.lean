import SvgPress.Content
import SvgPress.Markup.Builder
import SvgPress.Proofs.Outcome
import SvgPress.Proofs.Tree.Payload

/-!
# Content that can be read back

The checks of new content, and what else a document has to satisfy so that no part of it is lost or
read as something else once it is written: declarations without markup, one document element, no
character data beside it, and blank text only where blanks count.
-/

namespace SvgPress

open Text

/-! ## Names -/

/-- A name that is spelled by a text which new content may use as a name. -/
def QName.IsChecked (q : QName) : Prop :=
  ∃ s, Content.isName s.toList = true ∧ q = QName.ofString s

/-- A character that can be part of a name is none of the characters that end one. -/
theorem Content.ne_of_not_breaksName {c x : Char} (h : breaksName c = false)
    (hx : breaksName x = true) : c ≠ x := by
  rintro rfl
  exact absurd (h.symm.trans hx) (by simp)

theorem Content.not_isSpace_of_not_breaksName {c : Char} (h : breaksName c = false) :
    isSpace c = false := by
  rw [breaksName, Bool.or_eq_false_iff] at h
  exact h.1

theorem Content.not_isBlank_of_not_breaksName {c : Char} (h : breaksName c = false) :
    isBlank c = false := by
  cases hb : isBlank c with
  | false => rfl
  | true => exact absurd ((not_isSpace_of_not_breaksName h).symm.trans (isSpace_of_isBlank hb)) (by simp)

/-- A name is not empty, and no character of it breaks names. -/
theorem Content.not_breaksName_of_isName {name : List Char} (h : isName name = true) :
    name ≠ [] ∧ ∀ c ∈ name, breaksName c = false := by
  unfold isName at h
  split at h
  · simp at h
  · simp only [Bool.and_eq_true, Bool.not_eq_true', List.any_eq_false] at h
    exact ⟨by simp, fun c hc => by simpa using h.2 c hc⟩

theorem QName.IsChecked.full {q : QName} (h : q.IsChecked) :
    q.full.toList ≠ [] ∧ ∀ c ∈ q.full.toList, Content.breaksName c = false := by
  obtain ⟨s, hs, rfl⟩ := h
  rw [QName.full_ofString]
  exact Content.not_breaksName_of_isName hs

/-- A checked name is split where it was joined. -/
theorem QName.IsChecked.ofString_full {q : QName} (h : q.IsChecked) :
    QName.ofString q.full = q := by
  obtain ⟨s, -, rfl⟩ := h
  rw [QName.full_ofString]

/-! ## What passes the checks -/

namespace Content

variable {name content target : String} {kind : NodeKind}

theorem of_checkName {checked : Unit} (h : checkName name = .ok checked) :
    isName name.toList = true := by
  simp only [checkName] at h
  split_ifs at h with hname
  exact hname

theorem of_cdataOf (h : cdataOf content = .ok kind) :
    contains "]]>".toList content.toList = false ∧ kind = .cdata content := by
  simp only [cdataOf] at h
  split_ifs at h with hend
  exact ⟨Bool.eq_false_iff.2 hend, (Except.ok.inj h).symm⟩

/-- A comment that is made holds no two hyphens and does not end with one. -/
theorem of_commentOf (h : commentOf content = .ok kind) :
    contains "--".toList content.toList = false ∧ content.toList.getLast? ≠ some '-' ∧
      kind = .comment content := by
  simp only [commentOf] at h
  split_ifs at h with hend
  rw [Bool.or_eq_true, not_or, beq_iff_eq] at hend
  exact ⟨Bool.eq_false_iff.2 hend.1, hend.2, (Except.ok.inj h).symm⟩

/-- An instruction that is made has a name for a target, which is not that of a declaration, and no
end inside. -/
theorem of_instructionOf {content : Option String} (h : instructionOf target content = .ok kind) :
    isName target.toList = true ∧ lowerAscii target.toList ≠ "xml".toList ∧
      (∀ c ∈ content, contains "?>".toList c.toList = false) ∧
      kind = .instruction target content := by
  obtain ⟨_, hname, h⟩ := Outcome.bind_eq_ok_iff.1 h
  split_ifs at h with hxml hend
  refine ⟨of_checkName hname, by simpa using hxml, fun c hc => ?_, (Except.ok.inj h).symm⟩
  obtain rfl := Option.mem_def.1 hc
  exact Bool.eq_false_iff.2 hend

/-- A description of anything but an element is built as a single node. -/
theorem exists_create_of_build {data : ContentData} {d d' : Document} {id : NodeId}
    (h : build d data = .ok (d', id))
    (hdata : ∀ name attributes children, data ≠ .element name attributes children) :
    ∃ kind, kind ≠ .root ∧ kind.element? = none ∧ d.create kind = (d', id) := by
  cases data with
  | element name attributes children => exact absurd rfl (hdata name attributes children)
  | text content =>
    simp only [build] at h
    exact ⟨.text content, nofun, rfl, Except.ok.inj h⟩
  | cdata content =>
    simp only [build] at h
    obtain ⟨kind, hk, h⟩ := Outcome.bind_eq_ok_iff.1 h
    obtain ⟨-, rfl⟩ := of_cdataOf (Outcome.mapError_eq_ok_iff.1 hk)
    exact ⟨.cdata content, nofun, rfl, Except.ok.inj h⟩
  | comment content =>
    simp only [build] at h
    obtain ⟨kind, hk, h⟩ := Outcome.bind_eq_ok_iff.1 h
    obtain ⟨-, -, rfl⟩ := of_commentOf (Outcome.mapError_eq_ok_iff.1 hk)
    exact ⟨.comment content, nofun, rfl, Except.ok.inj h⟩
  | instruction target content =>
    simp only [build] at h
    obtain ⟨kind, hk, h⟩ := Outcome.bind_eq_ok_iff.1 h
    obtain ⟨-, -, -, rfl⟩ := of_instructionOf (Outcome.mapError_eq_ok_iff.1 hk)
    exact ⟨.instruction target content, nofun, rfl, Except.ok.inj h⟩

end Content

/-! ## Payloads -/

/-- The names in an element are names, and no two of its attributes have the same one. -/
structure Element.IsChecked (e : Element) : Prop where
  name : e.name.IsChecked
  attributes : ∀ a ∈ e.attributes, a.name.IsChecked
  distinct : (e.attributes.map (·.name)).Nodup

/-- A value that may stand in an XML declaration as it is. -/
def IsPlainValue (s : String) : Prop :=
  ∀ c ∈ s.toList, c ≠ '"' ∧ c ≠ '\'' ∧ c ≠ '<' ∧ c ≠ '>' ∧ c ≠ '?'

/-- The values in an XML declaration may stand there as they are. -/
structure XmlDeclaration.IsPlain (declaration : XmlDeclaration) : Prop where
  version : IsPlainValue declaration.version
  encoding : ∀ encoding ∈ declaration.encoding, IsPlainValue encoding

/-- A value that may stand between double quotes in an XML declaration: it ends neither of them. -/
def IsQuotable (s : String) : Prop :=
  '"' ∉ s.toList ∧ contains "?>".toList s.toList = false

/-- The values in an XML declaration may stand between double quotes as they are. -/
structure XmlDeclaration.IsQuotable (declaration : XmlDeclaration) : Prop where
  version : SvgPress.IsQuotable declaration.version
  encoding : ∀ encoding ∈ declaration.encoding, SvgPress.IsQuotable encoding

theorem IsPlainValue.isQuotable {s : String} (h : IsPlainValue s) : IsQuotable s := by
  refine ⟨fun hm => (h _ hm).1 rfl, ?_⟩
  rw [← Bool.not_eq_true, contains_iff_infix]
  intro hmark
  have hmem : '?' ∈ s.toList := hmark.subset List.mem_cons_self
  exact (h _ hmem).2.2.2.2 rfl

theorem XmlDeclaration.IsPlain.isQuotable {declaration : XmlDeclaration} (h : declaration.IsPlain) :
    declaration.IsQuotable :=
  ⟨h.version.isQuotable, fun encoding he => (h.encoding encoding he).isQuotable⟩

/-- Whether a node is a text. -/
def NodeKind.isText : NodeKind → Bool
  | .text _ => true
  | _ => false

/-- A payload that is read back where blanks count, or do not. -/
def NodeKind.IsChecked (preserving : Bool) : NodeKind → Prop
  | .root => True
  | .element e => e.IsChecked
  | .text content => content ≠ "" ∧ (allBlank content = true → preserving = true)
  | .cdata content => Content.cdataOf content = .ok (.cdata content)
  | .comment content => Content.commentOf content = .ok (.comment content)
  | .instruction target content =>
    Content.instructionOf target content = .ok (.instruction target content) ∧
      ∀ c ∈ content, c ≠ "" ∧ trimSpace c = c

/-- Whether blanks count below a node, given whether they count around it. -/
def NodeKind.preservesBelow (preserving : Bool) : NodeKind → Bool
  | .element e => Markup.preservesBlanks preserving e
  | _ => preserving

/-- Payloads that are read back one after the other, with no two texts side by side. -/
def Forest.IsChecked (preserving : Bool) : Forest NodeKind → Prop
  | .nil => True
  | .cons kind below rest =>
    kind.IsChecked preserving ∧ (kind.isText = true → ∀ next ∈ rest.tops.head?, next.isText = false) ∧
      below.IsChecked (kind.preservesBelow preserving) ∧ rest.IsChecked preserving

/-- A document that can be written so that nothing is lost. -/
structure Document.IsChecked (d : Document) : Prop where
  declaration : ∀ declaration ∈ d.declaration, declaration.IsPlain
  doctype_ne : ∀ doctype ∈ d.doctype, doctype ≠ ""
  doctype_trimmed : ∀ doctype ∈ d.doctype, trimSpace doctype = doctype
  doctype_plain : ∀ doctype ∈ d.doctype, ∀ c ∈ doctype.toList, c ≠ '<' ∧ c ≠ '>'
  one_element : (d.childElements .root).length = 1
  no_characters : ∀ child ∈ d.children .root, (d.kindOf child).isCharacterData = false
  payloads : d.payloads.IsChecked false

end SvgPress
