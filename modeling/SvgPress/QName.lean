import SvgPress.Text.Split

/-!
# Qualified names

A qualified name is a local part with an optional qualifier, written `qualifier:local`. The first
colon of a text divides the two, so both may be empty and the local part may hold colons. A text
without a colon is a local part alone.
-/

namespace SvgPress

/-- A name with an optional namespace qualifier. -/
structure QName where
  /-- What stands before the first colon, if there is a colon. -/
  qualifier : Option String
  /-- What stands after it. -/
  localPart : String
deriving DecidableEq

namespace QName

/-- The qualified name that a text spells. -/
def ofString (s : String) : QName :=
  match Text.splitFirst ':' s.toList with
  | some (before, after) => ⟨some (String.ofList before), String.ofList after⟩
  | none => ⟨none, s⟩

/-- The spelling of a qualified name. -/
def full (q : QName) : String :=
  match q.qualifier with
  | some qualifier => qualifier ++ ":" ++ q.localPart
  | none => q.localPart

/-- Whether a text spells this name; a qualifier on one side needs one on the other. -/
def isSpelled (q : QName) (s : String) : Bool :=
  match Text.splitFirst ':' s.toList, q.qualifier with
  | some (before, after), some own =>
    own == String.ofList before && q.localPart == String.ofList after
  | none, none => q.localPart == s
  | _, _ => false

/-- A text is the spelling of the name that it spells. -/
@[simp] theorem full_ofString (s : String) : (ofString s).full = s := by
  unfold ofString
  split
  · rename_i before after h
    obtain ⟨h, -⟩ := Text.splitFirst_eq_some_iff.1 h
    apply String.toList_injective
    simp [full, h]
  · rfl

/-- A text spells exactly one name. -/
theorem isSpelled_iff {q : QName} {s : String} : q.isSpelled s = true ↔ q = ofString s := by
  obtain ⟨qualifier, localPart⟩ := q
  unfold isSpelled ofString
  cases Text.splitFirst ':' s.toList with
  | none => cases qualifier <;> simp
  | some split => cases qualifier <;> simp

/-- Whether an attribute of this name declares a namespace. -/
def isNamespaceDeclaration (q : QName) : Bool :=
  q.qualifier == some "xmlns" || (q.qualifier.isNone && q.localPart == "xmlns")

end QName

end SvgPress
