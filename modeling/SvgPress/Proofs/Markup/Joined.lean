import SvgPress.Proofs.Markup.Building

/-!
# Texts that stand side by side

Texts that stand side by side are written as one run of character data, and read as one text. What a
document says is therefore read back with such texts joined, and that is all that is lost between
writing and reading, but for blank text where blanks do not count and for instructions that are
named like declarations.
-/

namespace SvgPress

namespace Forest

/-- A tree before others; a text is joined to a text that follows. -/
def attach (kind : NodeKind) (below rest : Forest NodeKind) : Forest NodeKind :=
  match kind, rest with
  | .text content, cons (.text next) _ after => cons (.text (content ++ next)) below after
  | kind, rest => cons kind below rest

/-- The trees with texts that stand side by side joined to one text. -/
def joined : Forest NodeKind → Forest NodeKind
  | nil => nil
  | cons kind below rest => attach kind below.joined rest.joined

variable {kind : NodeKind} {below rest f : Forest NodeKind}

/-- A tree is put in front of others as it is, or a text takes in the text after it. -/
theorem attach_cases (kind : NodeKind) (below rest : Forest NodeKind) :
    ((kind.isText = true → ∀ next ∈ rest.tops.head?, next.isText = false) ∧
      attach kind below rest = cons kind below rest) ∨
    ∃ content next under after, kind = .text content ∧ rest = cons (.text next) under after ∧
      attach kind below rest = cons (.text (content ++ next)) below after := by
  cases kind with
  | text content =>
    cases rest with
    | nil => exact .inl ⟨fun _ _ hn => absurd hn (by simp [tops]), rfl⟩
    | cons top under after =>
      cases top with
      | text next => exact .inr ⟨content, next, under, after, rfl, rfl, rfl⟩
      | _ => exact .inl ⟨fun _ _ hn => by
          obtain rfl := Option.some.inj hn
          rfl, rfl⟩
  | _ => exact .inl ⟨fun ht => absurd ht (by simp [NodeKind.isText]), rfl⟩

theorem attach_of_parted (h : kind.isText = true → ∀ next ∈ rest.tops.head?, next.isText = false) :
    attach kind below rest = cons kind below rest := by
  obtain ⟨-, he⟩ | ⟨content, next, under, after, rfl, rfl, -⟩ := attach_cases kind below rest
  · exact he
  · exact absurd (h rfl _ rfl) (by simp [NodeKind.isText])

theorem isParted_attach (hb : below.IsParted) (hr : rest.IsParted) :
    (attach kind below rest).IsParted := by
  obtain ⟨hnext, he⟩ | ⟨content, next, under, after, rfl, rfl, he⟩ := attach_cases kind below rest
  · rw [he]
    exact ⟨hnext, hb, hr⟩
  · rw [he]
    exact ⟨fun _ => hr.1 rfl, hb, hr.2.2⟩

/-- After joining, no two texts stand side by side. -/
theorem isParted_joined (f : Forest NodeKind) : f.joined.IsParted := by
  induction f with
  | nil => trivial
  | cons kind below rest ihb ihr => exact isParted_attach ihb ihr

/-- Trees without texts side by side are left as they are. -/
theorem joined_of_isParted (h : f.IsParted) : f.joined = f := by
  induction f with
  | nil => rfl
  | cons kind below rest ihb ihr =>
    obtain ⟨hnext, hbelow, hrest⟩ := h
    rw [joined, ihb hbelow, ihr hrest, attach_of_parted hnext]

theorem isReadable_attach (h : (cons kind below rest).IsReadable) :
    (attach kind below rest).IsReadable := by
  obtain ⟨-, he⟩ | ⟨content, next, under, after, rfl, rfl, he⟩ := attach_cases kind below rest
  · rwa [he]
  · obtain ⟨hkind, hbelow, hrest⟩ := isReadable_cons_iff.1 h
    obtain ⟨-, -, hafter⟩ := isReadable_cons_iff.1 hrest
    rw [he]
    refine isReadable_cons_iff.2 ⟨fun hnil => hkind ?_, hbelow, hafter⟩
    exact (String.append_eq_empty_iff.1 hnil).1

theorem isReadable_joined (h : f.IsReadable) : f.joined.IsReadable := by
  induction f with
  | nil => exact h
  | cons kind below rest ihb ihr =>
    obtain ⟨hkind, hbelow, hrest⟩ := isReadable_cons_iff.1 h
    exact isReadable_attach (isReadable_cons_iff.2 ⟨hkind, ihb hbelow, ihr hrest⟩)

theorem fits_attach (h : (cons kind below rest).Fits) : (attach kind below rest).Fits := by
  obtain ⟨-, he⟩ | ⟨content, next, under, after, rfl, rfl, he⟩ := attach_cases kind below rest
  · rwa [he]
  · obtain ⟨-, hleaf, hbelow, -, -, -, hafter⟩ := h
    rw [he]
    exact ⟨by simp, fun _ => hleaf rfl, hbelow, hafter⟩

theorem joined_eq_nil_iff : f.joined = nil ↔ f = nil := by
  cases f with
  | nil => exact iff_of_true rfl rfl
  | cons kind below rest =>
    rw [joined]
    obtain ⟨-, he⟩ | ⟨content, next, under, after, -, -, he⟩ :=
      attach_cases kind below.joined rest.joined <;> simp [he]

theorem fits_joined (h : f.Fits) : f.joined.Fits := by
  induction f with
  | nil => trivial
  | cons kind below rest ihb ihr =>
    obtain ⟨hroot, hleaf, hbelow, hrest⟩ := h
    exact fits_attach ⟨hroot, fun he => joined_eq_nil_iff.2 (hleaf he), ihb hbelow, ihr hrest⟩

/-- Joining texts leaves all that is no text where it stands. -/
theorem filter_tops_joined {p : NodeKind → Bool} (hp : ∀ content, p (.text content) = false)
    (f : Forest NodeKind) : f.joined.tops.filter p = f.tops.filter p := by
  induction f with
  | nil => rfl
  | cons kind below rest _ ihr =>
    rw [joined, tops, List.filter_cons, ← ihr]
    obtain ⟨-, he⟩ | ⟨content, next, under, after, rfl, hrest, he⟩ :=
      attach_cases kind below.joined rest.joined
    · rw [he, tops, List.filter_cons]
    · rw [he, hrest]
      simp [tops, hp]

theorem any_tops_joined {p : NodeKind → Bool} (hp : ∀ content next, p (.text content) = p (.text next))
    (f : Forest NodeKind) : f.joined.tops.any p = f.tops.any p := by
  induction f with
  | nil => rfl
  | cons kind below rest _ ihr =>
    rw [joined, tops, List.any_cons, ← ihr]
    obtain ⟨-, he⟩ | ⟨content, next, under, after, rfl, hrest, he⟩ :=
      attach_cases kind below.joined rest.joined
    · rw [he, tops, List.any_cons]
    · rw [he, hrest, tops, tops, List.any_cons, List.any_cons, hp content (content ++ next),
        hp next (content ++ next)]
      simp

theorem isEmpty_tops_joined (f : Forest NodeKind) : f.joined.tops.isEmpty = f.tops.isEmpty := by
  cases f with
  | nil => rfl
  | cons kind below rest =>
    rw [joined]
    obtain ⟨-, he⟩ | ⟨content, next, under, after, -, -, he⟩ :=
      attach_cases kind below.joined rest.joined <;> simp [he, tops]

theorem IsReadableTree.joined (h : f.IsReadableTree) : f.joined.IsReadableTree where
  readable := isReadable_joined h.readable
  fits := fits_joined h.fits
  one_element := by rw [filter_tops_joined fun _ => rfl, h.one_element]
  no_characters := by
    have hnone : f.tops.any (·.isCharacterData) = false :=
      List.any_eq_false.2 fun kind hk => by simp [h.no_characters kind hk]
    rw [← any_tops_joined (fun _ _ => rfl)] at hnone
    exact fun kind hk => Bool.eq_false_iff.2 (List.any_eq_false.1 hnone kind hk)

end Forest

namespace Markup

open Document

variable {style : Style} {breaks : Bool} {kind : NodeKind} {f below rest : Forest NodeKind}
  {inside inside' : List Token} {d : Document}

/-! ## What is written for joined texts -/

/-- Texts are escaped character by character. -/
theorem escapeText_append (content next : String) :
    (escapeText (content ++ next)).toList =
      (escapeText content).toList ++ (escapeText next).toList := by
  simp only [toList_escapeText, String.toList_append, List.flatMap_append]

theorem textOf_nodeTokens (childless : Bool) (h : textOf inside = textOf inside') :
    textOf (style.nodeTokens kind childless inside) =
      textOf (style.nodeTokens kind childless inside') := by
  cases kind with
  | element e =>
    simp only [Style.nodeTokens]
    split_ifs <;> simp [h]
  | _ => rfl

/-- A text is joined to a text that follows without any change in what is written. -/
theorem textOf_attach (depth : Nat) (preserving : Bool) (hfits : (Forest.cons kind below rest).Fits)
    (hb : breaks = true → ∀ k ∈ (Forest.cons kind below rest).tops, k.isCharacterData = false) :
    textOf (style.tokens depth preserving breaks (.cons kind below rest)) =
      textOf (style.tokens depth preserving breaks (.attach kind below rest)) := by
  obtain ⟨-, he⟩ | ⟨content, next, under, after, rfl, rfl, he⟩ :=
    Forest.attach_cases kind below rest
  · rw [he]
  · have hbreaks : breaks = false := by
      rw [← Bool.not_eq_true]
      intro h
      exact absurd (hb h _ List.mem_cons_self) (by simp [NodeKind.isCharacterData])
    rw [he, hbreaks]
    simp [Style.tokens, Style.breakTokens, Style.nodeTokens, Token.written, escapeText_append]

theorem breaksBelow_joined (preserving : Bool) (below : Forest NodeKind) :
    style.breaksBelow preserving below.joined = style.breaksBelow preserving below := by
  rw [Style.breaksBelow, Style.breaksBelow, Forest.any_tops_joined fun _ _ => rfl]

/-- Trees are written like the trees with their texts joined. -/
theorem textOf_tokens_joined (depth : Nat) (preserving : Bool) (hf : f.Fits)
    (hb : breaks = true → ∀ k ∈ f.tops, k.isCharacterData = false) :
    textOf (style.tokens depth preserving breaks f) =
      textOf (style.tokens depth preserving breaks f.joined) := by
  induction f generalizing depth preserving breaks with
  | nil => rfl
  | cons kind below rest ihb ihr =>
    obtain ⟨hroot, hleaf, hbelow, hrest⟩ := hf
    have hplain : breaks = true →
        ∀ k ∈ (Forest.cons kind below.joined rest.joined).tops, k.isCharacterData = false := by
      intro hbreaks
      have hrest : rest.joined.tops.any (·.isCharacterData) = false := by
        rw [Forest.any_tops_joined fun _ _ => rfl]
        exact List.any_eq_false.2 fun k hk => by simp [hb hbreaks k (List.mem_cons_of_mem _ hk)]
      refine List.forall_mem_cons.2 ⟨hb hbreaks kind List.mem_cons_self, fun k hk => ?_⟩
      exact Bool.eq_false_iff.2 (List.any_eq_false.1 hrest k hk)
    have hinside : ∀ depth, textOf (style.tokens (depth + 1) (kind.preservesBelow preserving)
          (style.breaksBelow (kind.preservesBelow preserving) below) below ++
          style.breakTokens (style.breaksBelow (kind.preservesBelow preserving) below) depth) =
        textOf (style.tokens (depth + 1) (kind.preservesBelow preserving)
          (style.breaksBelow (kind.preservesBelow preserving) below) below.joined ++
          style.breakTokens (style.breaksBelow (kind.preservesBelow preserving) below) depth) := by
      intro depth
      rw [textOf_append, textOf_append,
        ihb (depth + 1) _ hbelow fun h => (pretty_of_breaksBelow h).2.2]
    have hcons : textOf (style.tokens depth preserving breaks (.cons kind below rest)) =
        textOf (style.tokens depth preserving breaks (.cons kind below.joined rest.joined)) := by
      rw [Style.tokens, Style.tokens, breaksBelow_joined, Forest.isEmpty_tops_joined]
      simp only [textOf_append]
      rw [textOf_nodeTokens _ (hinside depth), ihr depth preserving hrest fun h k hk =>
        hb h k (List.mem_cons_of_mem _ hk)]
    rw [hcons, Forest.joined]
    exact textOf_attach depth preserving
      ⟨hroot, fun he => Forest.joined_eq_nil_iff.2 (hleaf he), Forest.fits_joined hbelow,
        Forest.fits_joined hrest⟩ hplain

/-- A document that says some trees is written like one that says them with their texts joined. -/
theorem textOf_wholeTokens_joined (style : Style) (d : Document) (hf : f.Fits)
    (hn : ∀ kind ∈ f.tops, kind.isCharacterData = false) :
    textOf (style.wholeTokens d f) = textOf (style.wholeTokens d f.joined) := by
  have htop : textOf (style.topTokens f) = textOf (style.topTokens f.joined) := by
    cases f with
    | nil => rfl
    | cons kind below rest =>
      obtain ⟨hroot, hleaf, hbelow, hrest⟩ := hf
      obtain ⟨hkind, hrests⟩ := List.forall_mem_cons.1 hn
      have hparted : kind.isText = true → ∀ next ∈ rest.joined.tops.head?, next.isText = false :=
        fun ht => absurd (isCharacterData_of_isText ht) (by simp [hkind])
      have hfirst : textOf (style.tokens 0 false false (.cons kind below .nil)) = _ :=
        textOf_tokens_joined 0 false ⟨hroot, hleaf, hbelow, trivial⟩ (by simp)
      have hlater : textOf (style.tokens 0 false style.pretty rest) = _ :=
        textOf_tokens_joined 0 false hrest fun _ => hrests
      rw [Forest.joined, Forest.joined, Forest.attach_of_parted fun _ _ hx => absurd hx
        (by simp [Forest.tops])] at hfirst
      rw [Forest.joined, Forest.attach_of_parted hparted, Style.topTokens, Style.topTokens,
        textOf_append, textOf_append, hfirst, hlater]
  rw [Style.wholeTokens, Style.wholeTokens]
  simp only [textOf_append, htop]

end Markup

end SvgPress
