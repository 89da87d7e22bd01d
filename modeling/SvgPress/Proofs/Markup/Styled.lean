import SvgPress.Proofs.Markup.Writing

/-!
# What is written can be read

In every style, the tokens of a document that can be read back are legible, and no two runs of
character data among them meet: line breaks stand only where no character data does.
-/

namespace SvgPress.Markup

open SvgPress.Text

variable {style : Style} {depth : Nat} {preserving breaks childless : Bool} {kind : NodeKind}
  {inside : List Token} {f : Forest NodeKind}

theorem toList_lineBreak (hp : style.pretty = true) (depth : Nat) :
    (style.lineBreak depth).toList = '\n' :: List.replicate (depth * style.indent) ' ' := by
  rw [Style.lineBreak, if_pos hp]
  simp

theorem allBlank_lineBreak : allBlank (style.lineBreak depth) = true := by
  refine List.all_eq_true.2 fun c h => ?_
  by_cases hp : style.pretty = true
  · rw [toList_lineBreak hp] at h
    rcases List.mem_cons.1 h with rfl | h
    · decide
    · rw [List.eq_of_mem_replicate h]
      decide
  · simp [Style.lineBreak, hp] at h

theorem not_mem_of_allBlank {raw : String} {c : Char} (h : allBlank raw = true)
    (hc : isBlank c = false) : c ∉ raw.toList := fun hm =>
  absurd (hc.symm.trans (List.all_eq_true.1 h c hm)) (by simp)

/-! ## All tokens -/

theorem pretty_of_breaksBelow {below : Forest NodeKind}
    (h : style.breaksBelow preserving below = true) :
    style.pretty = true ∧ preserving = false ∧
      ∀ kind ∈ below.tops, kind.isCharacterData = false := by
  simp only [Style.breaksBelow, Bool.and_eq_true, Bool.not_eq_true', List.any_eq_false,
    Bool.not_eq_true] at h
  exact ⟨h.1.1, h.1.2, h.2⟩

section

variable {P : Token → Prop}

theorem forall_mem_breakTokens (hbreak : style.pretty = true → P (.text (style.lineBreak depth)))
    (hp : breaks = true → style.pretty = true) : ∀ t ∈ style.breakTokens breaks depth, P t := by
  intro t ht
  rw [Style.breakTokens] at ht
  split_ifs at ht with hb
  · rw [List.mem_singleton.1 ht]
    exact hbreak (hp hb)
  · simp at ht

/-- What holds of the tokens of each node, and of line breaks, holds of the tokens of trees. -/
theorem forall_mem_tokens
    (hbreak : style.pretty = true → ∀ depth, P (.text (style.lineBreak depth)))
    (h : ∀ kind ∈ f.preorder, ∀ childless, ∀ t ∈ style.nodeTokens kind childless [], P t)
    (hp : breaks = true → style.pretty = true) :
    ∀ t ∈ style.tokens depth preserving breaks f, P t := by
  induction f generalizing depth preserving breaks with
  | nil => simp [Style.tokens]
  | cons kind below rest ihb ihr =>
    simp only [Forest.preorder, List.forall_mem_cons, List.forall_mem_append] at h
    obtain ⟨hkind, hbelow, hrest⟩ := h
    have hbreaks : ∀ {breaks depth}, (breaks = true → style.pretty = true) →
        ∀ t ∈ style.breakTokens breaks depth, P t :=
      fun hp => forall_mem_breakTokens (fun h => hbreak h _) hp
    have hp' : style.breaksBelow (kind.preservesBelow preserving) below = true →
        style.pretty = true := fun h => (pretty_of_breaksBelow h).1
    have hinside : ∀ t ∈ style.tokens (depth + 1) (kind.preservesBelow preserving)
        (style.breaksBelow (kind.preservesBelow preserving) below) below ++
          style.breakTokens (style.breaksBelow (kind.preservesBelow preserving) below) depth, P t :=
      List.forall_mem_append.2 ⟨ihb hbelow hp', hbreaks hp'⟩
    rw [Style.tokens, List.forall_mem_append, List.forall_mem_append]
    refine ⟨⟨hbreaks hp, ?_⟩, ihr hrest hp⟩
    have hnode := hkind below.tops.isEmpty
    cases kind with
    | element e =>
      simp only [Style.nodeTokens] at hnode ⊢
      split_ifs at hnode ⊢
      · exact hnode
      · exact hnode
      · simp only [List.nil_append, List.forall_mem_cons, List.not_mem_nil, IsEmpty.forall_iff,
          implies_true, and_true] at hnode
        exact List.forall_mem_cons.2 ⟨hnode.1, List.forall_mem_append.2
          ⟨hinside, List.forall_mem_singleton.2 hnode.2⟩⟩
    | _ => exact hnode

theorem forall_mem_topTokens
    (hbreak : style.pretty = true → ∀ depth, P (.text (style.lineBreak depth)))
    (h : ∀ kind ∈ f.preorder, ∀ childless, ∀ t ∈ style.nodeTokens kind childless [], P t) :
    ∀ t ∈ style.topTokens f, P t := by
  cases f with
  | nil => exact fun t ht => absurd ht List.not_mem_nil
  | cons kind below rest =>
    simp only [Forest.preorder, List.forall_mem_cons, List.forall_mem_append] at h
    refine List.forall_mem_append.2 ⟨forall_mem_tokens hbreak ?_ (by simp),
      forall_mem_tokens hbreak h.2.2 id⟩
    simpa only [Forest.preorder, List.append_nil, List.forall_mem_cons] using ⟨h.1, h.2.1⟩

/-- What holds of the tokens of each node, and of what stands around them, holds of the tokens of a
document. -/
theorem forall_mem_wholeTokens {d : Document}
    (hdeclaration : ∀ declaration ∈ d.declaration, P (.declaration (declarationTag declaration)))
    (hdoctype : ∀ doctype ∈ d.doctype, P (.doctype doctype))
    (hbreak : style.pretty = true → ∀ depth, P (.text (style.lineBreak depth)))
    (hfinal : P (.text "\n"))
    (h : ∀ kind ∈ f.preorder, ∀ childless, ∀ t ∈ style.nodeTokens kind childless [], P t) :
    ∀ t ∈ style.wholeTokens d f, P t := by
  have hbreaks : ∀ t ∈ style.breakTokens style.pretty 0, P t :=
    forall_mem_breakTokens (fun h => hbreak h 0) id
  rw [Style.wholeTokens, Style.prologTokens, List.forall_mem_append, List.forall_mem_append,
    List.forall_mem_append]
  refine ⟨⟨⟨?_, ?_⟩, forall_mem_topTokens hbreak h⟩, ?_⟩
  · cases hd : d.declaration with
    | none => exact fun t ht => absurd ht List.not_mem_nil
    | some declaration => exact List.forall_mem_cons.2 ⟨hdeclaration declaration hd, hbreaks⟩
  · cases hd : d.doctype with
    | none => exact fun t ht => absurd ht List.not_mem_nil
    | some doctype => exact List.forall_mem_cons.2 ⟨hdoctype doctype hd, hbreaks⟩
  · split_ifs
    · exact List.forall_mem_singleton.2 hfinal
    · exact fun t ht => absurd ht List.not_mem_nil

end

/-! ## Legible tokens -/

theorem legible_blank {raw : String} (hne : raw.toList ≠ []) (h : allBlank raw = true) :
    (Token.text raw).Legible :=
  legible_text hne (not_mem_of_allBlank h (by decide))

theorem legible_lineBreak (hp : style.pretty = true) :
    (Token.text (style.lineBreak depth)).Legible := by
  refine legible_blank ?_ allBlank_lineBreak
  rw [toList_lineBreak hp]
  simp

theorem escapeText_ne_nil {content : String} (h : content ≠ "") :
    (escapeText content).toList ≠ [] := by
  intro he
  rw [toList_escapeText, List.flatMap_eq_nil_iff] at he
  obtain ⟨c, cs, hcs⟩ := List.exists_cons_of_ne_nil (fun hnil => h (String.toList_eq_nil_iff.1 hnil))
  have hc := he c (by simp [hcs])
  unfold escapeTextChar at hc
  split_ifs at hc <;> simp at hc

theorem legible_nodeTokens (hk : kind.IsReadable) :
    ∀ t ∈ style.nodeTokens kind childless [], t.asRead.Legible := by
  intro t ht
  cases kind with
  | root => simp [Style.nodeTokens] at ht
  | element e =>
    have htag := isPlain_tag hk style
    have hclose := legible_close hk.name.full.1 hk.name.full.2
    simp only [Style.nodeTokens] at ht
    split_ifs at ht
    · obtain rfl := List.mem_singleton.1 ht
      exact htag.legible_empty
    · simp only [List.mem_cons, List.not_mem_nil, or_false] at ht
      rcases ht with rfl | rfl
      · exact htag.legible_start
      · exact hclose
    · simp only [List.nil_append, List.mem_cons, List.not_mem_nil, or_false] at ht
      rcases ht with rfl | rfl
      · exact htag.legible_start
      · exact hclose
  | text content =>
    obtain rfl := List.mem_singleton.1 ht
    exact legible_text (escapeText_ne_nil hk) (not_mem_escapeText _)
  | cdata content =>
    obtain rfl := List.mem_singleton.1 ht
    exact legible_cdata hk
  | comment content =>
    obtain rfl := List.mem_singleton.1 ht
    exact legible_comment hk
  | instruction target content =>
    obtain rfl := List.mem_singleton.1 ht
    exact legible_instruction hk

/-! ## Runs of character data -/

theorem isCharacterData_of_isText (h : kind.isText = true) : kind.isCharacterData = true := by
  cases kind <;> simp_all [NodeKind.isText, NodeKind.isCharacterData]

/-- Trees that stand on lines of their own are no text. -/
theorem not_breaks_of_isText (hb : breaks = true → ∀ kind ∈ f.tops, kind.isCharacterData = false)
    (hk : kind ∈ f.tops) (ht : kind.isText = true) : breaks = false := by
  rw [← Bool.not_eq_true]
  intro h
  have hcharacters := isCharacterData_of_isText ht
  rw [hb h kind hk] at hcharacters
  exact absurd hcharacters (by simp)

theorem parted_breakTokens : Parted (style.breakTokens breaks depth) := by
  rw [Style.breakTokens]
  split_ifs
  · exact List.isChain_singleton _
  · exact List.isChain_nil

theorem nodeTokens_ne_nil (hr : kind ≠ .root) : style.nodeTokens kind childless inside ≠ [] := by
  cases kind with
  | root => exact absurd rfl hr
  | element e =>
    simp only [Style.nodeTokens]
    split_ifs <;> simp
  | _ => simp [Style.nodeTokens]

theorem startsText_nodeTokens : startsText (style.nodeTokens kind childless inside) = kind.isText := by
  cases kind with
  | element e =>
    simp only [Style.nodeTokens]
    split_ifs <;> rfl
  | _ => rfl

theorem endsText_nodeTokens : endsText (style.nodeTokens kind childless inside) = kind.isText := by
  cases kind with
  | element e =>
    simp only [Style.nodeTokens]
    split_ifs
    · rfl
    · rfl
    · rw [← List.cons_append, endsText_append (by simp)]
      rfl
  | _ => rfl

theorem parted_nodeTokens (hi : Parted inside) :
    Parted (style.nodeTokens kind childless inside) := by
  cases kind with
  | root => exact List.isChain_nil
  | element e =>
    simp only [Style.nodeTokens]
    split_ifs
    · exact List.isChain_singleton _
    · exact List.isChain_pair.2 fun h => absurd h (by simp [Token.isText])
    · have hclose : Parted (inside ++ [.close e.name.full]) :=
        parted_append hi (List.isChain_singleton _) fun _ => rfl
      exact parted_append (List.isChain_singleton _) hclose fun h => absurd h (by
        simp [endsText, Token.isText])
  | _ => exact List.isChain_singleton _

/-- The tokens of trees start with character data only where the trees do, or with a line break. -/
theorem isText_of_startsText_tokens (hf : f.Fits)
    (h : startsText (style.tokens depth preserving breaks f) = true) :
    breaks = true ∨ ∃ kind ∈ f.tops.head?, kind.isText = true := by
  cases f with
  | nil => simp [Style.tokens, startsText] at h
  | cons kind below rest =>
    cases hbreaks : breaks with
    | true => exact .inl rfl
    | false =>
      rw [Style.tokens, hbreaks, Style.breakTokens] at h
      simp only [Bool.false_eq_true, if_false, List.nil_append] at h
      rw [startsText_append (nodeTokens_ne_nil hf.1), startsText_nodeTokens] at h
      exact .inr ⟨kind, rfl, h⟩

/-- The tokens of trees end with character data only where a tree is a text. -/
theorem isText_of_endsText_tokens (hf : f.Fits)
    (h : endsText (style.tokens depth preserving breaks f) = true) :
    ∃ kind ∈ f.tops, kind.isText = true := by
  induction f generalizing depth with
  | nil => simp [Style.tokens, endsText] at h
  | cons kind below rest _ ihr =>
    obtain ⟨hroot, -, -, hfrest⟩ := hf
    rw [Style.tokens] at h
    by_cases hnil : style.tokens depth preserving breaks rest = []
    · rw [hnil, List.append_nil, endsText_append (nodeTokens_ne_nil hroot),
        endsText_nodeTokens] at h
      exact ⟨kind, List.mem_cons_self, h⟩
    · rw [endsText_append hnil] at h
      obtain ⟨k, hk, htext⟩ := ihr hfrest h
      exact ⟨k, List.mem_cons_of_mem _ hk, htext⟩

theorem parted_breakTokens_append
    (hb : breaks = true → ∀ kind ∈ f.tops, kind.isCharacterData = false) (hk : kind ∈ f.tops)
    (hi : Parted inside) :
    Parted (style.breakTokens breaks depth ++ style.nodeTokens kind childless inside) := by
  refine parted_append parted_breakTokens (parted_nodeTokens hi) fun hend => ?_
  rw [startsText_nodeTokens]
  cases htext : kind.isText with
  | false => rfl
  | true =>
    rw [not_breaks_of_isText hb hk htext] at hend
    exact absurd hend (by simp [Style.breakTokens, endsText])

/-- A text that ends the tokens of trees does not meet the line break after them. -/
theorem parted_append_breakTokens
    (hb : breaks = true → ∀ kind ∈ f.tops, kind.isCharacterData = false) (hf : f.Fits)
    {depth' : Nat} (hp : Parted (style.tokens depth preserving breaks f)) :
    Parted (style.tokens depth preserving breaks f ++ style.breakTokens breaks depth') := by
  refine parted_append hp parted_breakTokens fun hend => ?_
  obtain ⟨k, hk, htext⟩ := isText_of_endsText_tokens hf hend
  rw [not_breaks_of_isText hb hk htext]
  rfl

/-- Among the tokens of trees no two runs of character data meet. -/
theorem parted_tokens (style : Style) (depth : Nat) (hc : f.IsParted) (hf : f.Fits)
    (hb : breaks = true → ∀ kind ∈ f.tops, kind.isCharacterData = false) :
    Parted (style.tokens depth preserving breaks f) := by
  induction f generalizing depth preserving breaks with
  | nil => exact List.isChain_nil
  | cons kind below rest ihb ihr =>
    obtain ⟨hnext, hbelow, hrest⟩ := hc
    obtain ⟨hroot, -, hfbelow, hfrest⟩ := hf
    have hinside : Parted (style.tokens (depth + 1) (kind.preservesBelow preserving)
        (style.breaksBelow (kind.preservesBelow preserving) below) below ++ style.breakTokens
          (style.breaksBelow (kind.preservesBelow preserving) below) depth) :=
      parted_append_breakTokens (fun h => (pretty_of_breaksBelow h).2.2) hfbelow
        (ihb (depth + 1) hbelow hfbelow fun h => (pretty_of_breaksBelow h).2.2)
    have hrest' : Parted (style.tokens depth preserving breaks rest) :=
      ihr depth hrest hfrest fun h k hk => hb h k (List.mem_cons_of_mem _ hk)
    rw [Style.tokens]
    refine parted_append (parted_breakTokens_append hb List.mem_cons_self hinside) hrest'
      fun hend => ?_
    -- Only a text ends with character data, and then neither a break nor a text follows.
    rw [endsText_append (nodeTokens_ne_nil hroot), endsText_nodeTokens] at hend
    rw [← Bool.not_eq_true]
    intro hstart
    rcases isText_of_startsText_tokens hfrest hstart with h | ⟨next, hnext', htext⟩
    · rw [not_breaks_of_isText hb List.mem_cons_self hend] at h
      exact absurd h (by simp)
    · rw [hnext hend next hnext'] at htext
      exact absurd htext (by simp)

/-- The tokens of trees that are no character data start and end with markup, but for a line
break. -/
theorem parted_tokens_of_plain (style : Style) (depth : Nat) (hc : f.IsParted) (hf : f.Fits)
    (hn : ∀ kind ∈ f.tops, kind.isCharacterData = false) :
    Parted (style.tokens depth preserving breaks f) ∧
      (breaks = false → startsText (style.tokens depth preserving breaks f) = false) ∧
      endsText (style.tokens depth preserving breaks f) = false := by
  have hnotext : ∀ kind ∈ f.tops, kind.isText ≠ true := fun kind hk htext =>
    absurd (isCharacterData_of_isText htext) (by simp [hn kind hk])
  refine ⟨parted_tokens style depth hc hf fun _ => hn, fun hbreaks => ?_, ?_⟩
  · rw [← Bool.not_eq_true]
    intro h
    rcases isText_of_startsText_tokens hf h with h | ⟨kind, hk, htext⟩
    · rw [hbreaks] at h
      exact absurd h (by simp)
    · exact hnotext kind (List.mem_of_mem_head? hk) htext
  · rw [← Bool.not_eq_true]
    intro h
    obtain ⟨kind, hk, htext⟩ := isText_of_endsText_tokens hf h
    exact hnotext kind hk htext

/-! ## The document -/

variable {d : Document}

/-- The tokens of a document that can be read are legible, as what the scanner takes them for. -/
theorem legible_wholeTokens (hd : d.HasReadableProlog) (hf : f.IsReadable) :
    ∀ t ∈ style.wholeTokens d f, t.asRead.Legible :=
  forall_mem_wholeTokens
    (fun declaration h => legible_declaration (hd.declaration declaration h))
    (fun doctype h => legible_doctype (hd.doctype doctype h))
    (fun hp _ => legible_lineBreak hp) (legible_blank (by simp) (by decide))
    fun kind hk _ => legible_nodeTokens (hf kind hk)

/-- Tokens that start with markup and hold no run of character data next to another. -/
theorem parted_markup {t : Token} {ts ts' : List Token} (ht : t.isText = false) (h : Parted ts)
    (h' : Parted ts') (hs : startsText ts' = false) : Parted (t :: ts ++ ts') := by
  refine parted_append (parted_append (List.isChain_singleton t) h fun hend => ?_) h' fun _ => hs
  simp [endsText, ht] at hend

theorem parted_prologTokens (style : Style) (d : Document) {ts : List Token} (h : Parted ts)
    (hs : startsText ts = false) :
    Parted (style.prologTokens d ++ ts) ∧ startsText (style.prologTokens d ++ ts) = false := by
  have hdoctype : Parted (style.doctypeTokens d.doctype ++ ts) ∧
      startsText (style.doctypeTokens d.doctype ++ ts) = false := by
    cases d.doctype with
    | none => exact ⟨h, hs⟩
    | some doctype => exact ⟨parted_markup rfl parted_breakTokens h hs, rfl⟩
  rw [Style.prologTokens, List.append_assoc]
  cases d.declaration with
  | none => exact hdoctype
  | some declaration => exact ⟨parted_markup rfl parted_breakTokens hdoctype.1 hdoctype.2, rfl⟩

/-- In the tokens of a document no two runs of character data meet, and markup comes first. -/
theorem parted_wholeTokens (hf : f.IsParted) (hfits : f.Fits)
    (hn : ∀ kind ∈ f.tops, kind.isCharacterData = false) (hne : f ≠ .nil) (style : Style)
    (d : Document) :
    Parted (style.wholeTokens d f) ∧ startsText (style.wholeTokens d f) = false := by
  have hfinal : Parted (if style.finalNewline then [Token.text "\n"] else []) := by
    split_ifs
    · exact List.isChain_singleton _
    · exact List.isChain_nil
  rw [Style.wholeTokens, List.append_assoc]
  cases f with
  | nil => exact absurd rfl hne
  | cons kind below rest =>
    obtain ⟨-, hbelow, hrest⟩ := hf
    obtain ⟨hroot, hleaf, hfbelow, hfrest⟩ := hfits
    have hfirst : (Forest.cons kind below .nil).IsParted :=
      ⟨by simp [Forest.tops], hbelow, trivial⟩
    simp only [Forest.tops, List.mem_cons] at hn
    have hparted := fun (f : Forest NodeKind) (breaks : Bool) =>
      @parted_tokens_of_plain false breaks f style 0
    obtain ⟨hp₁, hs₁, he₁⟩ := hparted (.cons kind below .nil) false hfirst
      ⟨hroot, hleaf, hfbelow, trivial⟩ (by simpa [Forest.tops] using hn kind (.inl rfl))
    obtain ⟨hp₂, -, he₂⟩ := hparted rest style.pretty hrest hfrest fun k hk => hn k (.inr hk)
    have hne : style.tokens 0 false false (.cons kind below .nil) ≠ [] := by
      simp [Style.tokens, nodeTokens_ne_nil hroot]
    have htop : Parted (style.topTokens (.cons kind below rest)) :=
      parted_append hp₁ hp₂ fun h => absurd h (by simp [he₁])
    refine parted_prologTokens style d (parted_append htop hfinal fun h => ?_) ?_
    · rw [Style.topTokens, endsText_append_eq_false he₁ he₂] at h
      exact absurd h (by simp)
    · rw [Style.topTokens, List.append_assoc, startsText_append hne]
      exact hs₁ rfl

/-! ## What is taken for what it is -/

end SvgPress.Markup
