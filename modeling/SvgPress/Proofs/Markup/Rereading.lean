import SvgPress.Proofs.Markup.Parsed

/-!
# Reading what was read and written

A document that was read from a text is written in every style so that it is read again. Texts that
stand side by side are read as one text; nothing else changes, so the document comes back as it was
exactly if there are none. Declarations that hold double quotes, document types without a name,
instructions that are named like declarations, and names that are no names are set apart: what is
written for them is read as something else.
-/

namespace SvgPress

/-! ## What is left of joined texts -/

namespace Forest

variable {kind : NodeKind} {below rest f : Forest NodeKind} {around : Bool}

/-- Every payload is read as a payload. -/
def AllReread : (preserving : Bool) → Forest NodeKind → Prop
  | _, nil => True
  | preserving, cons kind below rest =>
    kind.isReread preserving = true ∧ below.AllReread (kind.preservesBelow preserving) ∧
      rest.AllReread preserving

theorem AllReread.reread_eq (h : f.AllReread around) : f.reread around = f := by
  induction f generalizing around with
  | nil => rfl
  | cons kind below rest ihb ihr =>
    obtain ⟨hkind, hbelow, hrest⟩ := h
    rw [reread, if_pos hkind, ihb hbelow, ihr hrest]

theorem allReread_reread (around : Bool) (f : Forest NodeKind) :
    (f.reread around).AllReread around := by
  induction f generalizing around with
  | nil => trivial
  | cons kind below rest ihb ihr =>
    rw [reread]
    split_ifs with hkind
    · exact ⟨hkind, ihb _, ihr around⟩
    · exact ihr around

theorem allReread_iff : f.AllReread around ↔ f.reread around = f :=
  ⟨AllReread.reread_eq, fun h => h ▸ allReread_reread around f⟩

theorem AllReread.attach (h : (cons kind below rest).AllReread around) :
    (attach kind below rest).AllReread around := by
  obtain ⟨-, he⟩ | ⟨content, next, under, after, rfl, rfl, he⟩ := attach_cases kind below rest
  · rwa [he]
  · obtain ⟨hkind, hbelow, hnext, -, hafter⟩ := h
    rw [he]
    refine ⟨?_, hbelow, hafter⟩
    simp only [NodeKind.isReread, Bool.or_eq_true, Bool.not_eq_true', Text.allBlank,
      String.toList_append, List.all_append, Bool.and_eq_false_iff] at hkind hnext ⊢
    exact hkind.imp_left .inl

theorem AllReread.joined (h : f.AllReread around) : f.joined.AllReread around := by
  induction f generalizing around with
  | nil => trivial
  | cons kind below rest ihb ihr =>
    obtain ⟨hkind, hbelow, hrest⟩ := h
    exact AllReread.attach ⟨hkind, ihb hbelow, ihr hrest⟩

theorem mem_preorder_attach (hk : kind.isText = false) {top : NodeKind}
    (h : kind ∈ (attach top below rest).preorder) : kind ∈ (cons top below rest).preorder := by
  obtain ⟨-, he⟩ | ⟨content, next, under, after, rfl, rfl, he⟩ := attach_cases top below rest
  · rwa [he] at h
  · rw [he] at h
    simp only [preorder, List.mem_cons, List.mem_append] at h ⊢
    rcases h with rfl | h | h
    · simp [NodeKind.isText] at hk
    · exact .inr (.inl h)
    · exact .inr (.inr (.inr (.inr h)))

/-- Joining texts adds nothing but texts. -/
theorem mem_preorder_joined (hk : kind.isText = false) (h : kind ∈ f.joined.preorder) :
    kind ∈ f.preorder := by
  induction f with
  | nil => exact h
  | cons top below rest ihb ihr =>
    have hjoined := mem_preorder_attach hk h
    simp only [preorder, List.mem_cons, List.mem_append] at hjoined ⊢
    exact hjoined.imp_right (Or.imp ihb ihr)

theorem HasNoXml.joined (h : f.HasNoXml) : f.joined.HasNoXml := fun content hm =>
  h content (mem_preorder_joined rfl hm)

end Forest

namespace Markup

open Document

variable {d d' : Document} {s : String} {style : Style}

/-! ## Writing and reading -/

theorem textOf_map_asRead (ts : List Token) : textOf (ts.map Token.asRead) = textOf ts := by
  induction ts with
  | nil => rfl
  | cons t ts ih => rw [List.map_cons, textOf_cons, textOf_cons, written_asRead, ih]

theorem parted_map_asRead {ts : List Token} (h : Parted ts) : Parted (ts.map Token.asRead) := by
  refine (List.isChain_map _).2 (h.imp fun s t hst => ?_)
  simpa only [isText_asRead] using hst

/-- A document that can be read is written, as the tokens of its trees with their texts joined. -/
theorem write_of_readable (hl : d.Linked) (hs : d.Shaped) (h : d.payloads.IsReadableTree)
    (style : Style) : ∃ s, write style d = .ok s ∧
      s.toList = textOf ((style.wholeTokens d d.payloads.joined).map Token.asRead) := by
  have hplain : ∀ child ∈ d.children .root, (d.kindOf child).isCharacterData = false := by
    intro child hc
    refine h.no_characters _ ?_
    rw [tops_payloads hl]
    exact List.mem_map_of_mem hc
  refine ⟨_, write_eq hl hs (isSome_documentElement? ?_) hplain style, ?_⟩
  · rw [← length_filter_tops hl, h.one_element]
  · rw [textOf_map_asRead, ← textOf_wholeTokens_joined style d h.fits h.no_characters]
    exact String.toList_ofList

/-- The tokens of a document that can be read are found again in its text. -/
theorem legible_map_asRead (hp : d.HasReadableProlog) {f : Forest NodeKind} (h : f.IsReadableTree)
    (hparted : f.IsParted) (style : Style) :
    (∀ t ∈ (style.wholeTokens d f).map Token.asRead, t.Legible) ∧
      Parted ((style.wholeTokens d f).map Token.asRead) ∧
      startsText ((style.wholeTokens d f).map Token.asRead) = false := by
  obtain ⟨hp', hs⟩ := parted_wholeTokens hparted h.fits h.no_characters h.ne_nil style d
  refine ⟨List.forall_mem_map.2 (legible_wholeTokens hp h.readable), parted_map_asRead hp', ?_⟩
  simp only [startsText, List.head?_map, Option.any_map, isText_asRead]
  exact hs

/-- Whatever is read in place of a document that was written, its trees are what is left of the
trees that were written. -/
theorem payloads_of_parse_write (hl : d.Linked) (hs : d.Shaped) (hp : d.HasReadableProlog)
    (h : d.payloads.IsReadableTree) (hw : write style d = .ok s) (hr : parse s = .ok d') :
    d'.payloads = d.payloads.joined.reread false ∧ d'.doctype = d.doctype := by
  obtain ⟨_, hw', htext⟩ := write_of_readable hl hs h style
  obtain rfl := Except.ok.inj (hw'.symm.trans hw)
  obtain ⟨hlegible, hparted, hstart⟩ :=
    legible_map_asRead hp h.joined (Forest.isParted_joined _) style
  obtain ⟨⟨names, b⟩, htake, hfinish⟩ := exists_takeAll_of_parse htext hlegible hparted hstart
    (paired_map_asRead (paired_wholeTokens style d _) []) hr
  obtain ⟨-, hfeed⟩ := takeAll_eq_ok_iff.1 htake
  have hend : Token.endOfInput ∉ (style.wholeTokens d d.payloads.joined).map Token.asRead :=
    fun hm => (hlegible _ hm).more rfl
  have hdecodable := isDecodable_of_feedAll hfeed hend
  obtain ⟨b', hb', hfinish', -, hpayloads, hdoctype, -⟩ :=
    exists_feedAll_wholeTokens hp h.joined style fun t ht => hdecodable _
      (List.mem_map_of_mem (List.mem_append_left _ (List.mem_append_right _ ht)))
  obtain rfl := Except.ok.inj (hfeed.symm.trans hb')
  obtain rfl := Except.ok.inj (hfinish.symm.trans hfinish')
  exact ⟨hpayloads, hdoctype⟩

/-- The text of trees without texts side by side and without instructions that are named like
declarations is read. -/
theorem exists_parse_of_wholeTokens (hp : d.HasReadableProlog) {f : Forest NodeKind}
    (h : f.IsReadableTree) (hparted : f.IsParted) (hx : f.HasNoXml)
    (htext : s.toList = textOf (style.wholeTokens d f)) :
    ∃ d', parse s = .ok d' ∧ d'.Sound ∧ d'.declaration = d.declaration ∧
      d'.doctype = d.doctype ∧ d'.payloads = f.reread false := by
  obtain ⟨hlegible, hparted, hstart⟩ := legible_map_asRead hp h hparted style
  obtain ⟨b, hfeed, hfinish, hsound, hpayloads, hdoctype, hdeclaration⟩ :=
    exists_feedAll_wholeTokens hp h style fun t ht =>
      (isDecodable_topTokens h.readable hx t ht).2
  have htake := takeAll_eq_ok_iff.2 ⟨paired_map_asRead (paired_wholeTokens style d f) [], hfeed⟩
  rw [← textOf_map_asRead] at htext
  exact ⟨b.document, parse_of_takeAll htext hlegible hparted hstart htake hfinish, hsound,
    hdeclaration hx, hdoctype, hpayloads⟩

/-- A document without instructions that are named like declarations is read again. -/
theorem exists_parse_write (hl : d.Linked) (hs : d.Shaped) (hp : d.HasReadableProlog)
    (h : d.payloads.IsReadableTree) (hx : d.payloads.HasNoXml) (style : Style) :
    ∃ s d', write style d = .ok s ∧ parse s = .ok d' ∧ d'.Sound ∧
      d'.declaration = d.declaration ∧ d'.doctype = d.doctype ∧
      d'.payloads = d.payloads.joined.reread false := by
  obtain ⟨s, hw, htext⟩ := write_of_readable hl hs h style
  rw [textOf_map_asRead] at htext
  obtain ⟨d', hd'⟩ :=
    exists_parse_of_wholeTokens hp h.joined (Forest.isParted_joined _) hx.joined htext
  exact ⟨s, d', hw, hd'⟩

/-! ## What was read -/

/-- What was read from a text and is written is read again, with texts that stand side by side as
one text; it is the same document exactly if there are none. -/
theorem parse_write_of_parse {s : String} (h : parse s = .ok d) (hn : d.payloads.IsNamed)
    (hq : ∀ declaration ∈ d.declaration, '"' ∉ declaration.version.toList ∧
      ∀ encoding ∈ declaration.encoding, '"' ∉ encoding.toList)
    (hne : d.doctype ≠ some "") (hx : d.payloads.HasNoXml) (style : Style) :
    ∃ t d', write style d = .ok t ∧ parse t = .ok d' ∧ d'.declaration = d.declaration ∧
      d'.doctype = d.doctype ∧ d'.payloads = d.payloads.joined ∧
      ((d' == d) = true ↔ d.payloads.IsParted) := by
  obtain ⟨hdenotes, hsound, -⟩ := denotes_of_parse h
  obtain ⟨t, d', hw, hr, hsound', hdeclaration, hdoctype, hpayloads⟩ :=
    exists_parse_write hsound.linked hsound.shaped (hasReadableProlog_of_parse h hq hne)
      (isReadableTree_of_parse h hn) hx style
  have hall : d.payloads.AllReread false := Forest.allReread_iff.2 (hdenotes.reread_eq hx)
  rw [hall.joined.reread_eq] at hpayloads
  refine ⟨t, d', hw, hr, hdeclaration, hdoctype, hpayloads, ?_⟩
  have hkind : d'.kind? .root = d.kind? .root := by
    rw [(hsound'.shaped.root_iff .root).2 rfl, (hsound.shaped.root_iff .root).2 rfl]
  have hsame : (d' == d) = true ↔ _ := hsound'.linked.same_iff hsound.linked hkind
  rw [hsame, hpayloads]
  refine ⟨fun ⟨_, _, he⟩ => he ▸ Forest.isParted_joined _, fun hparted => ?_⟩
  exact ⟨hdeclaration, hdoctype, Forest.joined_of_isParted hparted⟩

/-- A drawing with both declarations and texts around an element comes back as it was. -/
theorem parse_write_of_parse_of_mixed :
    ∃ d, parse "<?xml version='1.0'?><!DOCTYPE svg><svg a='1'>b<i/>c</svg>" = .ok d ∧
      d.payloads.IsNamed ∧ d.payloads.HasNoXml ∧ d.payloads.IsParted ∧
      ∃ t d', write ⟨true, 2, .single, false, true⟩ d = .ok t ∧ parse t = .ok d' ∧
        (d' == d) = true := by
  obtain ⟨d, h, hdeclaration, hdoctype, hpayloads⟩ :
      ∃ d, parse "<?xml version='1.0'?><!DOCTYPE svg><svg a='1'>b<i/>c</svg>" = .ok d ∧
        d.declaration = some ⟨"1.0", none, none⟩ ∧ d.doctype = some "svg" ∧
        d.payloads = .cons (.element ⟨QName.ofString "svg", [Attribute.ofStrings "a" "1"]⟩)
          (.cons (.text "b") .nil (.cons (.element (Element.named "i")) .nil
            (.cons (.text "c") .nil .nil))) .nil :=
    ⟨_, rfl, rfl, rfl, rfl⟩
  have hn : d.payloads.IsNamed := by
    rw [hpayloads]
    decide
  have hx : d.payloads.HasNoXml := by
    rw [hpayloads]
    decide
  have hparted : d.payloads.IsParted := by
    rw [hpayloads]
    exact ⟨by decide, ⟨by decide, trivial, by decide, trivial, by decide, trivial, trivial⟩, trivial⟩
  obtain ⟨t, d', hw, hr, -, -, -, hsame⟩ := parse_write_of_parse h hn
    (by rw [hdeclaration]; decide) (by rw [hdoctype]; decide) hx ⟨true, 2, .single, false, true⟩
  exact ⟨d, h, hn, hx, hparted, t, d', hw, hr, hsame.2 hparted⟩

/-- A document type between two texts is written before the tree, and the texts are read as one. -/
theorem parse_write_joins_texts :
    ∃ d d', parse "<svg>a<!DOCTYPE x>b</svg>" = .ok d ∧
      write {} d = .ok "<!DOCTYPE x><svg>ab</svg>" ∧
      parse "<!DOCTYPE x><svg>ab</svg>" = .ok d' ∧ (d' == d) = false :=
  ⟨_, _, rfl, rfl, rfl, rfl⟩

end Markup

end SvgPress
