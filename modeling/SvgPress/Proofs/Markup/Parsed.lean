import SvgPress.Proofs.Markup.Accepting
import SvgPress.Proofs.Markup.Joined
import SvgPress.Proofs.Markup.RoundTrip
import SvgPress.Proofs.Markup.Scanned

/-!
# Documents that are read

What is read from a text is built from the tokens of the text: they denote its trees, so one element
and no character data stand directly under the root. If the names that are read are names, all of it
can be written so that it is found again, but for a document type without a name, a declaration that
holds double quotes and instructions that are named like declarations.
-/

namespace SvgPress

/-- The name of an element and the names of its attributes are names. -/
structure Element.IsNamed (e : Element) : Prop where
  name : Content.isName e.name.full.toList = true
  attributes : ∀ a ∈ e.attributes, Content.isName a.name.full.toList = true

instance (e : Element) : Decidable e.IsNamed :=
  decidable_of_iff (Content.isName e.name.full.toList = true ∧
      ∀ a ∈ e.attributes, Content.isName a.name.full.toList = true)
    ⟨fun h => ⟨h.1, h.2⟩, fun h => ⟨h.1, h.2⟩⟩

/-- The names in all elements are names. -/
def Forest.IsNamed (f : Forest NodeKind) : Prop :=
  ∀ kind ∈ f.preorder, ∀ e ∈ kind.element?, e.IsNamed

instance (f : Forest NodeKind) : Decidable f.IsNamed :=
  inferInstanceAs (Decidable (∀ kind ∈ f.preorder, ∀ e ∈ kind.element?, e.IsNamed))

/-- No instruction in the trees is named like an XML declaration. -/
def Forest.HasNoXml (f : Forest NodeKind) : Prop :=
  ∀ content, NodeKind.instruction "xml" content ∉ f.preorder

instance (f : Forest NodeKind) : Decidable f.HasNoXml :=
  decidable_of_iff (f.preorder.all fun kind => kind.isReread true) <| by
    rw [List.all_eq_true]
    constructor
    · intro h content hm
      exact absurd (h _ hm) (by simp [NodeKind.isReread])
    · intro h kind hk
      cases kind with
      | instruction target content =>
        rw [NodeKind.isReread, bne_iff_ne]
        rintro rfl
        exact h content hk
      | text content => exact Bool.or_true _
      | _ => rfl

theorem Forest.isNamed_cons_iff {kind : NodeKind} {below rest : Forest NodeKind} :
    (cons kind below rest).IsNamed ↔
      (∀ e ∈ kind.element?, e.IsNamed) ∧ below.IsNamed ∧ rest.IsNamed := by
  simp only [IsNamed, preorder, List.forall_mem_cons, List.forall_mem_append]

namespace Markup

open Document

variable {b b' : Builder} {t : Token} {ts : List Token} {d : Document} {s : String} {around : Bool}
  {f : Forest NodeKind}

/-! ## What is taken in -/

theorem Decides.feedAll_tokens {scanner : Scanner} {count bound : Nat}
    {outcome : Except Error Document} (h : Decides scanner b count outcome) (ho : outcome = .ok d)
    (hb : scanner.rest.length < bound) :
    ∃ b', b.feedAll (scanner.tokens bound) = .ok b' ∧ b'.finish = .ok d := by
  induction h generalizing bound with
  | @last scanner b outcome h =>
    subst ho
    obtain ⟨bound, rfl⟩ : ∃ n, bound = n + 1 := ⟨bound - 1, by omega⟩
    obtain ⟨after, hend, hfinish⟩ := advance_eq_done_ok_iff.1 h
    refine ⟨b, ?_, hfinish⟩
    rw [Scanner.tokens, hend]
    rfl
  | @next scanner scanner' b b' count outcome h _ ih =>
    obtain ⟨bound, rfl⟩ : ∃ n, bound = n + 1 := ⟨bound - 1, by omega⟩
    have hlt := length_lt_of_advance h
    obtain ⟨b'', hts, hfinish⟩ := ih ho (by omega : scanner'.rest.length < bound)
    obtain ⟨token, hnext, hne, hfeed⟩ := advance_eq_running_iff.1 h
    rw [tokens_of_next hnext hne]
    exact ⟨b'', Builder.feedAll_cons_eq_ok_iff.2 ⟨_, hfeed, hts⟩, hfinish⟩

/-- A text that can be read describes what its tokens build. -/
theorem build_tokensOf (h : parse s = .ok d) :
    (∀ t ∈ tokensOf s, t.IsDecodable) ∧ Builder.build (tokensOf s) = .ok d := by
  have hd := decides_parse s
  rw [h] at hd
  obtain ⟨b, hb, hfinish⟩ := hd.feedAll_tokens rfl (Nat.lt_succ_self _)
  have hend : Token.endOfInput ∉ tokensOf s := fun hm => (isFound_of_mem_tokensOf _ hm).2 rfl
  exact ⟨isDecodable_of_feedAll hb hend, Outcome.bind_eq_ok_iff.2 ⟨b, hb, hfinish⟩⟩

/-- The tokens of a text that can be read denote the trees of the document. -/
theorem denotes_of_parse (h : parse s = .ok d) :
    Denotes false (tokensOf s) d.payloads ∧ d.Sound ∧
      (d.childElements .root).length = 1 ∧
      d.declaration = ((tokensOf s).filterMap Token.declaration?).getLast? ∧
      d.doctype = ((tokensOf s).filterMap Token.doctype?).getLast? := by
  obtain ⟨hd, hb⟩ := build_tokensOf h
  obtain ⟨b, hts, rfl, hdocument⟩ := (build_eq_ok_iff hd).1 hb
  obtain ⟨hconsumed, -⟩ := consumed_of_feedAll hd hts
  obtain ⟨f, hf⟩ := hdocument.exists_denotes hd
  obtain ⟨hdeclaration, hdoctype⟩ := prolog_of_feedAll hts
  rw [hdocument.payloads_eq hf hts]
  refine ⟨hf, hconsumed.sound, hconsumed.elements.trans hdocument.one_element, ?_, ?_⟩
  · rw [hdeclaration]
    exact Option.or_none
  · rw [hdoctype]
    exact Option.or_none

/-- One element and no character data stand directly under the root of a document that is read. -/
theorem tops_of_parse (h : parse s = .ok d) : (d.childElements .root).length = 1 ∧
    ∀ child ∈ d.children .root, (d.kindOf child).isCharacterData = false := by
  obtain ⟨hd, hb⟩ := build_tokensOf h
  obtain ⟨b, hts, rfl, hdocument⟩ := (build_eq_ok_iff hd).1 hb
  obtain ⟨hdenotes, hsound, hone, -⟩ := denotes_of_parse h
  refine ⟨hone, fun child hm => ?_⟩
  have hroot : Builder.empty.current = .root := rfl
  refine (hdocument.ready hdenotes).no_characters hroot _ ?_
  rw [tops_payloads hsound.linked]
  exact List.mem_map_of_mem hm

/-! ## What is read can be read again -/

theorem isReadable_instructionOf {content : String}
    (h : (Token.instruction content).IsFound) :
    (Builder.instructionOf content).IsReadable := by
  obtain ⟨hhead, hends⟩ := h
  rcases instructionOf_cases content with
    ⟨hunspaced, he⟩ | ⟨target, space, rest, hsplit, hunspaced, he⟩
  · rw [he]
    exact ⟨hunspaced, fun c hc => absurd hc (by simp), hhead, hends⟩
  have htarget : ∀ c ∈ (String.ofList target).toList, Text.isSpace c = false := by
    rwa [String.toList_ofList]
  have hheads : ∀ c ∈ target.head?, c ≠ '>' := fun c hc =>
    hhead c (by rw [hsplit, List.head?_append, Option.mem_def.1 hc]; rfl)
  have hstart : target <:+: content.toList := hsplit ▸ (List.prefix_append _ _).isInfix
  have hopen := Text.contains_of_isInfix hends hstart
  rw [he]
  split_ifs with hblank
  · refine ⟨htarget, fun c hc => absurd hc (by simp), ?_, ?_⟩
    · rwa [instructionText, String.toList_ofList]
    · exact (congrArg (Text.contains _) String.toList_ofList).trans hopen
  · have hrest : rest <:+: content.toList :=
      hsplit ▸ ((List.suffix_cons space rest).trans (List.suffix_append target _)).isInfix
    have hcontent := Text.contains_of_isInfix hends
      ((Text.isInfix_strip Text.isSpace rest).trans hrest)
    refine ⟨htarget, fun c hc => ?_, fun c hc => ?_, ?_⟩
    · obtain rfl := Option.some.inj hc
      refine ⟨fun hempty => hblank ?_, ?_⟩
      · simpa using congrArg String.toList hempty
      · simp only [Text.trimSpace, Text.stripString, String.toList_ofList, Text.strip_strip]
    · rw [toList_instructionText, String.toList_ofList, List.head?_append, Option.mem_def,
        Option.or_eq_some_iff] at hc
      rcases hc with hc | ⟨-, hc⟩
      · exact hheads c hc
      · obtain rfl := Option.some.inj hc
        decide
    · have hspace := Text.contains_append_cons (by decide : ' ' ∉ "?>".toList) target
        (Text.strip Text.isSpace rest)
      rw [hopen, hcontent, Bool.or_self] at hspace
      simp only [toList_instructionText, String.toList_ofList, Option.map_some, Option.getD_some]
      exact hspace

theorem ne_empty_of_expand {raw content : String} (h : expand raw = .ok content) (hne : raw ≠ "") :
    content ≠ "" := by
  rintro rfl
  obtain ⟨cs, hcs, hnil⟩ := Outcome.map_eq_ok_iff.1 h
  have hempty : cs = [] := by simpa using congrArg String.toList hnil
  rw [hempty] at hcs
  -- A reference stands for a character, and every other character for itself.
  have hinside : ∀ (cs : List Char) (total position : Nat) (start : Nat × List Char),
      expandFrom total position (some start) cs ≠ .ok [] := by
    intro cs
    induction cs with
    | nil => exact fun _ _ _ he => by simp [expandFrom] at he
    | cons c cs ih =>
      intro total position start he
      rw [expandFrom] at he
      split_ifs at he
      · obtain ⟨_, -, he⟩ := Outcome.bind_eq_ok_iff.1 he
        obtain ⟨_, -, he⟩ := Outcome.bind_eq_ok_iff.1 he
        simp [pure, Except.pure] at he
      · exact ih _ _ _ he
  cases hraw : raw.toList with
  | nil => exact hne (String.toList_eq_nil_iff.1 hraw)
  | cons c rest =>
    rw [hraw, expandFrom] at hcs
    split_ifs at hcs
    · exact hinside _ _ _ _ hcs
    · obtain ⟨_, -, hcs⟩ := Outcome.bind_eq_ok_iff.1 hcs
      simp [pure, Except.pure] at hcs

theorem isChecked_of_element {tag : Tag} {e : Element} (h : tag.element = .ok e) (hn : e.IsNamed) :
    e.IsChecked := by
  obtain ⟨hname, hattributes, hdistinct⟩ := of_element h
  refine ⟨⟨tag.name, ?_, hname⟩, fun a ha => ⟨a.name.full, hn.attributes a ha, hattributes a ha⟩,
    hdistinct⟩
  have hisname := hn.name
  rwa [hname, QName.full_ofString] at hisname

/-- What found tokens denote can be found again, if its names are names. -/
theorem Denotes.isReadable (h : Denotes around ts f) (hfound : ∀ t ∈ ts, t.IsFound)
    (hn : f.IsNamed) : f.IsReadable := by
  induction h with
  | nil => exact fun _ hk => absurd hk List.not_mem_nil
  | element he _ _ ihb ihr =>
    rw [List.forall_mem_cons, List.forall_mem_append, List.forall_mem_cons] at hfound
    obtain ⟨-, hinside, -, hafter⟩ := hfound
    obtain ⟨hkind, hbelow, hrest⟩ := Forest.isNamed_cons_iff.1 hn
    exact Forest.isReadable_cons_iff.2
      ⟨isChecked_of_element he (hkind _ rfl), ihb hinside hbelow, ihr hafter hrest⟩
  | empty he _ ih =>
    obtain ⟨-, hafter⟩ := List.forall_mem_cons.1 hfound
    obtain ⟨hkind, hbelow, hrest⟩ := Forest.isNamed_cons_iff.1 hn
    exact Forest.isReadable_cons_iff.2 ⟨isChecked_of_element he (hkind _ rfl),
      fun _ hk => absurd hk List.not_mem_nil, ih hafter hrest⟩
  | text hc _ _ ih =>
    obtain ⟨hraw, hafter⟩ := List.forall_mem_cons.1 hfound
    obtain ⟨-, -, hrest⟩ := Forest.isNamed_cons_iff.1 hn
    exact Forest.isReadable_cons_iff.2
      ⟨ne_empty_of_expand hc hraw, fun _ hk => absurd hk List.not_mem_nil, ih hafter hrest⟩
  | cdata _ ih | comment _ ih =>
    obtain ⟨hcontent, hafter⟩ := List.forall_mem_cons.1 hfound
    obtain ⟨-, -, hrest⟩ := Forest.isNamed_cons_iff.1 hn
    exact Forest.isReadable_cons_iff.2
      ⟨hcontent, fun _ hk => absurd hk List.not_mem_nil, ih hafter hrest⟩
  | instruction _ ih =>
    obtain ⟨hcontent, hafter⟩ := List.forall_mem_cons.1 hfound
    obtain ⟨-, -, hrest⟩ := Forest.isNamed_cons_iff.1 hn
    exact Forest.isReadable_cons_iff.2
      ⟨isReadable_instructionOf hcontent, fun _ hk => absurd hk List.not_mem_nil, ih hafter hrest⟩
  | blank _ _ _ ih | declaration _ _ ih | doctype _ ih => exact ih (List.forall_mem_cons.1 hfound).2 hn

/-- Blank text is denoted only where blanks count. -/
theorem Denotes.reread_eq (h : Denotes around ts f) (hx : f.HasNoXml) : f.reread around = f := by
  have hleaf : ∀ {around : Bool} {kind : NodeKind} {rest : Forest NodeKind},
      kind.isReread around = true → rest.reread around = rest →
      (Forest.cons kind .nil rest).reread around = .cons kind .nil rest := by
    intro around kind rest hkind hrest
    rw [Forest.reread, if_pos hkind, hrest]
    rfl
  have hrest : ∀ {kind : NodeKind} {below rest : Forest NodeKind},
      (Forest.cons kind below rest).HasNoXml → rest.HasNoXml := fun h content hm =>
    h content (List.mem_cons_of_mem _ (List.mem_append_right _ hm))
  induction h with
  | nil => rfl
  | element _ _ _ ihb ihr =>
    have hbelow := ihb fun content hm =>
      hx content (List.mem_cons_of_mem _ (List.mem_append_left _ hm))
    have hscope := ihr (hrest hx)
    have hkind : ∀ {around e}, NodeKind.isReread around (.element e) = true := rfl
    rw [Forest.reread, if_pos hkind, NodeKind.preservesBelow, hbelow, hscope]
  | empty _ _ ih => exact hleaf rfl (ih (hrest hx))
  | text _ hk _ ih =>
    refine hleaf ?_ (ih (hrest hx))
    rcases hk with hk | rfl <;> simp [NodeKind.isReread, *]
  | cdata _ ih | comment _ ih => exact hleaf rfl (ih (hrest hx))
  | @instruction _ content _ _ _ ih =>
    refine hleaf ?_ (ih (hrest hx))
    obtain ⟨target, rest, hkind⟩ := instructionOf_eq content
    rw [hkind, NodeKind.isReread, bne_iff_ne]
    rintro rfl
    exact hx rest (hkind ▸ List.mem_cons_self)
  | blank _ _ _ ih | declaration _ _ ih | doctype _ ih => exact ih hx

/-- What is read from a text can be read again, if its names are names. -/
theorem isReadableTree_of_parse (h : parse s = .ok d) (hn : d.payloads.IsNamed) :
    d.payloads.IsReadableTree := by
  obtain ⟨hdenotes, hsound, -⟩ := denotes_of_parse h
  obtain ⟨hone, hplain⟩ := tops_of_parse h
  exact isReadableTree_payloads hsound.linked hsound.shaped
    (hdenotes.isReadable (fun t ht => (isFound_of_mem_tokensOf t ht).1) hn) hone hplain

/-- What is read before the tree can be read again, unless a declaration holds double quotes or a
document type has no name. -/
theorem hasReadableProlog_of_parse (h : parse s = .ok d)
    (hq : ∀ declaration ∈ d.declaration, '"' ∉ declaration.version.toList ∧
      ∀ encoding ∈ declaration.encoding, '"' ∉ encoding.toList)
    (hne : d.doctype ≠ some "") : d.HasReadableProlog := by
  obtain ⟨-, -, -, hdeclaration, hdoctype⟩ := denotes_of_parse h
  refine ⟨fun declaration hd => ?_, fun doctype hd => ?_⟩
  · obtain ⟨hversion, hencoding⟩ := hq declaration hd
    rw [hdeclaration] at hd
    obtain ⟨t, ht, hstated⟩ := List.mem_filterMap.1 (List.mem_of_getLast? hd)
    cases t with
    | declaration tag =>
      have hok : Builder.declarationOf tag = .ok declaration := by
        rw [Token.declaration?] at hstated
        cases hof : Builder.declarationOf tag with
        | ok x => simpa [hof, Except.toOption] using hstated
        | error cause => simp [hof, Except.toOption] at hstated
      exact isQuotable_of_declarationOf hok (isFound_of_mem_tokensOf _ ht).1 hversion hencoding
    | _ => simp [Token.declaration?] at hstated
  · have hname : doctype ≠ "" := fun he => hne (he ▸ hd)
    rw [hdoctype] at hd
    obtain ⟨t, ht, hstated⟩ := List.mem_filterMap.1 (List.mem_of_getLast? hd)
    cases t with
    | doctype content =>
      obtain rfl := Option.some.inj hstated
      exact ⟨hname, Text.trimSpace_trimSpace content,
        isBalanced_trimSpace (isFound_of_mem_tokensOf _ ht).1⟩
    | _ => simp [Token.doctype?] at hstated

end Markup

end SvgPress
