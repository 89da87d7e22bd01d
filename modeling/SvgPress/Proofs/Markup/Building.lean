import SvgPress.Proofs.Markup.Raising
import SvgPress.Proofs.Markup.Styled

/-!
# What written tokens build

The tokens that are written for trees denote these trees, but for blank text where blanks do not
count and for instructions that are named like declarations. Line breaks stand only where blanks are
dropped, and every end tag names the element that it closes. So the tokens of a document are taken
in, and build its trees again.
-/

namespace SvgPress

/-- Whether what is written for a payload is read as a payload: blank text only where blanks count,
and instructions unless they are named like declarations. -/
def NodeKind.isReread (preserving : Bool) : NodeKind → Bool
  | .text content => !Text.allBlank content || preserving
  | .instruction target _ => target != "xml"
  | _ => true

/-- What is left of trees that have been written and read. -/
def Forest.reread : (preserving : Bool) → Forest NodeKind → Forest NodeKind
  | _, nil => nil
  | preserving, cons kind below rest =>
    if kind.isReread preserving then
      cons kind (below.reread (kind.preservesBelow preserving)) (rest.reread preserving)
    else rest.reread preserving

namespace Markup

open Document

variable {names names' : List String} {b b' : Builder} {ts inside : List Token}
  {f below : Forest NodeKind} {kind : NodeKind} {around breaks : Bool} {e : Element}
  {d : Document} {style : Style}

/-! ## Taking in -/

theorem takeAll_eq_ok_iff : takeAll (names, b) ts = .ok (names', b') ↔
    ts.foldlM track names = .ok names' ∧ b.feedAll ts = .ok b' := by
  induction ts generalizing names b with
  | nil =>
    rw [takeAll, Builder.feedAll]
    simp only [List.foldlM_nil, pure, Except.pure, Except.ok.injEq, Prod.mk.injEq]
  | cons t ts ih =>
    rw [takeAll_cons_eq_ok_iff, List.foldlM_cons, Outcome.bind_eq_ok_iff,
      Builder.feedAll_cons_eq_ok_iff]
    constructor
    · rintro ⟨⟨names₁, b₁⟩, ht, hts⟩
      obtain ⟨hn, hb⟩ := takeIn_eq_ok_iff.1 ht
      obtain ⟨hns, hbs⟩ := ih.1 hts
      exact ⟨⟨names₁, hn, hns⟩, b₁, hb, hbs⟩
    · rintro ⟨⟨names₁, hn, hns⟩, b₁, hb, hbs⟩
      exact ⟨(names₁, b₁), takeIn_eq_ok_iff.2 ⟨hn, hb⟩, ih.2 ⟨hns, hbs⟩⟩

/-- What a token stands for is known once it has been taken in. -/
theorem isDecodable_of_feed {t : Token} (h : b.feed t = .ok b') (ht : t ≠ .endOfInput) :
    t.IsDecodable := by
  cases Builder.takes_of_feed h with
  | declaration hd => exact ⟨_, hd⟩
  | start he => exact ⟨_, he⟩
  | blank hc => exact ⟨_, hc⟩
  | node hk =>
    cases hk with
    | empty he => exact ⟨_, he⟩
    | text hc => exact ⟨_, hc⟩
    | _ => trivial
  | endOfInput => exact absurd rfl ht
  | doctype | close => trivial

theorem isDecodable_of_feedAll (h : b.feedAll ts = .ok b') (hts : .endOfInput ∉ ts) :
    ∀ t ∈ ts, t.IsDecodable := by
  induction ts generalizing b with
  | nil => exact fun t ht => absurd ht List.not_mem_nil
  | cons t ts ih =>
    obtain ⟨b₁, ht, hrest⟩ := Builder.feedAll_cons_eq_ok_iff.1 h
    rw [List.mem_cons, not_or] at hts
    exact List.forall_mem_cons.2 ⟨isDecodable_of_feed ht (Ne.symm hts.1), ih hrest hts.2⟩

/-! ## Paired tags -/

/-- The tags among the tokens are paired by name. -/
def Paired (ts : List Token) : Prop :=
  ∀ names, ts.foldlM track names = .ok names

theorem Paired.append {ts' : List Token} (h : Paired ts) (h' : Paired ts') :
    Paired (ts ++ ts') := by
  intro names
  rw [List.foldlM_append, Outcome.bind_eq_ok_iff]
  exact ⟨names, h names, h' names⟩

theorem Paired.nil : Paired [] := fun _ => rfl

theorem Paired.single {t : Token} (h : ∀ names, track names t = .ok names) : Paired [t] := by
  intro names
  rw [List.foldlM_cons, h names]
  rfl

theorem paired_breakTokens (style : Style) (breaks : Bool) (depth : Nat) :
    Paired (style.breakTokens breaks depth) := by
  rw [Style.breakTokens]
  split_ifs
  · exact .single fun _ => rfl
  · exact .nil

theorem paired_nodeTokens (style : Style) (kind : NodeKind) (childless : Bool)
    (hi : Paired inside) : Paired (style.nodeTokens kind childless inside) := by
  have htags : ∀ {ts} (e : Element), Paired ts →
      Paired (.start (style.tag e) :: (ts ++ [.close e.name.full])) := by
    intro ts e hts names
    have hclose : track (e.name.full :: names) (.close e.name.full) = .ok names := if_pos rfl
    have hinside : (ts ++ [Token.close e.name.full]).foldlM track (e.name.full :: names) =
        .ok names := by
      rw [List.foldlM_append, Outcome.bind_eq_ok_iff]
      refine ⟨_, hts _, ?_⟩
      rw [List.foldlM_cons, hclose]
      rfl
    exact hinside
  cases kind with
  | root => exact .nil
  | element e =>
    simp only [Style.nodeTokens]
    split_ifs
    · exact .single fun _ => rfl
    · exact htags e .nil
    · exact htags e hi
  | _ => exact .single fun _ => rfl

theorem paired_tokens (style : Style) (depth : Nat) (preserving breaks : Bool)
    (f : Forest NodeKind) : Paired (style.tokens depth preserving breaks f) := by
  induction f generalizing depth preserving breaks with
  | nil => exact .nil
  | cons kind below rest ihb ihr =>
    exact ((paired_breakTokens _ _ _).append (paired_nodeTokens _ _ _
      ((ihb _ _ _).append (paired_breakTokens _ _ _)))).append (ihr _ _ _)

theorem paired_wholeTokens (style : Style) (d : Document) (f : Forest NodeKind) :
    Paired (style.wholeTokens d f) := by
  have hprolog : Paired (style.prologTokens d) := by
    refine Paired.append ?_ ?_
    · cases d.declaration with
      | none => exact .nil
      | some declaration => exact (Paired.single fun _ => rfl).append (paired_breakTokens _ _ _)
    · cases d.doctype with
      | none => exact .nil
      | some doctype => exact (Paired.single fun _ => rfl).append (paired_breakTokens _ _ _)
  have htop : Paired (style.topTokens f) := by
    cases f with
    | nil => exact .nil
    | cons kind below rest => exact (paired_tokens _ _ _ _ _).append (paired_tokens _ _ _ _ _)
  refine (hprolog.append htop).append ?_
  split_ifs
  · exact .single fun _ => rfl
  · exact .nil

theorem paired_map_asRead (h : Paired ts) : Paired (ts.map Token.asRead) := by
  intro names
  rw [List.foldlM_map]
  simpa only [track_asRead] using h names

/-! ## Nodes -/

/-- What is written for a processing instruction is read as this instruction. -/
theorem instructionOf_instructionText {target : String} {content : Option String}
    (h : IsReadableInstruction target content) :
    Builder.instructionOf (instructionText target content) = .instruction target content := by
  have htarget : ∀ c ∈ target.toList, (!Text.isSpace c) = true := fun c hc => by
    simp [h.unspaced c hc]
  cases content with
  | none =>
    have hspan : (target.toList ++ []).span (!Text.isSpace ·) = (target.toList, []) :=
      Text.span_append htarget (by simp)
    rw [List.append_nil] at hspan
    rw [Builder.instructionOf, instructionText, hspan]
  | some content =>
    have hspan : (target.toList ++ ' ' :: content.toList).span (!Text.isSpace ·) =
        (target.toList, ' ' :: content.toList) :=
      Text.span_append htarget (by simpa using (by decide : Text.isSpace ' ' = true))
    obtain ⟨hcontent, htrim⟩ := h.trimmed content rfl
    have hstrip : Text.strip Text.isSpace content.toList = content.toList := by
      have hs := congrArg String.toList htrim
      rwa [Text.trimSpace, Text.stripString, String.toList_ofList] at hs
    have htext : (instructionText target (some content)).toList =
        target.toList ++ ' ' :: content.toList := by simp [instructionText]
    have hne : content.toList ≠ [] := fun he => hcontent (String.toList_eq_nil_iff.1 he)
    rw [Builder.instructionOf, htext, hspan]
    simp only [hstrip, String.ofList_toList]

theorem expand_blank {raw : String} (hb : Text.allBlank raw = true) : expand raw = .ok raw :=
  expand_eq_self (not_mem_of_allBlank hb (by decide))

theorem denotes_leaf (style : Style) (hk : kind.IsReadable) (hr : kind ≠ .root)
    (he : kind.element? = none) {childless : Bool}
    (hd : ∀ t ∈ style.nodeTokens kind childless inside, t.asRead.IsDecodable) :
    Denotes around ((style.nodeTokens kind childless inside).map Token.asRead)
      (if kind.isReread around then .cons kind .nil .nil else .nil) := by
  cases kind with
  | root => exact absurd rfl hr
  | element e => simp [NodeKind.element?] at he
  | text content =>
    have hexpand := expand_escapeText content
    simp only [NodeKind.isReread, Bool.or_eq_true, Bool.not_eq_true']
    split_ifs with hcounts
    · exact .text hexpand hcounts .nil
    · simp only [not_or, Bool.not_eq_false, Bool.not_eq_true] at hcounts
      obtain ⟨hblank, rfl⟩ := hcounts
      exact .blank hexpand hblank .nil
  | cdata content => exact .cdata .nil
  | comment content => exact .comment .nil
  | instruction target content =>
    have hdecodable := hd _ List.mem_cons_self
    simp only [Style.nodeTokens, List.map_cons, List.map_nil, NodeKind.isReread, bne_iff_ne]
    rw [asRead_instructionText hk] at hdecodable ⊢
    by_cases hxml : target = "xml"
    · rw [if_pos hxml] at hdecodable ⊢
      rw [if_neg (not_not_intro hxml)]
      obtain ⟨declaration, hdeclaration⟩ := hdecodable
      exact .declaration hdeclaration .nil
    · have hsame : Denotes around [.instruction (instructionText target content)] _ :=
        .instruction .nil
      rw [instructionOf_instructionText hk] at hsame
      rwa [if_neg hxml, if_pos hxml]

theorem denotes_element (style : Style) (he : e.IsChecked) {childless : Bool}
    (hinside : childless = false → Denotes (preservesBlanks around e) (inside.map Token.asRead) f)
    (hc : childless = true → f = .nil) :
    Denotes around ((style.nodeTokens (.element e) childless inside).map Token.asRead)
      (.cons (.element e) f .nil) := by
  have htag : (style.tag e).element = .ok e := element_tag he style
  simp only [Style.nodeTokens]
  split_ifs with hchildless
  · obtain rfl := hc hchildless
    exact .empty htag .nil
  · obtain rfl := hc hchildless
    exact .element htag (.nil : Denotes _ [] .nil) .nil
  · rw [List.map_cons, List.map_append]
    exact .element htag (hinside (by simpa using hchildless)) .nil

/-! ## Trees -/

/-- Line breaks are dropped where blanks do not count. -/
theorem denotes_breakTokens (style : Style) (ha : breaks = true → around = false) (depth : Nat) :
    Denotes around ((style.breakTokens breaks depth).map Token.asRead) .nil := by
  rw [Style.breakTokens]
  split_ifs with hb
  · obtain rfl := ha hb
    exact .blank (expand_blank allBlank_lineBreak) allBlank_lineBreak .nil
  · exact .nil

/-- The tokens of trees denote what is left of these trees once they are read. -/
theorem denotes_tokens (style : Style) (depth : Nat) (hf : f.IsReadable) (hfits : f.Fits)
    (ha : breaks = true → around = false)
    (hd : ∀ t ∈ style.tokens depth around breaks f, t.asRead.IsDecodable) :
    Denotes around ((style.tokens depth around breaks f).map Token.asRead) (f.reread around) := by
  induction f generalizing depth breaks around with
  | nil => exact .nil
  | cons kind below rest ihb ihr =>
    obtain ⟨hkind, hbelow, hrest⟩ := Forest.isReadable_cons_iff.1 hf
    obtain ⟨hroot, hleaf, hfbelow, hfrest⟩ := hfits
    rw [Style.tokens] at hd ⊢
    rw [List.forall_mem_append, List.forall_mem_append] at hd
    obtain ⟨⟨-, hdnode⟩, hdrest⟩ := hd
    have hbreaks : style.breaksBelow (kind.preservesBelow around) below = true →
        kind.preservesBelow around = false := fun h => (pretty_of_breaksBelow h).2.1
    have hnode : Denotes around ((style.nodeTokens kind below.tops.isEmpty
        (style.tokens (depth + 1) (kind.preservesBelow around)
          (style.breaksBelow (kind.preservesBelow around) below) below ++ style.breakTokens
            (style.breaksBelow (kind.preservesBelow around) below) depth)).map Token.asRead)
        (if kind.isReread around then
          .cons kind (below.reread (kind.preservesBelow around)) .nil else .nil) := by
      cases kind with
      | element e =>
        cases below with
        | nil =>
          refine denotes_element style hkind (fun h => ?_) fun _ => rfl
          exact absurd h (by simp [Forest.tops])
        | cons top under after =>
          simp only [Style.nodeTokens, Forest.tops, List.isEmpty_cons, Bool.false_eq_true, if_false,
            List.forall_mem_cons, List.forall_mem_append] at hdnode
          have hinside := (ihb (depth + 1) hbelow hfbelow hbreaks hdnode.2.1.1).append
            (denotes_breakTokens style hbreaks depth)
          rw [Forest.append_nil, ← List.map_append] at hinside
          refine denotes_element style hkind (fun _ => hinside) fun h => ?_
          exact absurd h (by simp [Forest.tops])
      | _ =>
        obtain rfl := hleaf rfl
        exact denotes_leaf style hkind hroot rfl hdnode
    have hall := ((denotes_breakTokens style ha depth).append hnode).append
      (ihr depth hrest hfrest ha hdrest)
    rw [← List.map_append, ← List.map_append] at hall
    rw [Forest.reread]
    split_ifs at hall ⊢ <;> exact hall

/-- The tokens of the trees below the root denote what is left of these trees, on lines of their own
or not. -/
theorem denotes_topTokens (style : Style) (hf : f.IsReadable) (hfits : f.Fits)
    (hd : ∀ t ∈ style.topTokens f, t.asRead.IsDecodable) :
    Denotes false ((style.topTokens f).map Token.asRead) (f.reread false) := by
  cases f with
  | nil => exact .nil
  | cons kind below rest =>
    obtain ⟨hkind, hbelow, hrest⟩ := Forest.isReadable_cons_iff.1 hf
    obtain ⟨hroot, hleaf, hfbelow, hfrest⟩ := hfits
    obtain ⟨hdfirst, hdrest⟩ := List.forall_mem_append.1 hd
    have hfirst : Denotes false ((style.tokens 0 false false (.cons kind below .nil)).map
        Token.asRead) ((Forest.cons kind below .nil).reread false) :=
      denotes_tokens style 0
        (Forest.isReadable_cons_iff.2 ⟨hkind, hbelow, fun _ hk => absurd hk List.not_mem_nil⟩)
        ⟨hroot, hleaf, hfbelow, trivial⟩ (by simp) hdfirst
    have hlater := denotes_tokens style 0 hrest hfrest (fun _ => rfl) hdrest
    have hall := hfirst.append hlater
    rw [Style.topTokens, List.map_append]
    rw [Forest.reread, Forest.reread] at hall
    rw [Forest.reread]
    split_ifs at hall ⊢ <;> exact hall

/-! ## What is left of trees -/

theorem tops_reread (f : Forest NodeKind) (around : Bool) :
    (f.reread around).tops = f.tops.filter (·.isReread around) := by
  induction f with
  | nil => rfl
  | cons kind below rest _ ih =>
    rw [Forest.reread, Forest.tops, List.filter_cons]
    split_ifs
    · rw [Forest.tops, ih]
    · exact ih

/-- What is left of the trees of a document may stand under its root. -/
theorem one_element_reread (h : f.IsReadableTree) :
    ((f.reread false).tops.filter fun kind => kind.element?.isSome).length = 1 ∧
      ∀ kind ∈ (f.reread false).tops, kind.isCharacterData = false := by
  rw [tops_reread]
  refine ⟨?_, fun kind hk => h.no_characters kind (List.mem_filter.1 hk).1⟩
  rw [List.filter_filter, ← h.one_element]
  congr 2
  funext kind
  cases kind <;> simp [NodeKind.element?, NodeKind.isReread]

/-! ## Documents -/

/-- The builder after what precedes the tree of a document. -/
def Builder.afterProlog (d : Document) : Builder :=
  ⟨⟨d.declaration, d.doctype, Document.empty.nodes⟩, []⟩

theorem feedAll_breakTokens (style : Style) (hp : b.preserving = false) (depth : Nat) :
    b.feedAll (style.breakTokens breaks depth) = .ok b := by
  rw [Style.breakTokens]
  split_ifs
  · exact Builder.feedAll_cons_eq_ok_iff.2
      ⟨b, Builder.feed_of_takes (.blank (expand_blank allBlank_lineBreak) allBlank_lineBreak hp),
        rfl⟩
  · rfl

theorem feedAll_prologTokens (h : d.HasReadableProlog) (style : Style) :
    Builder.empty.feedAll (style.prologTokens d) = .ok (.afterProlog d) := by
  have hdeclaration : Builder.empty.feedAll (style.declarationTokens d.declaration) =
      .ok ⟨⟨d.declaration, none, Document.empty.nodes⟩, []⟩ := by
    cases hd : d.declaration with
    | none => rfl
    | some declaration =>
      refine Builder.feedAll_cons_eq_ok_iff.2 ⟨⟨⟨some declaration, none, Document.empty.nodes⟩, []⟩,
        ?_, feedAll_breakTokens style rfl 0⟩
      exact Builder.feed_of_takes (.declaration (declarationOf_tag (h.declaration declaration hd)))
  have hdoctype : (Builder.mk ⟨d.declaration, none, Document.empty.nodes⟩ []).feedAll
      (style.doctypeTokens d.doctype) = .ok (.afterProlog d) := by
    rw [Builder.afterProlog]
    cases hd : d.doctype with
    | none => rfl
    | some doctype =>
      refine Builder.feedAll_cons_eq_ok_iff.2
        ⟨⟨⟨d.declaration, some doctype, Document.empty.nodes⟩, []⟩, ?_,
          feedAll_breakTokens style rfl 0⟩
      rw [Builder.feed, (h.doctype doctype hd).trimmed]
  exact Builder.feedAll_append_eq_ok_iff.2 ⟨_, hdeclaration, hdoctype⟩

theorem map_asRead_prologTokens (style : Style) (d : Document) :
    (style.prologTokens d).map Token.asRead = style.prologTokens d := by
  have hbreak : (style.breakTokens style.pretty 0).map Token.asRead =
      style.breakTokens style.pretty 0 := by
    rw [Style.breakTokens]
    split_ifs <;> rfl
  rw [Style.prologTokens, List.map_append]
  congr 1
  · cases d.declaration with
    | none => rfl
    | some declaration => exact congrArg (_ :: ·) hbreak
  · cases d.doctype with
    | none => rfl
    | some doctype => exact congrArg (_ :: ·) hbreak

/-- The trees that tokens denote are what stands below the root once they have been taken in, and
the document is complete if there is one element among them. -/
theorem exists_finish (hb : b.opened = []) (hc : b.document.children .root = [])
    (hs : b.document.Sound) (hd : Denotes false ts f)
    (hone : (f.tops.filter fun kind => kind.element?.isSome).length = 1)
    (hn : ∀ kind ∈ f.tops, kind.isCharacterData = false) :
    ∃ b', b.feedAll ts = .ok b' ∧ b'.finish = .ok b'.document ∧ b'.document.Sound ∧
      b'.document.payloads = f := by
  have hroot : b.current = .root := by rw [Builder.current, hb]
  have hready : Ready b f := by
    refine ⟨hs, ?_, fun _ => ?_, fun _ => hn⟩
    · rw [hroot, isContainer, (hs.shaped.root_iff .root).2 rfl]
      rfl
    · rw [childElements, hc, hone]
      exact Nat.le_refl 1
  obtain ⟨b', g, ht, ho, hs', hg, hm⟩ := hd.raises (by rw [Builder.preserving, hb]) hready
  have htops : b'.document.children .root = g.tops := by
    have hchildren := hg.children_parent
    rw [hroot, hc, List.nil_append] at hchildren
    exact hchildren
  have hshows : b'.document.Shows g := hg.shows.congr fun _ _ => rfl
  have hpayloads : b'.document.payloads = f := by
    rw [hs'.linked.payloads_eq htops.symm hshows, hm]
  refine ⟨b', ht, ?_, hs', hpayloads⟩
  have helements : (b'.document.childElements .root).length = 1 := by
    have htree : b'.document.payloads.tops = (b'.document.children .root).map b'.document.kindOf := by
      rw [hs'.linked.payloads_eq htops.symm hshows, Forest.tops_map, htops]
    rw [← hone, ← hpayloads, htree, List.filter_map, List.length_map, childElements]
    congr 2
    funext id
    rw [Function.comp_apply, isElement, element?, kindOf]
    cases b'.document.kind? id <;> rfl
  obtain ⟨id, hid⟩ := List.length_eq_one_iff.1 helements
  rw [Builder.finish, ho, hb, documentElement?, hid]
  rfl

/-- Only an instruction that is named like a declaration can be taken for what states something
before the tree, or be refused. -/
theorem plain_nodeTokens (hk : kind.IsReadable) {childless : Bool} :
    ∀ t ∈ style.nodeTokens kind childless [], t.asRead.doctype? = none ∧
      ((∀ content, kind ≠ .instruction "xml" content) →
        t.asRead.declaration? = none ∧ t.asRead.IsDecodable) := by
  intro t ht
  cases kind with
  | root => exact absurd ht List.not_mem_nil
  | element e =>
    have htag : (style.tag e).element = .ok e := element_tag hk style
    simp only [Style.nodeTokens] at ht
    split_ifs at ht <;> simp only [List.mem_cons, List.nil_append, List.not_mem_nil, or_false] at ht
    · rw [ht]
      exact ⟨rfl, fun _ => ⟨rfl, e, htag⟩⟩
    · rcases ht with rfl | rfl
      · exact ⟨rfl, fun _ => ⟨rfl, e, htag⟩⟩
      · exact ⟨rfl, fun _ => ⟨rfl, trivial⟩⟩
    · rcases ht with rfl | rfl
      · exact ⟨rfl, fun _ => ⟨rfl, e, htag⟩⟩
      · exact ⟨rfl, fun _ => ⟨rfl, trivial⟩⟩
  | text content =>
    rw [List.mem_singleton.1 ht]
    exact ⟨rfl, fun _ => ⟨rfl, content, expand_escapeText content⟩⟩
  | instruction target content =>
    rw [List.mem_singleton.1 ht, asRead_instructionText hk]
    split_ifs with hxml
    · exact ⟨rfl, fun hx => absurd (hxml ▸ rfl) (hx content)⟩
    · exact ⟨rfl, fun _ => ⟨rfl, trivial⟩⟩
  | _ =>
    rw [List.mem_singleton.1 ht]
    exact ⟨rfl, fun _ => ⟨rfl, trivial⟩⟩

theorem isDecodable_topTokens (hf : f.IsReadable)
    (hx : ∀ content, NodeKind.instruction "xml" content ∉ f.preorder) :
    ∀ t ∈ style.topTokens f, t.asRead.declaration? = none ∧ t.asRead.IsDecodable :=
  forall_mem_topTokens (fun _ _ => ⟨rfl, _, expand_blank allBlank_lineBreak⟩)
    fun kind hk _ t ht => (plain_nodeTokens (hf kind hk) t ht).2 fun content he =>
      hx content (he ▸ hk)

/-- The tokens of a document that can be decoded build what is left of its trees. -/
theorem exists_feedAll_wholeTokens (hd : d.HasReadableProlog) (hf : f.IsReadableTree)
    (style : Style) (hdecodable : ∀ t ∈ style.topTokens f, t.asRead.IsDecodable) :
    ∃ b, Builder.empty.feedAll ((style.wholeTokens d f).map Token.asRead) = .ok b ∧
      b.finish = .ok b.document ∧ b.document.Sound ∧ b.document.payloads = f.reread false ∧
      b.document.doctype = d.doctype ∧
      ((∀ content, NodeKind.instruction "xml" content ∉ f.preorder) →
        b.document.declaration = d.declaration) := by
  obtain ⟨hone, hn⟩ := one_element_reread hf
  have hfinal : Denotes false
      ((if style.finalNewline then [Token.text "\n"] else []).map Token.asRead) .nil := by
    split_ifs
    · exact .blank (expand_blank (by decide)) (by decide) .nil
    · exact .nil
  have htree := (denotes_topTokens style hf.readable hf.fits hdecodable).append hfinal
  rw [Forest.append_nil] at htree
  obtain ⟨b, hb, hfinish, hs, hpayloads⟩ := exists_finish (b := .afterProlog d) rfl
    (children_empty .root) (sound_empty.of_nodes rfl) htree hone hn
  obtain ⟨hdeclaration, hdoctype⟩ := prolog_of_feedAll hb
  have hnone : ∀ {α : Type} (stated : Token → Option α),
      (∀ t ∈ style.topTokens f, stated t.asRead = none) → stated (.text "\n") = none →
      ((style.topTokens f).map Token.asRead ++
        (if style.finalNewline then [Token.text "\n"] else []).map Token.asRead).filterMap stated =
          [] := by
    intro α stated htop hlast
    rw [List.filterMap_eq_nil_iff, List.forall_mem_append, List.forall_mem_map]
    refine ⟨htop, ?_⟩
    split_ifs
    · exact List.forall_mem_singleton.2 hlast
    · exact fun t ht => absurd ht List.not_mem_nil
  refine ⟨b, ?_, hfinish, hs, hpayloads, ?_, fun hx => ?_⟩
  · rw [Style.wholeTokens, List.append_assoc, List.map_append, List.map_append,
      map_asRead_prologTokens]
    exact Builder.feedAll_append_eq_ok_iff.2 ⟨_, feedAll_prologTokens hd style, hb⟩
  · rw [hdoctype, hnone _ (forall_mem_topTokens (fun _ _ => rfl) fun kind hk _ t ht =>
      (plain_nodeTokens (hf.readable kind hk) t ht).1) rfl]
    rfl
  · rw [hdeclaration, hnone _ (fun t ht => (isDecodable_topTokens hf.readable hx t ht).1) rfl]
    rfl

end Markup

end SvgPress
