import SvgPress.Markup.Reader
import SvgPress.Proofs.Markup.Attributes
import SvgPress.Proofs.Markup.Readable

/-!
# Written tokens are read back

A token is legible if the scanner takes exactly this token off every text that its written form
starts; after a run of character data this needs markup to follow. The tokens that a writer produces
are legible, since what they hold is checked for the markers that would end them too early.
-/

namespace SvgPress.Markup

open SvgPress.Text

/-- The written form of a token. -/
def Token.written : Token → List Char
  | .declaration tag => '<' :: '?' :: (tag.name.toList ++ tag.rest ++ ['?', '>'])
  | .doctype content => '<' :: '!' :: ("DOCTYPE ".toList ++ content.toList ++ ['>'])
  | .start tag => '<' :: (tag.name.toList ++ tag.rest ++ ['>'])
  | .empty tag => '<' :: (tag.name.toList ++ tag.rest ++ ['/', '>'])
  | .close name => '<' :: '/' :: (name.toList ++ ['>'])
  | .text raw => raw.toList
  | .cdata content => '<' :: '!' :: ("[CDATA[".toList ++ content.toList ++ [']', ']', '>'])
  | .comment content => '<' :: '!' :: ('-' :: '-' :: content.toList ++ ['-', '-', '>'])
  | .instruction content => '<' :: '?' :: (content.toList ++ ['?', '>'])
  | .endOfInput => []

/-- Whether a token is a run of character data. -/
def Token.isText : Token → Bool
  | .text _ => true
  | _ => false

/-- Markup follows, or nothing. -/
def Marked (rest : List Char) : Prop :=
  ∀ c ∈ rest.head?, c = '<'

/-- The scanner takes the token off every text that its written form starts. -/
structure Token.Legible (t : Token) : Prop where
  more : t ≠ .endOfInput
  next_eq : ∀ position names names' rest, track names t = .ok names' →
    (t.isText = true → Marked rest) → ∃ position',
      Scanner.next ⟨t.written ++ rest, position, names⟩ = .ok (t, ⟨rest, position', names'⟩)

/-- What is written for a token other than a text begins with a mark. -/
theorem marked_written {t : Token} (hm : t ≠ .endOfInput) (ht : t.isText = false)
    (rest : List Char) : Marked (t.written ++ rest) := by
  cases t with
  | text raw => simp [Token.isText] at ht
  | endOfInput => exact absurd rfl hm
  | _ => simp [Token.written, Marked]

/-- A token that begins with a mark is legible if it is read behind the mark. -/
theorem legible_of_readMarkup {t : Token} {text : List Char} (hw : t.written = '<' :: text)
    (hr : ∀ rest, readMarkup (text ++ rest) = .ok (t, rest)) : t.Legible := by
  refine ⟨?_, fun position names names' rest ht _ => ?_⟩
  · rintro rfl
    simp [Token.written] at hw
  · rw [hw, List.cons_append, Scanner.next]
    simp only [hr, ht, bind, Except.bind]
    exact ⟨_, rfl⟩

/-! ## Character data -/

theorem legible_text {raw : String} (hne : raw.toList ≠ []) (hmark : '<' ∉ raw.toList) :
    (Token.text raw).Legible := by
  refine ⟨by simp, fun position names names' rest ht hrest => ?_⟩
  obtain rfl : names = names' := Except.ok.inj ht
  obtain ⟨c, cs, hraw⟩ := List.exists_cons_of_ne_nil hne
  have hall : ∀ x ∈ raw.toList, x ≠ '<' := fun x hx he => hmark (he ▸ hx)
  have hc : c ≠ '<' := hall c (by simp [hraw])
  have hspan : (raw.toList ++ rest).span (· != '<') = (raw.toList, rest) :=
    span_append (fun x hx => by simpa using hall x hx)
      (fun x hx => by simpa using hrest rfl x hx)
  have hnext : Scanner.next ⟨raw.toList ++ rest, position, names⟩ =
      .ok (.text (String.ofList raw.toList),
        ⟨rest, position + byteLength raw.toList, names⟩) := by
    unfold Scanner.next
    split
    · rename_i hnil
      simp [hraw] at hnil
    · rename_i text hmarkup
      rw [hraw, List.cons_append] at hmarkup
      exact absurd (List.cons.inj hmarkup).1 hc
    · rw [hspan]
  rw [Token.written, hnext, String.ofList_toList]
  exact ⟨_, rfl⟩

/-! ## Sections, comments and document types -/

theorem legible_cdata {content : String} (h : contains [']', ']', '>'] content.toList = false) :
    (Token.cdata content).Legible := by
  refine legible_of_readMarkup rfl fun rest => ?_
  have hcut := cutAt_append [']', ']'] '>' (by decide) h rest
  have hread : readCData ("[CDATA[".toList ++ (content.toList ++ (([']', ']'] ++ ['>']) ++ rest))) =
      .ok (.cdata content, rest) := by
    rw [readCData, after?_eq_some_iff.2 rfl, Option.bind_some]
    simp only [List.cons_append, List.nil_append] at hcut ⊢
    rw [hcut]
    simp only [String.ofList_toList]
  simpa [readMarkup] using hread

theorem legible_comment {content : String} (h : contains ['-', '-', '>'] content.toList = false) :
    (Token.comment content).Legible := by
  refine legible_of_readMarkup rfl fun rest => ?_
  have hcut := cutAt_append ['-', '-'] '>' (by decide) h rest
  have hread : readComment (['-', '-'] ++ (content.toList ++ ((['-', '-'] ++ ['>']) ++ rest))) =
      .ok (.comment content, rest) := by
    rw [readComment, after?_eq_some_iff.2 rfl, Option.bind_some]
    simp only [List.cons_append, List.nil_append] at hcut ⊢
    rw [hcut]
    simp only [String.ofList_toList]
  simpa [readMarkup] using hread

theorem legible_doctype {content : String} (h : IsReadableDoctype content) :
    (Token.doctype content).Legible := by
  have hne : content.toList ≠ [] := fun he => h.ne (String.toList_eq_nil_iff.1 he)
  have htrim := congrArg String.toList h.trimmed
  rw [trimSpace, stripString, String.toList_ofList] at htrim
  have hhead : ∀ c ∈ content.toList.head?, isBlank c = false := by
    intro c hc
    have hspace := head?_of_strip_eq_self htrim c hc
    rw [← Bool.not_eq_true] at hspace ⊢
    exact fun hb => hspace (isSpace_of_isBlank hb)
  refine legible_of_readMarkup rfl fun rest => ?_
  have hcut : cutBalanced 0 (' ' :: content.toList ++ '>' :: rest) =
      some (' ' :: content.toList, rest) := by
    rw [List.cons_append, cutBalanced_cons (by decide) (by decide), h.balanced]
    rfl
  have hblank : (' ' :: content.toList).dropWhile isBlank = content.toList := by
    obtain ⟨c, cs, hcs⟩ := List.exists_cons_of_ne_nil hne
    rw [hcs] at hhead ⊢
    rw [List.dropWhile_cons_of_pos (by decide), List.dropWhile_cons_of_neg (by simp [hhead c rfl])]
  have hread : readDoctype ("DOCTYPE".toList ++ (' ' :: content.toList ++ '>' :: rest)) =
      .ok (.doctype content, rest) := by
    have htake : (lowerAscii (("DOCTYPE".toList ++ (' ' :: content.toList ++ '>' :: rest)).take
        "doctype".toList.length) != "doctype".toList) = false := by
      rfl
    have hdrop : ("DOCTYPE".toList ++ (' ' :: content.toList ++ '>' :: rest)).drop
        "doctype".toList.length = ' ' :: content.toList ++ '>' :: rest := by
      rfl
    rw [readDoctype]
    simp only [htake, hdrop, hcut, hblank, Bool.false_eq_true, if_false]
    rw [String.ofList_toList]
  simpa [readMarkup] using hread

/-! ## Tags -/

/-- A stretch of a tag that neither ends the tag nor leaves a quote open. -/
def InTag (s : List Char) : Prop :=
  ∀ text, cutTag none (s ++ text) =
    (cutTag none text).map fun (before, after) => (s ++ before, after)

theorem InTag.append {s s' : List Char} (h : InTag s) (h' : InTag s') : InTag (s ++ s') := by
  intro text
  rw [List.append_assoc, h, h', Option.map_map]
  congr 1
  funext ⟨before, after⟩
  simp

/-- Text without angle brackets to the right and without quotes stands inside a tag. -/
theorem inTag_of_plain {s : List Char} (h : ∀ c ∈ s, c ≠ '>' ∧ c ≠ '"' ∧ c ≠ '\'') : InTag s := by
  intro text
  induction s with
  | nil => simp
  | cons c s ih =>
    obtain ⟨hgt, hdouble, hsingle⟩ := h c List.mem_cons_self
    rw [List.cons_append, cutTag]
    simp only [hgt, hdouble, hsingle, decide_false, Bool.or_self, Bool.false_eq_true, if_false]
    rw [ih fun x hx => h x (List.mem_cons_of_mem _ hx), Option.map_map]
    rfl

theorem inTag_of_not_breaksName {s : List Char} (h : ∀ c ∈ s, Content.breaksName c = false) :
    InTag s :=
  inTag_of_plain fun c hc => ⟨Content.ne_of_not_breaksName (h c hc) (by decide),
    Content.ne_of_not_breaksName (h c hc) (by decide),
    Content.ne_of_not_breaksName (h c hc) (by decide)⟩

/-- Between quotes, a tag goes on to the closing quote. -/
theorem cutTag_quoted {quote : Char} {value : List Char} (h : quote ∉ value) (text : List Char) :
    cutTag (some quote) (value ++ quote :: text) =
      (cutTag none text).map fun (before, after) => (value ++ quote :: before, after) := by
  induction value with
  | nil => simp [cutTag]
  | cons c value ih =>
    simp only [List.mem_cons, not_or] at h
    rw [List.cons_append, cutTag]
    simp only [if_neg (Ne.symm h.1)]
    rw [ih h.2, Option.map_map]
    rfl

/-- A quoted value stands inside a tag, whatever brackets it holds. -/
theorem inTag_quoted {quote : Quote} {value : List Char} (h : quote.char ∉ value) :
    InTag (quote.char :: (value ++ [quote.char])) := by
  intro text
  have hcut := cutTag_quoted h text
  rw [List.cons_append, List.append_assoc, List.singleton_append, cutTag]
  have hopen : quote.char ≠ '>' ∧ (decide (quote.char = '"') || decide (quote.char = '\'')) = true := by
    cases quote <;> decide
  simp only [hopen.1, hopen.2, if_false, if_true, hcut, Option.map_map]
  congr 1
  funext ⟨before, after⟩
  simp

theorem inTag_attributesText {quote : Quote} {pairs : List (String × String)}
    (h : ∀ p ∈ pairs, InTag p.1.toList ∧ quote.char ∉ p.2.toList) :
    InTag (attributesText quote pairs) := by
  induction pairs with
  | nil => exact inTag_of_plain (by simp [attributesText])
  | cons p pairs ih =>
    obtain ⟨key, value⟩ := p
    obtain ⟨hkey, hvalue⟩ := h _ List.mem_cons_self
    have hspace : InTag [' '] := inTag_of_plain (List.forall_mem_singleton.2 (by decide))
    have hequals : InTag ['='] := inTag_of_plain (List.forall_mem_singleton.2 (by decide))
    have htext : attributeText quote key value =
        [' '] ++ key.toList ++ ['='] ++ quote.char :: (value.toList ++ [quote.char]) := by
      simp [attributeText]
    rw [attributesText_cons, htext]
    exact (((hspace.append hkey).append hequals).append (inTag_quoted hvalue)).append
      (ih fun p hp => h p (List.mem_cons_of_mem _ hp))

/-- A tag that can be told from other markup and from what follows it. -/
structure Tag.IsPlain (tag : Tag) : Prop where
  name_ne : tag.name.toList ≠ []
  name : ∀ c ∈ tag.name.toList, Content.breaksName c = false
  blank : ∀ c ∈ tag.rest.head?, isBlank c = true
  inTag : InTag tag.rest
  last : tag.rest.getLast? ≠ some '/'

namespace Tag.IsPlain

variable {tag : Tag}

theorem inTag_name (h : tag.IsPlain) : InTag tag.name.toList :=
  inTag_of_not_breaksName h.name

/-- The name of a plain tag is told from what follows it. -/
theorem ofContent_eq (h : tag.IsPlain) : Tag.ofContent (tag.name.toList ++ tag.rest) = tag := by
  have hspan : (tag.name.toList ++ tag.rest).span (!isBlank ·) = (tag.name.toList, tag.rest) :=
    span_append (fun c hc => by simp [Content.not_isBlank_of_not_breaksName (h.name c hc)])
      (fun c hc => by simp [h.blank c hc])
  rw [Tag.ofContent, hspan]
  simp only [String.ofList_toList]

/-- A tag is told from other markup by its first character. -/
theorem readMarkup_eq (h : tag.IsPlain) (text : List Char) :
    readMarkup (tag.name.toList ++ text) = readStart (tag.name.toList ++ text) := by
  obtain ⟨c, cs, hname⟩ := List.exists_cons_of_ne_nil h.name_ne
  have hc : Content.breaksName c = false := h.name c (by simp [hname])
  rw [hname, List.cons_append]
  unfold readMarkup
  split
  · rename_i he
    exact absurd (List.cons.inj he).1 (Content.ne_of_not_breaksName hc (by decide))
  · rename_i he
    exact absurd (List.cons.inj he).1 (Content.ne_of_not_breaksName hc (by decide))
  · rename_i he
    exact absurd (List.cons.inj he).1 (Content.ne_of_not_breaksName hc (by decide))
  · rfl

theorem legible_start (h : tag.IsPlain) : (Token.start tag).Legible := by
  refine legible_of_readMarkup rfl fun rest => ?_
  have hcut : cutTag none (tag.name.toList ++ tag.rest ++ '>' :: rest) =
      some (tag.name.toList ++ tag.rest, rest) := by
    rw [h.inTag_name.append h.inTag, cutTag]
    simp
  have hlast : (tag.name.toList ++ tag.rest).getLast? ≠ some '/' := by
    rw [List.getLast?_append]
    intro he
    rcases Option.or_eq_some_iff.1 he with hl | ⟨-, hl⟩
    · exact h.last hl
    · exact Content.ne_of_not_breaksName (h.name '/' (List.mem_of_getLast? hl)) (by decide) rfl
  rw [List.append_assoc, List.append_assoc, h.readMarkup_eq, ← List.append_assoc,
    List.singleton_append, readStart, hcut]
  simp only
  rw [h.ofContent_eq]

theorem legible_empty (h : tag.IsPlain) : (Token.empty tag).Legible := by
  refine legible_of_readMarkup rfl fun rest => ?_
  have hslash : InTag ['/'] := inTag_of_plain (List.forall_mem_singleton.2 (by decide))
  have hcut : cutTag none (tag.name.toList ++ tag.rest ++ ['/'] ++ '>' :: rest) =
      some (tag.name.toList ++ tag.rest ++ ['/'], rest) := by
    rw [(h.inTag_name.append h.inTag).append hslash, cutTag]
    simp
  have htext : tag.name.toList ++ tag.rest ++ ['/', '>'] ++ rest =
      tag.name.toList ++ (tag.rest ++ ['/'] ++ '>' :: rest) := by simp
  rw [htext, h.readMarkup_eq, ← List.append_assoc, ← List.append_assoc, readStart, hcut]
  simp only [List.getLast?_append, List.getLast?_singleton, Option.some_or, List.dropLast_concat,
    h.ofContent_eq]

end Tag.IsPlain

theorem legible_close {name : String} (hne : name.toList ≠ [])
    (hall : ∀ c ∈ name.toList, Content.breaksName c = false) : (Token.close name).Legible := by
  refine legible_of_readMarkup rfl fun rest => ?_
  have hcut : cutTag none (name.toList ++ '>' :: rest) = some (name.toList, rest) := by
    rw [inTag_of_not_breaksName hall, cutTag]
    simp
  have hblank : name.toList.all isBlank = false := by
    obtain ⟨c, cs, hcs⟩ := List.exists_cons_of_ne_nil hne
    simp [hcs, Content.not_isBlank_of_not_breaksName (hall c (by simp [hcs]))]
  have htail : dropTail isBlank name.toList = name.toList :=
    dropTail_eq_self fun c hc =>
      Content.not_isBlank_of_not_breaksName (hall c (List.mem_of_getLast? hc))
  have hread : readClose (name.toList ++ '>' :: rest) = .ok (.close name, rest) := by
    rw [readClose, hcut]
    simp only [hblank, Bool.false_eq_true, if_false, htail, String.ofList_toList]
  simpa [readMarkup] using hread

/-! ## Instructions and declarations -/

/-- What the scanner takes a written token for: an instruction that is named like a declaration is
taken for one. -/
def Token.asRead : Token → Token
  | .instruction content =>
    match after? "xml".toList content.toList with
    | some afterName =>
      if afterName.head?.all isBlank then .declaration ⟨"xml", afterName⟩ else .instruction content
    | none => .instruction content
  | t => t

@[simp] theorem written_asRead (t : Token) : t.asRead.written = t.written := by
  cases t with
  | instruction content =>
    rw [Token.asRead]
    split
    · rename_i afterName ha
      split_ifs
      · simp [Token.written, after?_eq_some_iff.1 ha]
      · rfl
    · rfl
  | _ => rfl

@[simp] theorem isText_asRead (t : Token) : t.asRead.isText = t.isText := by
  cases t with
  | instruction content =>
    rw [Token.asRead]
    split
    · split_ifs <;> rfl
    · rfl
  | _ => rfl

@[simp] theorem track_asRead (names : List String) (t : Token) :
    track names t.asRead = track names t := by
  cases t with
  | instruction content =>
    rw [Token.asRead]
    split
    · split_ifs <;> rfl
    · rfl
  | _ => rfl

/-- What starts with `<?` goes on to the first `?>`. -/
theorem readInstruction_append {content : String} (hhead : ∀ c ∈ content.toList.head?, c ≠ '>')
    (h : contains "?>".toList content.toList = false) (rest : List Char) :
    readInstruction (content.toList ++ (['?', '>'] ++ rest)) =
      .ok ((Token.instruction content).asRead, rest) := by
  have hcut := cutAt_append ['?'] '>' (by decide) h rest
  simp only [List.singleton_append] at hcut
  unfold readInstruction
  split
  · rename_i he
    cases hcontent : content.toList with
    | nil => simp [hcontent] at he
    | cons c cs =>
      rw [hcontent, List.cons_append] at he
      exact absurd (List.cons.inj he).1 (hhead c (by simp [hcontent]))
  · rw [List.cons_append, List.singleton_append] at hcut ⊢
    rw [hcut, Token.asRead]
    cases hxml : after? "xml".toList content.toList with
    | none => simp only [hxml, String.ofList_toList]
    | some afterName =>
      simp only [hxml, String.ofList_toList]
      split_ifs <;> rfl

theorem legible_asRead_instruction {content : String}
    (hhead : ∀ c ∈ content.toList.head?, c ≠ '>')
    (h : contains "?>".toList content.toList = false) :
    (Token.instruction content).asRead.Legible := by
  refine legible_of_readMarkup (written_asRead _) fun rest => ?_
  rw [List.cons_append, List.append_assoc, readMarkup, readInstruction_append hhead h]

/-- Attributes hold no end of a declaration if their values hold none and no name has a question
mark. -/
theorem contains_attributesText {quote : Quote} {pairs : List (String × String)}
    (h : ∀ p ∈ pairs, '?' ∉ p.1.toList ∧ contains "?>".toList p.2.toList = false) :
    contains "?>".toList (attributesText quote pairs) = false := by
  induction pairs with
  | nil => rfl
  | cons p pairs ih =>
    obtain ⟨key, value⟩ := p
    obtain ⟨⟨hkey, hvalue⟩, hrest⟩ := List.forall_mem_cons.1 h
    have hquote : quote.char ∉ "?>".toList ∧ '?' ≠ quote.char := by cases quote <;> decide
    have htext : attributesText quote ((key, value) :: pairs) =
        (' ' :: key.toList ++ ['=', quote.char]) ++
          (value.toList ++ quote.char :: attributesText quote pairs) := by
      simp [attributesText_cons, attributeText]
    have hopen : '?' ∉ ' ' :: key.toList ++ ['=', quote.char] := by simp [hkey, hquote.2]
    have hopened : contains ('?' :: ['>']) (_ ++
        (value.toList ++ quote.char :: attributesText quote pairs)) = _ := contains_append hopen _
    have hclosed := contains_append_cons hquote.1 value.toList (attributesText quote pairs)
    rw [htext]
    exact hopened.trans (hclosed.trans (by rw [hvalue, ih hrest]; rfl))

/-- The tag of a declaration does not end it. -/
theorem contains_declarationTag {declaration : XmlDeclaration} (h : declaration.IsQuotable) :
    contains "?>".toList ("xml".toList ++ (declarationTag declaration).rest) = false := by
  have hname : contains ('?' :: ['>']) ("xml".toList ++ (declarationTag declaration).rest) = _ :=
    contains_append (by decide) _
  refine hname.trans (contains_attributesText fun p hp => ?_)
  obtain ⟨hkey, hvalue⟩ := of_mem_declarationPairs h hp
  have hkeys : ∀ key ∈ ["version", "encoding", "standalone"], '?' ∉ key.toList := by decide
  exact ⟨hkeys p.1 hkey, hvalue.2⟩

theorem legible_declaration {declaration : XmlDeclaration} (h : declaration.IsQuotable) :
    (Token.declaration (declarationTag declaration)).Legible := by
  have hblank : (declarationTag declaration).rest.head?.all isBlank = true := by
    simp only [declarationTag, declarationPairs, attributesText_cons, attributeText,
      List.cons_append, List.head?_cons, Option.all_some]
    decide
  obtain ⟨content, hcontent⟩ : ∃ content : String,
      content.toList = "xml".toList ++ (declarationTag declaration).rest :=
    ⟨_, String.toList_ofList⟩
  have hread : (Token.instruction content).asRead = .declaration (declarationTag declaration) := by
    rw [Token.asRead, after?_eq_some_iff.2 hcontent]
    simp only [hblank, if_true]
    rfl
  rw [← hread]
  refine legible_asRead_instruction ?_ (hcontent ▸ contains_declarationTag h)
  simp [hcontent]

theorem getLast?_attributeText (quote : Quote) (key value : String) :
    (attributeText quote key value).getLast? = some quote.char := by
  have htext : attributeText quote key value =
      ' ' :: (key.toList ++ '=' :: quote.char :: value.toList) ++ [quote.char] := by
    simp [attributeText]
  rw [htext, List.getLast?_concat]

/-- The tag of an element can be told from other markup and from what follows it. -/
theorem isPlain_tag {e : Element} (h : e.IsChecked) (style : Style) : (style.tag e).IsPlain where
  name_ne := h.name.full.1
  name := h.name.full.2
  blank := by
    rw [rest_tag]
    rcases style.pairs e.attributes with _ | ⟨⟨key, value⟩, pairs⟩
    · simp [attributesText]
    · intro c hc
      rw [attributesText_cons, attributeText, List.cons_append] at hc
      obtain rfl := Option.some.inj hc
      decide
  inTag := by
    rw [rest_tag]
    refine inTag_attributesText fun p hp => ?_
    obtain ⟨a, ha, rfl⟩ := List.mem_map.1 hp
    exact ⟨inTag_of_not_breaksName (h.attributes a ha).full.2,
      not_mem_escapeValue style.quote a.value⟩
  last := by
    rw [rest_tag]
    rcases List.eq_nil_or_concat (style.pairs e.attributes) with hnil | ⟨pairs, ⟨key, value⟩, hp⟩
    · simp [hnil, attributesText]
    · have hne : style.quote.char ≠ '/' := by cases style.quote <;> decide
      rw [hp, List.concat_eq_append, attributesText_append, attributesText_cons,
        List.getLast?_append, List.getLast?_append, getLast?_attributeText]
      simpa [attributesText] using hne

section Instruction

variable {target : String} {content : Option String}

/-- An instruction is taken for a declaration exactly if its target is the name of one. -/
theorem asRead_instructionText (h : IsReadableInstruction target content) :
    (Token.instruction (instructionText target content)).asRead =
      if target = "xml" then
        .declaration ⟨"xml", (content.map fun content => ' ' :: content.toList).getD []⟩
      else .instruction (instructionText target content) := by
  have hhead : ∀ c ∈ ((content.map fun content => ' ' :: content.toList).getD []).head?,
      c = ' ' := by cases content <;> simp
  have htarget : ∀ c ∈ target.toList, (!isBlank c) = true := fun c hc => by
    have hspace := h.unspaced c hc
    rw [← Bool.not_eq_true] at hspace
    simpa using fun hb => hspace (isSpace_of_isBlank hb)
  have hspan := span_append htarget fun c hc => by rw [hhead c hc]; decide
  rw [Token.asRead, toList_instructionText]
  split_ifs with hxml
  · rw [hxml, after?_eq_some_iff.2 rfl]
    have hall : ((content.map fun content => ' ' :: content.toList).getD []).head?.all isBlank =
        true := by cases content <;> rfl
    simp only [hall, if_true]
  · split
    · rename_i afterName ha
      -- The target ends at the first blank, and so does the name of a declaration.
      have hnone : ¬ afterName.head?.all isBlank = true := by
        intro hb
        rw [Option.all_eq_true] at hb
        have hspan' : ("xml".toList ++ afterName).span (!isBlank ·) = ("xml".toList, afterName) :=
          span_append (List.forall_iff_forall_mem.1 (by decide)) fun c hc => by simp [hb c hc]
        rw [after?_eq_some_iff.1 ha, hspan'] at hspan
        exact hxml (String.toList_injective (Prod.mk.inj hspan).1.symm)
      rw [if_neg hnone]
    · rfl

/-- An instruction is found again, as a declaration if its target says so. -/
theorem legible_instruction (h : IsReadableInstruction target content) :
    (Token.instruction (instructionText target content)).asRead.Legible :=
  legible_asRead_instruction h.head h.closed

end Instruction

end SvgPress.Markup
