import SvgPress.Proofs.Markup.Parsed
import Mathlib.Algebra.Order.BigOperators.Group.List
import Mathlib.Algebra.Order.Ring.Nat

/-!
# Sizes of written trees

The bytes that trees take when they are written in the default style are added up from those of their
payloads. Joining texts changes nothing about them, and what is lost when trees are read again makes
them smaller. A text is at least as long as what is read from it, if none of its tags and runs of
character data is shorter than the form in which it is written back.
-/

namespace SvgPress

open Text Markup

/-! ## Bytes -/

theorem Text.byteLength_flatMap {α : Type} (write : α → List Char) (as : List α) :
    byteLength (as.flatMap write) = (as.map fun a => byteLength (write a)).sum := by
  induction as with
  | nil => rfl
  | cons a as ih => rw [List.flatMap_cons, byteLength_append, ih, List.map_cons, List.sum_cons]

/-! ## Sums -/

theorem sum_map_le_of_sublist {α : Type} {as bs : List α} (h : as.Sublist bs) (size : α → Nat) :
    (as.map size).sum ≤ (bs.map size).sum :=
  (h.map size).sum_le_sum fun _ _ => Nat.zero_le _

/-- Leaving out what takes some bytes takes fewer bytes. -/
theorem eq_of_sublist_of_sum {α : Type} {as bs : List α} (h : as.Sublist bs) {size : α → Nat}
    (hpos : ∀ b, 0 < size b) (hs : (as.map size).sum = (bs.map size).sum) : as = bs := by
  induction h with
  | slnil => rfl
  | @cons as bs b h _ =>
    have hb := hpos b
    have hle := sum_map_le_of_sublist h size
    rw [List.map_cons, List.sum_cons] at hs
    omega
  | cons_cons b _ ih =>
    rw [List.map_cons, List.map_cons, List.sum_cons, List.sum_cons] at hs
    rw [ih (Nat.add_left_cancel hs)]

/-! ## Sizes of payloads and trees -/

/-- The bytes of characters in a value between double quotes. -/
def quotedSize (cs : List Char) : Nat :=
  (cs.map fun c => (escapeValueChar '"' c).utf8ByteSize).sum

/-- The bytes of a value between double quotes. -/
def valueSize (value : String) : Nat :=
  quotedSize value.toList

/-- The bytes of an attribute, with the space before it. -/
def Attribute.size (a : Attribute) : Nat :=
  byteLength a.name.full.toList + valueSize a.value + 4

/-- The bytes of the tag of an element, but for its end. -/
def Element.size (e : Element) : Nat :=
  byteLength e.name.full.toList + (e.attributes.map Attribute.size).sum + 1

/-- The bytes of a node, given those of what stands below it, if there is something. -/
def NodeKind.size (childless : Bool) (inside : Nat) : NodeKind → Nat
  | .root => 0
  | .element e => e.size + if childless then 2 else inside + (byteLength e.name.full.toList + 4)
  | .text content => byteLength (escapeText content).toList
  | .cdata content => byteLength content.toList + 12
  | .comment content => byteLength content.toList + 7
  | .instruction target content => byteLength (instructionText target content).toList + 4

/-- The bytes of trees side by side. -/
def Forest.size : Forest NodeKind → Nat
  | nil => 0
  | cons kind below rest => kind.size below.tops.isEmpty below.size + rest.size

/-! ## What is written -/

namespace Markup

theorem byteLength_attributeText (a : Attribute) :
    byteLength (attributeText .double a.name.full (escapeValue '"' a.value)) = a.size := by
  simp only [attributeText, byteLength_cons, byteLength_append, byteLength_nil, Attribute.size,
    valueSize, quotedSize, toList_escapeValue, byteLength_flatMap, byteLength_toList, Quote.char]
  have hspace : ' '.utf8Size = 1 := by decide
  have hequals : '='.utf8Size = 1 := by decide
  have hquote : '"'.utf8Size = 1 := by decide
  omega

theorem byteLength_rest_tag (e : Element) :
    byteLength (({} : Style).tag e).rest = (e.attributes.map Attribute.size).sum := by
  rw [rest_tag, attributesText, Style.pairs, List.flatMap_map, byteLength_flatMap]
  exact congrArg List.sum (List.map_congr_left fun a _ => byteLength_attributeText a)

/-- The bytes of a token are those of what it holds and of its marks. -/
theorem byteLength_written (t : Token) : byteLength t.written =
    match t with
    | .declaration tag => byteLength tag.name.toList + byteLength tag.rest + 4
    | .doctype content => byteLength content.toList + 11
    | .start tag => byteLength tag.name.toList + byteLength tag.rest + 2
    | .empty tag => byteLength tag.name.toList + byteLength tag.rest + 3
    | .close name => byteLength name.toList + 3
    | .text raw => byteLength raw.toList
    | .cdata content => byteLength content.toList + 12
    | .comment content => byteLength content.toList + 7
    | .instruction content => byteLength content.toList + 4
    | .endOfInput => 0 := by
  have hopen : '<'.utf8Size = 1 := by decide
  have hclose : '>'.utf8Size = 1 := by decide
  have hslash : '/'.utf8Size = 1 := by decide
  have hbang : '!'.utf8Size = 1 := by decide
  have hquestion : '?'.utf8Size = 1 := by decide
  have hhyphen : '-'.utf8Size = 1 := by decide
  have hbracket : ']'.utf8Size = 1 := by decide
  have hdoctype : byteLength "DOCTYPE ".toList = 8 := by decide
  have hcdata : byteLength "[CDATA[".toList = 7 := by decide
  cases t <;>
    simp only [Token.written, byteLength_cons, byteLength_append, byteLength_nil, hdoctype,
      hcdata] <;>
    omega

theorem byteLength_nodeTokens (kind : NodeKind) (childless : Bool) (inside : List Token) :
    byteLength (textOf (({} : Style).nodeTokens kind childless inside)) =
      kind.size childless (byteLength (textOf inside)) := by
  cases kind with
  | root => rfl
  | element e =>
    have htag := byteLength_rest_tag e
    have hname : (({} : Style).tag e).name = e.name.full := rfl
    simp only [Style.nodeTokens, NodeKind.size]
    split_ifs with hchildless
    · simp only [textOf_cons, textOf_nil, List.append_nil, byteLength_written, htag, hname,
        Element.size]
    · simp only [textOf_cons, textOf_append, textOf_nil, List.append_nil, byteLength_append,
        byteLength_written, htag, hname, Element.size]
      omega
  | _ =>
    simp only [Style.nodeTokens, NodeKind.size, textOf_cons, textOf_nil, List.append_nil,
      byteLength_written]

/-- The size of trees is that of their tokens in the default style. -/
theorem byteLength_tokens (depth : Nat) (preserving : Bool) (f : Forest NodeKind) :
    byteLength (textOf (({} : Style).tokens depth preserving false f)) = f.size := by
  induction f generalizing depth preserving with
  | nil => rfl
  | cons kind below rest ihb ihr =>
    have hbreaks : ∀ depth, ({} : Style).breakTokens false depth = [] := fun _ => rfl
    have hapart : ∀ scope, ({} : Style).breaksBelow scope below = false := fun _ => rfl
    simp only [Style.tokens, hapart, hbreaks, List.append_nil, List.nil_append, textOf_append,
      byteLength_append, byteLength_nodeTokens, ihb, ihr]
    rfl

/-- The size of the trees of a document without declarations is that of its text in the default
style. -/
theorem utf8ByteSize_of_write {d : Document} {s : String} (hl : d.Linked) (hs : d.Shaped)
    (hone : (d.childElements .root).length = 1)
    (hplain : ∀ child ∈ d.children .root, (d.kindOf child).isCharacterData = false)
    (hdeclaration : d.declaration = none) (hdoctype : d.doctype = none)
    (hw : write {} d = .ok s) : s.utf8ByteSize = d.payloads.size := by
  rw [write_eq hl hs (isSome_documentElement? hone) hplain] at hw
  obtain rfl := Except.ok.inj hw
  rw [← byteLength_toList, written, String.toList_ofList, Style.documentTokens, Style.prologTokens,
    hdeclaration, hdoctype]
  simp only [Style.declarationTokens, Style.doctypeTokens, List.nil_append, Bool.false_eq_true,
    if_false, List.append_nil]
  cases d.payloads with
  | nil => rfl
  | cons kind below rest =>
    rw [Style.topTokens, textOf_append, byteLength_append, byteLength_tokens, byteLength_tokens]
    rfl

end Markup

/-! ## Trees that get smaller -/

namespace NodeKind

variable {kind kind' : NodeKind} {childless childless' : Bool} {inside inside' : Nat}

/-- Less below a node makes it smaller. -/
theorem size_le (kind : NodeKind) (hc : childless = true → childless' = true)
    (hi : inside' ≤ inside) : kind.size childless' inside' ≤ kind.size childless inside := by
  cases kind with
  | element e =>
    simp only [size]
    cases childless <;> cases childless' <;> simp at hc ⊢ <;> omega
  | _ => exact Nat.le_refl _

/-- An element has the same size only with the same things below it. -/
theorem of_size_element_eq {e : Element} (hc : childless = true → childless' = true)
    (h : (element e).size childless' inside' = (element e).size childless inside) :
    childless' = childless ∧ (childless = false → inside' = inside) := by
  simp only [size] at h
  cases childless <;> cases childless' <;> simp at hc h ⊢ <;> omega

/-- Everything but the root and empty text takes some bytes. -/
theorem size_pos (hr : kind ≠ .root) (h : kind.IsReadable) : 0 < kind.size childless inside := by
  cases kind with
  | root => exact absurd rfl hr
  | element e =>
    rw [size, Element.size]
    omega
  | text content =>
    rw [size]
    have hne := escapeText_ne_nil h
    cases hcs : (escapeText content).toList with
    | nil => exact absurd hcs hne
    | cons c cs =>
      have hc := Char.utf8Size_pos c
      rw [byteLength_cons]
      omega
  | _ => exact Nat.succ_pos _

/-- The payload takes no more bytes than the other, whatever stands below. -/
def Lighter (kind' kind : NodeKind) : Prop :=
  ∀ childless inside, kind'.size childless inside ≤ kind.size childless inside

/-- The payload takes fewer bytes than the other, unless it is the same. -/
def Settles (kind' kind : NodeKind) : Prop :=
  ∀ childless inside, kind'.size childless inside = kind.size childless inside → kind' = kind

theorem lighter_element {e e' : Element} (hn : e'.name = e.name) (h : e'.size ≤ e.size) :
    (element e').Lighter (element e) := by
  intro childless inside
  rw [size, size, hn]
  omega

theorem settles_element {e e' : Element} (hn : e'.name = e.name) (h : e'.size = e.size → e' = e) :
    (element e').Settles (element e) := by
  intro childless inside hsize
  rw [size, size, hn] at hsize
  rw [h (by omega)]

end NodeKind

namespace Forest

variable {kind kind' : NodeKind} {below below' rest rest' f g : Forest NodeKind}

theorem size_append (f g : Forest NodeKind) : (f ++ g).size = f.size + g.size := by
  induction f with
  | nil => exact (Nat.zero_add _).symm
  | cons kind below rest _ ih => rw [cons_append, size, size, ih, Nat.add_assoc]

theorem isEmpty_tops_of_nil (h : below = nil → below' = nil) :
    below.tops.isEmpty = true → below'.tops.isEmpty = true := by
  rw [isEmpty_tops_iff, isEmpty_tops_iff]
  exact h

/-- A tree before others gets smaller with its parts. -/
theorem size_cons_le (hk : kind'.Lighter kind) (hn : below = nil → below' = nil)
    (hb : below'.size ≤ below.size) (hr : rest'.size ≤ rest.size) :
    (cons kind' below' rest').size ≤ (cons kind below rest).size :=
  Nat.add_le_add (le_trans (hk _ _) (kind.size_le (isEmpty_tops_of_nil hn) hb)) hr

/-- A tree before others gets smaller unless its parts are the same. -/
theorem cons_eq_of_size (hk : kind'.Lighter kind) (hs : kind'.Settles kind)
    (hn : below = nil → below' = nil) (hb : below'.size ≤ below.size) (hr : rest'.size ≤ rest.size)
    (hleaf : kind.element? = none → below = nil) (hbelow : below'.size = below.size → below' = below)
    (hrest : rest'.size = rest.size → rest' = rest)
    (h : (cons kind' below' rest').size = (cons kind below rest).size) :
    cons kind' below' rest' = cons kind below rest := by
  have h₁ := hk below'.tops.isEmpty below'.size
  have h₂ := kind.size_le (isEmpty_tops_of_nil hn) hb
  rw [size, size] at h
  obtain rfl := hs below'.tops.isEmpty below'.size (by omega)
  rw [hrest (by omega)]
  have hsame : kind'.size below'.tops.isEmpty below'.size =
      kind'.size below.tops.isEmpty below.size := by omega
  have hbelow' : below' = below := by
    cases kind' with
    | element e =>
      obtain ⟨hempty, hinside⟩ :=
        NodeKind.of_size_element_eq (isEmpty_tops_of_nil hn) hsame
      cases hcase : below.tops.isEmpty with
      | true =>
        have hnil := isEmpty_tops_iff.1 hcase
        rw [hnil, hn hnil]
      | false => exact hbelow (hinside hcase)
    | _ =>
      have hnil := hleaf rfl
      rw [hnil, hn hnil]
  rw [hbelow']

theorem size_joined (h : f.Fits) : f.joined.size = f.size := by
  rw [← byteLength_tokens 0 false, ← byteLength_tokens 0 false f,
    textOf_tokens_joined 0 false h (by simp)]

theorem reread_nil_of_nil (around : Bool) (h : f = nil) : f.reread around = nil := by
  rw [h]
  rfl

/-- What is lost when trees are read again makes them smaller. -/
theorem size_reread_le (around : Bool) (f : Forest NodeKind) :
    (f.reread around).size ≤ f.size := by
  induction f generalizing around with
  | nil => exact Nat.le_refl _
  | cons kind below rest ihb ihr =>
    rw [reread]
    split_ifs
    · exact size_cons_le (fun _ _ => Nat.le_refl _) (reread_nil_of_nil _) (ihb _) (ihr _)
    · exact le_trans (ihr _) (Nat.le_add_left _ _)

/-- Trees that are as large as before after they have been read again are what they were. -/
theorem reread_eq_of_size {around : Bool} (hf : f.IsReadable) (hfits : f.Fits)
    (h : (f.reread around).size = f.size) : f.reread around = f := by
  induction f generalizing around with
  | nil => rfl
  | cons kind below rest ihb ihr =>
    obtain ⟨hkind, hbelow, hrest⟩ := isReadable_cons_iff.1 hf
    obtain ⟨hroot, hleaf, hfbelow, hfrest⟩ := hfits
    rw [reread] at h ⊢
    split_ifs at h ⊢
    · exact cons_eq_of_size (fun _ _ => Nat.le_refl _) (fun _ _ _ => rfl) (reread_nil_of_nil _)
        (size_reread_le _ _) (size_reread_le _ _) hleaf (ihb hbelow hfbelow) (ihr hrest hfrest) h
    · have hpos : 0 < kind.size below.tops.isEmpty below.size := NodeKind.size_pos hroot hkind
      have hle := size_reread_le around rest
      rw [size] at h
      omega

end Forest

/-! ## What was read -/

namespace Markup

/-- Whether the token is no shorter than it would be written. -/
def Token.isSpelledOut : Token → Bool
  | .start tag | .empty tag => tag.element.toOption.all fun e =>
    (e.attributes.map Attribute.size).sum ≤ byteLength tag.rest
  | .text raw => (expand raw).toOption.all fun content =>
    byteLength (escapeText content).toList ≤ byteLength raw.toList
  | _ => true

variable {around : Bool} {ts : List Token} {f : Forest NodeKind} {tag : Tag} {e : Element}
  {raw content : String} {names names' : List String} {d : Document} {s : String}

theorem isSpelledOut_tag (h : (tag.element.toOption.all fun e =>
    decide ((e.attributes.map Attribute.size).sum ≤ byteLength tag.rest)) = true)
    (he : tag.element = .ok e) : e.size ≤ byteLength tag.name.toList + byteLength tag.rest + 1 := by
  rw [he, Except.toOption, Option.all_some, decide_eq_true_iff] at h
  rw [Element.size, (of_element he).1, QName.full_ofString]
  omega

theorem size_instructionOf_le (content : String) (childless : Bool) (inside : Nat) :
    (Builder.instructionOf content).size childless inside ≤ byteLength content.toList + 4 := by
  rcases instructionOf_cases content with ⟨-, he⟩ | ⟨target, space, rest, hsplit, -, he⟩
  · rw [he]
    exact Nat.le_refl _
  · have hpos := Char.utf8Size_pos space
    have hle := byteLength_le_of_sublist (strip_sublist isSpace rest)
    have hspace : ' '.utf8Size = 1 := by decide
    rw [he, hsplit, byteLength_append, byteLength_cons]
    split_ifs
    · simp only [NodeKind.size, instructionText, String.toList_ofList]
      omega
    · simp only [NodeKind.size, toList_instructionText, String.toList_ofList, Option.map_some,
        Option.getD_some, byteLength_append, byteLength_cons, hspace]
      omega

/-- What tokens denote takes no more bytes than the tokens, if these are spelled out and their tags
match. -/
theorem Denotes.size_le (h : Denotes around ts f) (hs : ∀ t ∈ ts, t.isSpelledOut = true)
    (hn : ts.foldlM track names = .ok names') :
    names' = names ∧ f.size ≤ (ts.map Token.foundSize).sum := by
  have hplain : ∀ {t : Token} {after : List Token}, (∀ names, track names t = .ok names) →
      (t :: after).foldlM track names = .ok names' → after.foldlM track names = .ok names' := by
    intro t after ht hn
    rwa [List.foldlM_cons, ht] at hn
  induction h generalizing names names' with
  | nil => exact ⟨(Except.ok.inj hn).symm, Nat.zero_le _⟩
  | @element _ tag e inside after name below rest he _ _ ihb ihr =>
    rw [List.forall_mem_cons, List.forall_mem_append, List.forall_mem_cons] at hs
    obtain ⟨htag, hinside, -, hafter⟩ := hs
    rw [List.foldlM_cons, Outcome.bind_eq_ok_iff] at hn
    obtain ⟨_, hstart, hn⟩ := hn
    obtain rfl := Except.ok.inj hstart
    rw [List.foldlM_append, Outcome.bind_eq_ok_iff] at hn
    obtain ⟨names₁, hn₁, hn⟩ := hn
    obtain ⟨rfl, hbelow⟩ := ihb hinside hn₁ fun ht hn => by rwa [List.foldlM_cons, ht] at hn
    rw [List.foldlM_cons, Outcome.bind_eq_ok_iff] at hn
    obtain ⟨names₂, hend, hn⟩ := hn
    rw [track] at hend
    split_ifs at hend with hname
    obtain rfl := Except.ok.inj hend
    obtain ⟨rfl, hrest⟩ := ihr hafter hn fun ht hn => by rwa [List.foldlM_cons, ht] at hn
    have hsize := isSpelledOut_tag htag he
    have hfull : e.name.full = name := by rw [(of_element he).1, QName.full_ofString, hname]
    refine ⟨rfl, ?_⟩
    simp only [List.map_cons, List.map_append, List.sum_cons, List.sum_append, Token.foundSize,
      byteLength_written, Forest.size, NodeKind.size, hfull]
    rw [hname] at hsize ⊢
    split_ifs <;> omega
  | empty he _ ih =>
    obtain ⟨htag, hafter⟩ := List.forall_mem_cons.1 hs
    obtain ⟨rfl, hrest⟩ := ih hafter (hplain (fun _ => rfl) hn) hplain
    have hsize := isSpelledOut_tag htag he
    refine ⟨rfl, ?_⟩
    simp only [List.map_cons, List.sum_cons, Token.foundSize, byteLength_written, Forest.size,
      NodeKind.size, Forest.tops, List.isEmpty_nil, if_true]
    omega
  | @text _ raw content _ _ hc hk _ ih =>
    obtain ⟨htext, hafter⟩ := List.forall_mem_cons.1 hs
    obtain ⟨rfl, hrest⟩ := ih hafter (hplain (fun _ => rfl) hn) hplain
    rw [Token.isSpelledOut, hc, Except.toOption, Option.all_some, decide_eq_true_iff] at htext
    exact ⟨rfl, Nat.add_le_add htext hrest⟩
  | blank hc hk _ ih | declaration _ _ ih | doctype _ ih =>
    obtain ⟨rfl, hrest⟩ := ih (List.forall_mem_cons.1 hs).2 (hplain (fun _ => rfl) hn) hplain
    exact ⟨rfl, le_trans hrest (Nat.le_add_left _ _)⟩
  | cdata _ ih | comment _ ih =>
    obtain ⟨rfl, hrest⟩ := ih (List.forall_mem_cons.1 hs).2 (hplain (fun _ => rfl) hn) hplain
    refine ⟨rfl, ?_⟩
    simp only [List.map_cons, List.sum_cons, Token.foundSize, byteLength_written, Forest.size,
      NodeKind.size]
    omega
  | @instruction _ content _ _ _ ih =>
    obtain ⟨rfl, hrest⟩ := ih (List.forall_mem_cons.1 hs).2 (hplain (fun _ => rfl) hn) hplain
    have hsize := size_instructionOf_le content true 0
    refine ⟨rfl, ?_⟩
    simp only [List.map_cons, List.sum_cons, Token.foundSize, byteLength_written, Forest.size,
      Forest.tops, List.isEmpty_nil]
    omega

/-- The tokens of a text take no more bytes than the text. -/
theorem sum_foundSize_le (bound : Nat) (scanner : Scanner) :
    ((scanner.tokens bound).map Token.foundSize).sum ≤ byteLength scanner.rest := by
  refine Scanner.tokens_induction (motive := fun scanner ts =>
    (ts.map Token.foundSize).sum ≤ byteLength scanner.rest) (fun _ => Nat.zero_le _)
    (fun scanner after t ts h hne ih => ?_) bound scanner
  rw [List.map_cons, List.sum_cons]
  exact le_trans (Nat.add_le_add_left ih _) (heads_of_next h hne).1.foundIn.size_le

/-- What is read from a text takes no more bytes than the text, if the tokens of the text are spelled
out. -/
theorem size_le_of_parse (h : parse s = .ok d) (hs : ∀ t ∈ tokensOf s, t.isSpelledOut = true) :
    d.payloads.size ≤ s.utf8ByteSize := by
  obtain ⟨names, hnames⟩ := exists_track_tokens ((Scanner.ofString s).rest.length + 1) (.ofString s)
  have hsum := sum_foundSize_le ((Scanner.ofString s).rest.length + 1) (.ofString s)
  have hrest : byteLength (Scanner.ofString s).rest ≤ s.utf8ByteSize := by
    rw [← byteLength_toList, Scanner.ofString]
    split
    · rename_i hs
      rw [hs, byteLength_cons]
      exact Nat.le_add_left _ _
    · exact Nat.le_refl _
  exact le_trans ((denotes_of_parse h).1.size_le hs hnames).2 (le_trans hsum hrest)

end Markup

end SvgPress
