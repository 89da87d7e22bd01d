import SvgPress.Proofs.Markup.Legible
import SvgPress.Proofs.Markup.Reading
import Mathlib.Data.List.Induction

/-!
# Tokens that are found

A scanner finds each token up to where it ends for the first time, so none of the tokens holds its own
end. A document type apart, no token is longer in its written form than the text that it is found in.
Attributes stand in their tag as they are, and no two of an element have the same key.
-/

namespace SvgPress.Markup

open SvgPress.Text

/-! ## Balanced brackets -/

theorem isBalanced_dropWhile {p : Char → Bool} (hp : ∀ c, p c = true → c ≠ '<' ∧ c ≠ '>')
    {cs : List Char} (h : IsBalanced cs) : IsBalanced (cs.dropWhile p) := by
  induction cs with
  | nil => exact h
  | cons c cs ih =>
    by_cases hc : p c = true
    · rw [List.dropWhile_cons_of_pos hc]
      refine ih fun rest => ?_
      have hall := h rest
      rw [List.cons_append, cutBalanced_cons (hp c hc).1 (hp c hc).2] at hall
      obtain ⟨⟨b, a⟩, hcut, he⟩ := Option.map_eq_some_iff.1 hall
      obtain ⟨hb, rfl⟩ := Prod.mk.inj he
      rwa [(List.cons.inj hb).2] at hcut
    · rwa [List.dropWhile_cons_of_neg hc]

theorem cutBalanced_concat {c : Char} (hlt : c ≠ '<') (hgt : c ≠ '>') {depth : Nat}
    {cs rest : List Char}
    (h : cutBalanced depth (cs ++ c :: '>' :: rest) = some (cs ++ [c], rest)) :
    cutBalanced depth (cs ++ '>' :: rest) = some (cs, rest) := by
  induction cs generalizing depth with
  | nil =>
    rw [List.nil_append, cutBalanced_cons hlt hgt] at h
    obtain ⟨⟨b, a⟩, hcut, he⟩ := Option.map_eq_some_iff.1 h
    obtain ⟨hb, rfl⟩ := Prod.mk.inj he
    rwa [(List.cons.inj hb).2] at hcut
  | cons x cs ih =>
    rw [List.cons_append] at h ⊢
    by_cases hx : (decide (x = '>') && decide (depth = 0)) = true
    · rw [cutBalanced, if_pos hx] at h
      simp at h
    · obtain ⟨depth', hstep⟩ := exists_cutBalanced_cons hx
      rw [hstep] at h ⊢
      obtain ⟨⟨b, a⟩, hcut, he⟩ := Option.map_eq_some_iff.1 h
      obtain ⟨hb, rfl⟩ := Prod.mk.inj he
      rw [List.cons_append, List.cons.injEq] at hb
      rw [hb.2] at hcut
      rw [ih hcut]
      rfl

theorem isBalanced_dropTail {p : Char → Bool} (hp : ∀ c, p c = true → c ≠ '<' ∧ c ≠ '>')
    {cs : List Char} (h : IsBalanced cs) : IsBalanced (dropTail p cs) := by
  induction cs using List.reverseRecOn with
  | nil => exact h
  | append_singleton cs c ih =>
    by_cases hc : p c = true
    · have hdrop : dropTail p (cs ++ [c]) = dropTail p cs := by
        rw [dropTail, List.reverse_append, List.reverse_singleton, List.singleton_append,
          List.dropWhile_cons_of_pos hc, dropTail]
      rw [hdrop]
      refine ih fun rest => cutBalanced_concat (hp c hc).1 (hp c hc).2 ?_
      have hall := h rest
      rwa [List.append_assoc, List.singleton_append] at hall
    · rwa [dropTail_eq_self fun x hx => by
        rw [List.getLast?_concat] at hx
        obtain rfl := Option.some.inj hx
        simpa using hc]

/-- Trimming takes no angle brackets off a document type. -/
theorem isBalanced_trimSpace {content : String} (h : IsBalanced content.toList) :
    IsBalanced (trimSpace content).toList := by
  have hspace : ∀ c, isSpace c = true → c ≠ '<' ∧ c ≠ '>' := by
    intro c hc
    constructor <;> rintro rfl <;> exact absurd hc (by decide)
  rw [trimSpace, stripString, String.toList_ofList, strip]
  exact isBalanced_dropTail hspace (isBalanced_dropWhile hspace h)

/-! ## Tokens -/

/-- What holds of every token that is found in a text. -/
def Token.IsFound : Token → Prop
  | .declaration tag => contains "?>".toList tag.rest = false
  | .doctype content => IsBalanced content.toList
  | .text raw => raw ≠ ""
  | .cdata content => contains "]]>".toList content.toList = false
  | .comment content => contains "-->".toList content.toList = false
  | .instruction content =>
    (∀ c ∈ content.toList.head?, c ≠ '>') ∧ contains "?>".toList content.toList = false
  | _ => True

/-- The bytes that a token takes at least where it is found; of a document type nothing is said. -/
def Token.foundSize : Token → Nat
  | .doctype _ => 0
  | t => byteLength t.written

theorem Token.foundSize_le (t : Token) : t.foundSize ≤ byteLength t.written := by
  cases t with
  | doctype content => exact Nat.zero_le _
  | _ => exact Nat.le_refl _

/-- A token that is found at the start of a text, with the rest of the text after it. -/
structure Token.FoundIn (t : Token) (text rest : List Char) : Prop where
  found : t.IsFound
  size_le : t.foundSize + byteLength rest ≤ byteLength text

variable {t : Token} {text rest : List Char}

/-- The written form of a token is found at the start of a text that starts with it. -/
theorem Token.FoundIn.of_eq (h : t.IsFound) (he : text = t.written ++ rest) :
    t.FoundIn text rest where
  found := h
  size_le := by
    rw [he, byteLength_append]
    exact Nat.add_le_add_right t.foundSize_le _

theorem toList_name_append_rest (content : List Char) :
    (Tag.ofContent content).name.toList ++ (Tag.ofContent content).rest = content := by
  simp only [Tag.ofContent, List.span_eq_takeWhile_dropWhile, String.toList_ofList,
    List.takeWhile_append_dropWhile]

theorem Token.Heads.foundIn (h : t.Heads text rest) : t.FoundIn text rest := by
  cases h with
  | cdata hend | comment hend =>
    refine .of_eq ?_ (by simp [Token.written])
    simpa only [Token.IsFound, String.toList_ofList] using hend
  | @doctype keyword content _ _ hbalanced =>
    refine ⟨?_, ?_⟩
    · rw [Token.IsFound, String.toList_ofList]
      refine isBalanced_dropWhile (fun c hc => ?_) hbalanced
      constructor <;> rintro rfl <;> exact absurd hc (by decide)
    · rw [Token.foundSize]
      simp only [byteLength_cons, byteLength_append]
      omega
  | instruction hhead hend =>
    refine .of_eq ⟨fun c hc => ?_, ?_⟩ (by simp [Token.written])
    · rintro rfl
      rw [String.toList_ofList] at hc
      exact hhead hc
    · simpa only [String.toList_ofList] using hend
  | declaration _ hend => exact .of_eq hend (by simp [Token.written])
  | @close content =>
    have hname : byteLength (if content.all isBlank then content else dropTail isBlank content) ≤
        byteLength content := by
      split_ifs
      · exact Nat.le_refl _
      · exact byteLength_le_of_sublist (dropTail_sublist _ _)
    refine ⟨trivial, ?_⟩
    simp only [Token.foundSize, Token.written, byteLength_cons, byteLength_append,
      String.toList_ofList, byteLength_nil]
    omega
  | empty | start =>
    refine .of_eq trivial ?_
    rw [Token.written, toList_name_append_rest]
    simp
  | text hne => exact .of_eq (by simpa [Token.IsFound] using hne) (by simp [Token.written])

/-! ## Attributes -/

/-- An attribute that is read stands in its tag, with a key; if keys have to be unique, it is new. -/
theorem of_readAttribute {unique : Bool} {seen : List RawAttribute} {offset offset' : Nat}
    {raw : RawAttribute} (h : readAttribute unique seen offset text = .ok (some (raw, offset', rest))) :
    (∃ before quote, text = before ++ quote :: (raw.value.toList ++ quote :: rest)) ∧
      (unique = true → ∀ earlier ∈ seen, earlier.key ≠ raw.key) ∧ IsKey raw.key := by
  simp only [readAttribute, List.span_eq_takeWhile_dropWhile] at h
  split at h
  · simp at h
  · rename_i first afterFirst hfirst
    have hs₁ : first :: afterFirst <:+ text := hfirst ▸ List.dropWhile_suffix isBlank
    split at h
    · rename_i afterEquals hequals
      have hs₂ : '=' :: afterEquals <:+ afterFirst :=
        (hequals ▸ List.dropWhile_suffix isBlank).trans (List.dropWhile_suffix _)
      split at h
      · simp at h
      · rename_i hfresh
        split at h
        · simp at h
        · rename_i quote afterQuote hquote
          have hs₃ : quote :: afterQuote <:+ afterEquals := hquote ▸ List.dropWhile_suffix isBlank
          obtain ⟨before, htext⟩ := ((hs₃.trans (List.suffix_cons _ _)).trans hs₂).trans
            ((List.suffix_cons _ _).trans hs₁)
          split_ifs at h
          split at h
          · simp at h
          · rename_i closing afterValue hvalue
            have hbody := List.takeWhile_append_dropWhile (p := (· != quote)) (l := afterQuote)
            have hclosing := List.head?_dropWhile_not (· != quote) afterQuote
            rw [hvalue] at hbody hclosing
            obtain rfl : closing = quote := by simpa using hclosing
            simp only [Except.ok.injEq, Option.some.injEq, Prod.mk.injEq] at h
            obtain ⟨rfl, -, rfl⟩ := h
            refine ⟨⟨before, closing, ?_⟩, fun hu earlier he => ?_, first, _,
              String.toList_ofList, ?_, fun c hc => ?_⟩
            · rw [String.toList_ofList, hbody, htext]
            · rw [if_pos hu, List.find?_eq_none] at hfresh
              simpa using hfresh earlier he
            · have hhead := List.head?_dropWhile_not isBlank text
              rw [hfirst] at hhead
              simpa using hhead
            · simpa using List.mem_takeWhile_imp hc
    · simp at h

theorem infix_of_mem_readAttributes {unique : Bool} {bound : Nat} {seen : List RawAttribute}
    {offset : Nat} {raw : RawAttribute}
    (h : raw ∈ (readAttributes unique bound seen offset text).1) :
    raw ∈ seen ∨ raw.value.toList <:+: text := by
  induction bound generalizing seen offset text with
  | zero => exact .inl (List.mem_reverse.1 h)
  | succ bound ih =>
    rw [readAttributes] at h
    split at h
    · exact .inl (List.mem_reverse.1 h)
    · exact .inl (List.mem_reverse.1 h)
    · rename_i first offset' rest' hread
      obtain ⟨⟨before, quote, rfl⟩, -⟩ := of_readAttribute hread
      rcases ih h with hm | hm
      · rcases List.mem_cons.1 hm with rfl | hm
        · exact .inr ⟨before ++ [quote], quote :: rest', by simp⟩
        · exact .inl hm
      · exact .inr (hm.trans (List.IsSuffix.isInfix
          ⟨before ++ quote :: (first.value.toList ++ [quote]), by simp⟩))

theorem nodup_readAttributes {bound : Nat} {seen : List RawAttribute} {offset : Nat}
    (h : (seen.map (·.key)).Nodup) :
    ((readAttributes true bound seen offset text).1.map (·.key)).Nodup := by
  have hreverse : (seen.reverse.map (·.key)).Nodup := by
    rw [List.map_reverse, List.nodup_reverse]
    exact h
  induction bound generalizing seen offset text with
  | zero => exact hreverse
  | succ bound ih =>
    rw [readAttributes]
    split
    · exact hreverse
    · exact hreverse
    · rename_i first offset' rest' hread
      obtain ⟨-, hfresh, -⟩ := of_readAttribute hread
      have hnext : ((first :: seen).map (·.key)).Nodup := by
        rw [List.map_cons, List.nodup_cons]
        refine ⟨fun hm => ?_, h⟩
        obtain ⟨earlier, he, hkey⟩ := List.mem_map.1 hm
        exact hfresh rfl earlier he hkey
      refine ih hnext ?_
      rw [List.map_reverse, List.nodup_reverse]
      exact hnext

theorem isKey_of_mem_readAttributes {unique : Bool} {bound : Nat} {seen : List RawAttribute}
    {offset : Nat} (hseen : ∀ raw ∈ seen, IsKey raw.key) :
    ∀ raw ∈ (readAttributes unique bound seen offset text).1, IsKey raw.key := by
  have hreverse : ∀ raw ∈ seen.reverse, IsKey raw.key := fun raw hraw =>
    hseen raw (List.mem_reverse.1 hraw)
  induction bound generalizing seen offset text with
  | zero => exact hreverse
  | succ bound ih =>
    rw [readAttributes]
    split
    · exact hreverse
    · exact hreverse
    · rename_i first offset' rest' hread
      obtain ⟨-, -, hkey⟩ := of_readAttribute hread
      have hnext : ∀ raw ∈ first :: seen, IsKey raw.key := List.forall_mem_cons.2 ⟨hkey, hseen⟩
      exact ih hnext fun raw hraw => hnext raw (List.mem_reverse.1 hraw)

theorem map_name_of_mapM_resolve {raws : List RawAttribute} {attributes : List Attribute}
    (h : raws.mapM RawAttribute.resolve = .ok attributes) :
    attributes.map (·.name) = raws.map fun raw => QName.ofString raw.key := by
  induction raws generalizing attributes with
  | nil =>
    obtain rfl := Except.ok.inj h
    rfl
  | cons raw raws ih =>
    rw [List.mapM_cons] at h
    obtain ⟨a, ha, h⟩ := Outcome.bind_eq_ok_iff.1 h
    obtain ⟨as, has, h⟩ := Outcome.bind_eq_ok_iff.1 h
    obtain rfl := Except.ok.inj h
    rw [RawAttribute.resolve] at ha
    split at ha
    · obtain rfl := Except.ok.inj ha
      rw [List.map_cons, List.map_cons, ih has]
      rfl
    · simp at ha

/-- An element has the name of its tag, and no two of its attributes have the same name. -/
theorem of_element {tag : Tag} {e : Element} (h : tag.element = .ok e) :
    e.name = QName.ofString tag.name ∧
      (∀ a ∈ e.attributes, a.name = QName.ofString a.name.full) ∧
      (e.attributes.map (·.name)).Nodup := by
  simp only [Tag.element] at h
  obtain ⟨attributes, hm, h⟩ := Outcome.bind_eq_ok_iff.1 h
  have hnames := map_name_of_mapM_resolve hm
  split at h
  · simp at h
  · obtain rfl := Except.ok.inj h
    refine ⟨rfl, fun a ha => ?_, ?_⟩
    · have hmem := List.mem_map_of_mem (f := (·.name)) ha
      rw [hnames] at hmem
      obtain ⟨raw, -, hraw⟩ := List.mem_map.1 hmem
      rw [← hraw, QName.full_ofString]
    · have hkeys : ((tag.rawAttributes true).1.map (·.key)).Nodup :=
        nodup_readAttributes List.nodup_nil
      rw [hnames, ← Function.comp_def QName.ofString, ← List.map_map]
      refine hkeys.map fun s s' he => ?_
      rw [← QName.full_ofString s, he, QName.full_ofString]

/-- The attributes of a tag are named by its keys. -/
theorem isKeyed_of_element {tag : Tag} {e : Element} (h : tag.element = .ok e) :
    e.IsKeyed IsKey := by
  obtain ⟨hname, hread, hdistinct⟩ := of_element h
  refine ⟨hname ▸ QName.isRead_ofString _, fun a ha => (hread a ha).symm, ?_, hdistinct⟩
  simp only [Tag.element] at h
  obtain ⟨attributes, hm, h⟩ := Outcome.bind_eq_ok_iff.1 h
  split at h
  · simp at h
  · obtain rfl := Except.ok.inj h
    intro a ha
    have hmem := List.mem_map_of_mem (f := (·.name)) ha
    rw [map_name_of_mapM_resolve hm] at hmem
    obtain ⟨raw, hraw, hkey⟩ := List.mem_map.1 hmem
    rw [← hkey, QName.full_ofString]
    exact isKey_of_mem_readAttributes (List.forall_mem_nil _) raw hraw

/-- What an XML declaration states may stand between double quotes, unless it holds one. -/
theorem isQuotable_of_declarationOf {tag : Tag} {declaration : XmlDeclaration}
    (h : Builder.declarationOf tag = .ok declaration)
    (hf : contains "?>".toList tag.rest = false) (hversion : '"' ∉ declaration.version.toList)
    (hencoding : ∀ encoding ∈ declaration.encoding, '"' ∉ encoding.toList) :
    declaration.IsQuotable := by
  have hends : ∀ raw ∈ (tag.rawAttributes false).1, contains "?>".toList raw.value.toList = false := by
    intro raw hraw
    exact contains_of_isInfix hf
      ((infix_of_mem_readAttributes hraw).resolve_left List.not_mem_nil)
  obtain ⟨version, hv, h⟩ := Outcome.bind_eq_ok_iff.1 h
  obtain rfl := Except.ok.inj h
  refine ⟨⟨hversion, ?_⟩, fun encoding he => ⟨hencoding encoding he, ?_⟩⟩
  · simp only [Builder.declaredVersion] at hv
    split at hv
    · rename_i first others fault hraws
      split_ifs at hv
      obtain rfl := Except.ok.inj hv
      exact hends first (by simp [hraws])
    · simp at hv
    · simp at hv
  · obtain ⟨raw, hfind, rfl⟩ := Option.map_eq_some_iff.1 he
    exact hends raw (List.mem_of_find?_eq_some hfind)

/-! ## The tokens of a text -/

/-- The tokens of a text, at most `bound` many, up to its end or its first fault. -/
def Scanner.tokens : (bound : Nat) → Scanner → List Token
  | 0, _ => []
  | bound + 1, scanner =>
    match scanner.next with
    | .error _ => []
    | .ok (.endOfInput, _) => []
    | .ok (t, after) => t :: after.tokens bound

/-- The tokens of a text up to its end or its first fault. -/
def tokensOf (s : String) : List Token :=
  (Scanner.ofString s).tokens ((Scanner.ofString s).rest.length + 1)

theorem tokens_of_next {scanner after : Scanner} (h : scanner.next = .ok (t, after))
    (hne : t ≠ .endOfInput) (bound : Nat) :
    scanner.tokens (bound + 1) = t :: after.tokens bound := by
  rw [Scanner.tokens, h]
  split
  · rename_i he
    simp at he
  · rename_i he
    exact absurd (Prod.mk.inj (Except.ok.inj he)).1 hne
  · rename_i he
    obtain ⟨rfl, rfl⟩ := Prod.mk.inj (Except.ok.inj he)
    rfl

/-- What holds of the first token and, if it holds of the tokens after it, of all the tokens. -/
theorem Scanner.tokens_induction {motive : Scanner → List Token → Prop}
    (nil : ∀ scanner, motive scanner [])
    (cons : ∀ scanner after t ts, scanner.next = .ok (t, after) → t ≠ .endOfInput →
      motive after ts → motive scanner (t :: ts)) (bound : Nat) (scanner : Scanner) :
    motive scanner (scanner.tokens bound) := by
  induction bound generalizing scanner with
  | zero => exact nil scanner
  | succ bound ih =>
    rw [Scanner.tokens]
    split
    · exact nil scanner
    · exact nil scanner
    · rename_i t after hne h
      exact cons scanner after t _ h hne (ih after)

theorem isFound_of_mem_tokensOf {s : String} : ∀ t ∈ tokensOf s, t.IsFound ∧ t ≠ .endOfInput :=
  Scanner.tokens_induction (motive := fun _ ts => ∀ t ∈ ts, t.IsFound ∧ t ≠ .endOfInput)
    (fun _ _ ht => absurd ht List.not_mem_nil)
    (fun _ _ _ _ h hne ih =>
      List.forall_mem_cons.2 ⟨⟨(heads_of_next h hne).1.foundIn.found, hne⟩, ih⟩) _ _

/-- The end tags among the tokens of a text close what the start tags opened. -/
theorem exists_track_tokens (bound : Nat) (scanner : Scanner) :
    ∃ names, (scanner.tokens bound).foldlM track scanner.openNames = .ok names :=
  Scanner.tokens_induction
    (motive := fun scanner ts => ∃ names, ts.foldlM track scanner.openNames = .ok names)
    (fun scanner => ⟨scanner.openNames, rfl⟩)
    (fun scanner after t ts h hne ⟨names, hnames⟩ => ⟨names, by
      rw [List.foldlM_cons, Outcome.bind_eq_ok_iff]
      exact ⟨_, (heads_of_next h hne).2, hnames⟩⟩) bound scanner

end SvgPress.Markup
