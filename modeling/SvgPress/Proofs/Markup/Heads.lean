import SvgPress.Proofs.Markup.Readable

/-!
# Tokens at the head of a text

What the scanner takes off a text, one case for each kind of token: where the text is cut, what of it
the token keeps, and what it cannot hold because the text would have been cut before.
-/

namespace SvgPress.Markup

open SvgPress.Text

/-! ## Where markup ends -/

theorem eq_append_of_cutTag {quote : Option Char} {text before after : List Char}
    (h : cutTag quote text = some (before, after)) : text = before ++ '>' :: after := by
  induction text generalizing quote before with
  | nil => simp [cutTag] at h
  | cons c rest ih =>
    cases quote with
    | none =>
      simp only [cutTag] at h
      split at h
      · rename_i hc
        obtain ⟨rfl, rfl⟩ := Prod.mk.inj (Option.some.inj h)
        rw [hc, List.nil_append]
      · obtain ⟨⟨b, a⟩, hr, he⟩ := Option.map_eq_some_iff.1 h
        obtain ⟨rfl, rfl⟩ := Prod.mk.inj he
        rw [ih hr, List.cons_append]
    | some q =>
      simp only [cutTag] at h
      obtain ⟨⟨b, a⟩, hr, he⟩ := Option.map_eq_some_iff.1 h
      obtain ⟨rfl, rfl⟩ := Prod.mk.inj he
      rw [ih hr, List.cons_append]

/-- A character other than the `>` that is looked for stands before the cut. -/
theorem exists_cutBalanced_cons {c : Char} {depth : Nat}
    (hc : ¬ (decide (c = '>') && decide (depth = 0)) = true) : ∃ depth', ∀ cs,
      cutBalanced depth (c :: cs) =
        (cutBalanced depth' cs).map fun (before, after) => (c :: before, after) :=
  ⟨_, fun cs => by rw [cutBalanced, if_neg hc]⟩

/-- A cut depends on what stands before it only. -/
theorem cutBalanced_of_eq {depth : Nat} {text before after : List Char}
    (h : cutBalanced depth text = some (before, after)) :
    text = before ++ '>' :: after ∧
      ∀ rest, cutBalanced depth (before ++ '>' :: rest) = some (before, rest) := by
  induction text generalizing depth before with
  | nil => simp [cutBalanced] at h
  | cons c cs ih =>
    by_cases hc : (decide (c = '>') && decide (depth = 0)) = true
    · rw [cutBalanced, if_pos hc] at h
      obtain ⟨rfl, rfl⟩ := Prod.mk.inj (Option.some.inj h)
      rw [Bool.and_eq_true, decide_eq_true_iff, decide_eq_true_iff] at hc
      obtain ⟨rfl, rfl⟩ := hc
      exact ⟨rfl, fun rest => rfl⟩
    · obtain ⟨depth', hstep⟩ := exists_cutBalanced_cons hc
      rw [hstep] at h
      obtain ⟨⟨b, a⟩, hr, he⟩ := Option.map_eq_some_iff.1 h
      obtain ⟨rfl, rfl⟩ := Prod.mk.inj he
      obtain ⟨htext, hcut⟩ := ih hr
      refine ⟨by rw [htext, List.cons_append], fun rest => ?_⟩
      rw [List.cons_append, hstep, hcut]
      rfl

/-! ## Tokens -/

/-- The token is taken off the head of the text, and the rest stands after it. -/
inductive Token.Heads : Token → (text rest : List Char) → Prop
  | cdata {content rest : List Char} (hend : contains "]]>".toList content = false) :
      Heads (.cdata (String.ofList content))
        ('<' :: '!' :: ("[CDATA[".toList ++ (content ++ ("]]>".toList ++ rest)))) rest
  | comment {content rest : List Char} (hend : contains "-->".toList content = false) :
      Heads (.comment (String.ofList content))
        ('<' :: '!' :: ("--".toList ++ (content ++ ("-->".toList ++ rest)))) rest
  | doctype {keyword content rest : List Char} (hk : lowerAscii keyword = "doctype".toList)
      (hc : IsBalanced content) (hname : content.dropWhile isBlank ≠ []) :
      Heads (.doctype (String.ofList (content.dropWhile isBlank)))
        ('<' :: '!' :: (keyword ++ (content ++ '>' :: rest))) rest
  | instruction {content rest : List Char} (hhead : content.head? ≠ some '>')
      (hend : contains "?>".toList content = false) : Heads (.instruction (String.ofList content))
        ('<' :: '?' :: (content ++ ("?>".toList ++ rest))) rest
  | declaration {attributes rest : List Char} (hname : attributes.head?.all isBlank = true)
      (hend : contains "?>".toList attributes = false) : Heads (.declaration ⟨"xml", attributes⟩)
        ('<' :: '?' :: ("xml".toList ++ attributes ++ ("?>".toList ++ rest))) rest
  | close {content rest : List Char}
      (hcut : cutTag none (content ++ '>' :: rest) = some (content, rest)) :
      Heads (.close (String.ofList
          (if content.all isBlank then content else dropTail isBlank content)))
        ('<' :: '/' :: (content ++ '>' :: rest)) rest
  | empty {content rest : List Char}
      (hcut : cutTag none (content ++ ['/'] ++ '>' :: rest) = some (content ++ ['/'], rest)) :
      Heads (.empty (Tag.ofContent content)) ('<' :: (content ++ ['/'] ++ '>' :: rest)) rest
  | start {content rest : List Char}
      (hcut : cutTag none (content ++ '>' :: rest) = some (content, rest))
      (hslash : content.getLast? ≠ some '/') :
      Heads (.start (Tag.ofContent content)) ('<' :: (content ++ '>' :: rest)) rest
  | text {raw rest : List Char} (hne : raw ≠ []) (hraw : '<' ∉ raw)
      (hrest : ∀ c ∈ rest.head?, c = '<') : Heads (.text (String.ofList raw)) (raw ++ rest) rest

variable {t : Token} {text rest : List Char}

theorem heads_of_readCData (h : readCData text = .ok (t, rest)) :
    t.Heads ('<' :: '!' :: text) rest := by
  simp only [readCData] at h
  split at h
  · rename_i content rest' hc
    obtain ⟨rfl, rfl⟩ := Prod.mk.inj (Except.ok.inj h)
    obtain ⟨after, ha, hcut⟩ := Option.bind_eq_some_iff.1 hc
    rw [after?_eq_some_iff.1 ha, eq_append_of_cutAt hcut]
    exact .cdata (contains_of_cutAt hcut (by simp))
  · simp at h

theorem heads_of_readComment (h : readComment text = .ok (t, rest)) :
    t.Heads ('<' :: '!' :: text) rest := by
  simp only [readComment] at h
  split at h
  · rename_i content rest' hc
    obtain ⟨rfl, rfl⟩ := Prod.mk.inj (Except.ok.inj h)
    obtain ⟨after, ha, hcut⟩ := Option.bind_eq_some_iff.1 hc
    rw [after?_eq_some_iff.1 ha, eq_append_of_cutAt hcut]
    exact .comment (contains_of_cutAt hcut (by simp))
  · simp at h

theorem heads_of_readDoctype (h : readDoctype text = .ok (t, rest)) :
    t.Heads ('<' :: '!' :: text) rest := by
  simp only [readDoctype] at h
  split at h
  · simp at h
  · rename_i hk
    split at h
    · simp at h
    · rename_i content rest' hcut
      obtain ⟨htext, hbalanced⟩ := cutBalanced_of_eq hcut
      split at h
      · simp at h
      · rename_i hname
        obtain ⟨rfl, rfl⟩ := Prod.mk.inj (Except.ok.inj h)
        rw [← List.take_append_drop "doctype".toList.length text, htext]
        exact .doctype (by simpa using hk) hbalanced hname

theorem heads_of_readInstruction (h : readInstruction text = .ok (t, rest)) :
    t.Heads ('<' :: '?' :: text) rest := by
  simp only [readInstruction] at h
  split at h
  · simp at h
  · rename_i hstart
    split at h
    · simp at h
    · rename_i content rest' hcut
      have hend := contains_of_cutAt hcut (by simp)
      obtain rfl := eq_append_of_cutAt hcut
      have hplain : (Token.instruction (String.ofList content)).Heads
          ('<' :: '?' :: (content ++ ("?>".toList ++ rest'))) rest' := by
        refine .instruction (fun hc => ?_) hend
        obtain ⟨cs, rfl⟩ := List.head?_eq_some_iff.1 hc
        exact hstart _ rfl
      split at h
      · rename_i attributes ha
        obtain rfl := after?_eq_some_iff.1 ha
        split at h
        · rename_i hname
          obtain ⟨rfl, rfl⟩ := Prod.mk.inj (Except.ok.inj h)
          have hattributes := contains_of_isInfix hend (List.suffix_append _ _).isInfix
          exact .declaration hname hattributes
        · obtain ⟨rfl, rfl⟩ := Prod.mk.inj (Except.ok.inj h)
          exact hplain
      · obtain ⟨rfl, rfl⟩ := Prod.mk.inj (Except.ok.inj h)
        exact hplain

theorem heads_of_readClose (h : readClose text = .ok (t, rest)) :
    t.Heads ('<' :: '/' :: text) rest := by
  simp only [readClose] at h
  split at h
  · simp at h
  · rename_i content rest' hcut
    obtain ⟨rfl, rfl⟩ := Prod.mk.inj (Except.ok.inj h)
    obtain rfl := eq_append_of_cutTag hcut
    exact .close hcut

theorem heads_of_readStart (h : readStart text = .ok (t, rest)) : t.Heads ('<' :: text) rest := by
  simp only [readStart] at h
  split at h
  · simp at h
  · rename_i content rest' hcut
    obtain rfl := eq_append_of_cutTag hcut
    split at h
    · rename_i hslash
      obtain ⟨rfl, rfl⟩ := Prod.mk.inj (Except.ok.inj h)
      obtain ⟨tag, rfl⟩ : ∃ tag, content = tag ++ ['/'] :=
        ⟨_, (List.dropLast_append_getLast? '/' hslash).symm⟩
      rw [List.dropLast_concat]
      exact .empty hcut
    · rename_i hslash
      obtain ⟨rfl, rfl⟩ := Prod.mk.inj (Except.ok.inj h)
      exact .start hcut hslash

theorem heads_of_readMarkup (h : readMarkup text = .ok (t, rest)) : t.Heads ('<' :: text) rest := by
  unfold readMarkup at h
  split at h
  · split at h
    · exact heads_of_readCData h
    · exact heads_of_readComment h
    · exact heads_of_readDoctype h
    · exact heads_of_readDoctype h
    · simp at h
  · exact heads_of_readInstruction h
  · exact heads_of_readClose h
  · exact heads_of_readStart h

/-- What the scanner finds stands at the head of the text that is left to it. -/
theorem heads_of_next {scanner after : Scanner} (h : scanner.next = .ok (t, after))
    (hne : t ≠ .endOfInput) :
    t.Heads scanner.rest after.rest ∧ track scanner.openNames t = .ok after.openNames := by
  unfold Scanner.next at h
  split at h
  · obtain ⟨rfl, -⟩ := Prod.mk.inj (Except.ok.inj h)
    exact absurd rfl hne
  · rename_i text hrest
    obtain ⟨⟨t, rest⟩, hm, h⟩ := Outcome.bind_eq_ok_iff.1 (Outcome.mapError_eq_ok_iff.1 h)
    obtain ⟨names, hnames, h⟩ := Outcome.bind_eq_ok_iff.1 h
    obtain ⟨rfl, rfl⟩ := Prod.mk.inj (Except.ok.inj h)
    exact ⟨hrest ▸ heads_of_readMarkup hm, hnames⟩
  · rename_i hnil hmarkup
    rw [List.span_eq_takeWhile_dropWhile] at h
    obtain ⟨rfl, rfl⟩ := Prod.mk.inj (Except.ok.inj h)
    have hheads : (Token.text (String.ofList (scanner.rest.takeWhile (· != '<')))).Heads
        (scanner.rest.takeWhile (· != '<') ++ scanner.rest.dropWhile (· != '<'))
        (scanner.rest.dropWhile (· != '<')) := by
      refine .text ?_ (fun hm => ?_) fun c hc => ?_
      · cases hrest : scanner.rest with
        | nil => exact absurd hrest hnil
        | cons c rest =>
          have hc : c ≠ '<' := by
            rintro rfl
            exact hmarkup rest hrest
          simp [hc]
      · simpa using List.mem_takeWhile_imp hm
      · have hhead := List.head?_dropWhile_not (· != '<') scanner.rest
        rw [Option.mem_def.1 hc] at hhead
        simpa using hhead
    rw [List.takeWhile_append_dropWhile] at hheads
    exact ⟨hheads, rfl⟩

/-- A token at the head of a text takes at least one character. -/
theorem Token.Heads.length_lt (h : t.Heads text rest) : rest.length < text.length := by
  cases h with
  | text hne =>
    have hpos := List.length_pos_iff.2 hne
    rw [List.length_append]
    omega
  | _ =>
    simp only [List.length_append, List.length_cons]
    omega

end SvgPress.Markup
