import SvgPress.Css.Declaration
import SvgPress.Proofs.Markup.Sizes

/-!
# Shorter styles and colors

Minifying a style only leaves characters out. A color in short notation takes no more bytes than
before, and its short notation is found once and for all: shortening the colors of a style again
changes nothing.
-/

namespace SvgPress

open Text

/-! ## Weights of characters -/

/-- The size of a text in which every character takes its weight. -/
def weigh (weight : Char → Nat) (cs : List Char) : Nat :=
  (cs.map weight).sum

section

variable {weight : Char → Nat}

theorem weigh_cons (c : Char) (cs : List Char) :
    weigh weight (c :: cs) = weight c + weigh weight cs := by
  rw [weigh, List.map_cons, List.sum_cons, weigh]

theorem weigh_append (cs ds : List Char) :
    weigh weight (cs ++ ds) = weigh weight cs + weigh weight ds := by
  rw [weigh, List.map_append, List.sum_append, weigh, weigh]

theorem weigh_le_of_sublist {cs ds : List Char} (h : cs.Sublist ds) :
    weigh weight cs ≤ weigh weight ds :=
  sum_map_le_of_sublist h weight

theorem length_le_weigh (hpos : ∀ c, 0 < weight c) (cs : List Char) :
    cs.length ≤ weigh weight cs := by
  induction cs with
  | nil => exact Nat.le_refl _
  | cons c cs ih =>
    have hc := hpos c
    rw [weigh_cons, List.length_cons]
    omega

end

theorem weigh_utf8Size (s : String) : weigh Char.utf8Size s.toList = s.utf8ByteSize := by
  have hlist : ∀ cs : List Char, weigh Char.utf8Size cs = byteLength cs := by
    intro cs
    induction cs with
    | nil => rfl
    | cons c cs ih => rw [weigh_cons, ih, byteLength_cons]
  rw [hlist, byteLength_toList]

theorem utf8ByteSize_toString (c : Char) : c.toString.utf8ByteSize = c.utf8Size := by
  rw [Char.toString_eq_singleton, String.utf8ByteSize_singleton]

/-- Every character takes a byte at least. -/
theorem escapeValueChar_pos (c : Char) : 0 < (Markup.escapeValueChar '"' c).utf8ByteSize := by
  unfold Markup.escapeValueChar Markup.escapeTextChar
  split_ifs
  · decide
  · decide
  · decide
  · decide
  · rw [utf8ByteSize_toString]
    exact Char.utf8Size_pos c

theorem quotedSize_le_of_sublist {cs ds : List Char} (h : cs.Sublist ds) :
    quotedSize cs ≤ quotedSize ds :=
  weigh_le_of_sublist h

/-- Leaving characters out makes a value smaller. -/
theorem eq_of_sublist_of_valueSize {value value' : String} (h : value'.toList.Sublist value.toList)
    (hs : valueSize value' = valueSize value) : value' = value :=
  String.toList_injective (eq_of_sublist_of_sum h escapeValueChar_pos hs)

/-! ## Joined pieces -/

namespace Text

variable {sep : Char} {parts : List (List Char)}

theorem intercalate_eq_tail (sep : Char) (parts : List (List Char)) :
    [sep].intercalate parts = (parts.flatMap (sep :: ·)).tail := by
  induction parts with
  | nil => rfl
  | cons part rest ih =>
    cases rest with
    | nil => simp
    | cons next rest =>
      rw [List.intercalate_cons_cons, ih, List.flatMap_cons, List.flatMap_cons]
      simp

/-- Leaving pieces out, and characters in them, leaves characters out. -/
theorem intercalate_filterMap_sublist {f : List Char → Option (List Char)} (sep : Char)
    (hf : ∀ part ∈ parts, ∀ x ∈ f part, x.Sublist part) :
    ([sep].intercalate (parts.filterMap f)).Sublist ([sep].intercalate parts) := by
  have hall : ((parts.filterMap f).flatMap (sep :: ·)).Sublist (parts.flatMap (sep :: ·)) := by
    induction parts with
    | nil => exact List.Sublist.refl _
    | cons part rest ih =>
      obtain ⟨hpart, hrest⟩ := List.forall_mem_cons.1 hf
      rw [List.filterMap_cons, List.flatMap_cons]
      cases hx : f part with
      | none => exact (ih hrest).trans (List.sublist_append_right _ _)
      | some x => exact ((hpart x hx).cons_cons sep).append (ih hrest)
  rw [intercalate_eq_tail, intercalate_eq_tail]
  exact hall.tail

/-- Leaving pieces out, and making others lighter, makes a text lighter. -/
theorem weigh_intercalate_filterMap_le {weight : Char → Nat} {f : List Char → Option (List Char)}
    (sep : Char) (hf : ∀ part ∈ parts, ∀ x ∈ f part, weigh weight x ≤ weigh weight part) :
    weigh weight ([sep].intercalate (parts.filterMap f)) ≤
      weigh weight ([sep].intercalate parts) := by
  have hall : weigh weight ((parts.filterMap f).flatMap (sep :: ·)) ≤
      weigh weight (parts.flatMap (sep :: ·)) := by
    induction parts with
    | nil => exact Nat.le_refl _
    | cons part rest ih =>
      obtain ⟨hpart, hrest⟩ := List.forall_mem_cons.1 hf
      rw [List.filterMap_cons, List.flatMap_cons, weigh_append]
      cases hx : f part with
      | none => exact Nat.le_add_left_of_le (ih hrest)
      | some x =>
        have hle := hpart x hx
        have hle' := ih hrest
        rw [List.flatMap_cons, weigh_append, weigh_cons, weigh_cons]
        omega
  have htail : ∀ parts : List (List Char), weigh weight (parts.flatMap (sep :: ·)) =
      weigh weight ([sep].intercalate parts) + if parts = [] then 0 else weight sep := by
    intro parts
    rw [intercalate_eq_tail]
    cases parts with
    | nil => rfl
    | cons part rest =>
      rw [List.flatMap_cons, List.cons_append, weigh_cons, List.tail_cons]
      exact Nat.add_comm _ _
  rw [htail, htail] at hall
  have hnil : parts = [] → parts.filterMap f = [] := fun h => by rw [h]; rfl
  split_ifs at hall with h₁ h₂ h₂
  · exact hall
  · rw [h₁]
    exact Nat.zero_le _
  · exact absurd (hnil h₂) h₁
  · omega

theorem pieces_of_not_mem {piece : List Char} (h : sep ∉ piece) : pieces sep piece = [piece] := by
  induction piece with
  | nil => rfl
  | cons c piece ih =>
    rw [List.mem_cons, not_or] at h
    obtain ⟨hc, hpiece⟩ := h
    rw [pieces, if_neg (Ne.symm hc), ih hpiece]

theorem pieces_append {piece : List Char} (h : sep ∉ piece) (rest : List Char) :
    pieces sep (piece ++ sep :: rest) = piece :: pieces sep rest := by
  induction piece with
  | nil => rw [List.nil_append, pieces, if_pos rfl]
  | cons c piece ih =>
    rw [List.mem_cons, not_or] at h
    obtain ⟨hc, hpiece⟩ := h
    rw [List.cons_append, pieces, if_neg (Ne.symm hc), ih hpiece]

/-- Pieces that do not hold the character between them are found again. -/
theorem pieces_intercalate (hne : parts ≠ []) (h : ∀ part ∈ parts, sep ∉ part) :
    pieces sep ([sep].intercalate parts) = parts := by
  induction parts with
  | nil => exact absurd rfl hne
  | cons part rest ih =>
    obtain ⟨hpart, hrest⟩ := List.forall_mem_cons.1 h
    cases rest with
    | nil => simpa using pieces_of_not_mem hpart
    | cons next rest =>
      rw [List.intercalate_cons_cons, List.append_assoc, List.singleton_append, pieces_append hpart,
        ih (by simp) hrest]

end Text

/-! ## Colors -/

namespace Css

/-- The characters of colors in short notation. -/
def isColorChar (c : Char) : Bool :=
  c == '#' || isDigit c || ('a' ≤ c && c ≤ 'z')

theorem isColorChar_of_isLowerHex {c : Char} (h : isLowerHex c = true) : isColorChar c = true := by
  simp only [isLowerHex, isColorChar, Bool.or_eq_true, Bool.and_eq_true, decide_eq_true_iff] at h ⊢
  rcases h with h | ⟨ha, hf⟩
  · exact .inl (.inr h)
  · exact .inr ⟨ha, Char.le_trans hf (by decide : 'f' ≤ 'z')⟩

theorem toNat_of_isColorChar {c : Char} (h : isColorChar c = true) :
    c.toNat = 35 ∨ (48 ≤ c.toNat ∧ c.toNat ≤ 57) ∨ (97 ≤ c.toNat ∧ c.toNat ≤ 122) := by
  simp only [isColorChar, isDigit, Bool.or_eq_true, Bool.and_eq_true, decide_eq_true_iff,
    beq_iff_eq] at h
  rcases h with (rfl | h) | h
  · exact .inl rfl
  · exact .inr (.inl h)
  · exact .inr (.inr h)

theorem not_isSpace_of_isColorChar {c : Char} (h : isColorChar c = true) : isSpace c = false := by
  have hc := toNat_of_isColorChar h
  rw [← Bool.not_eq_true]
  simp only [isSpace, Bool.or_eq_true, Bool.and_eq_true, decide_eq_true_iff, beq_iff_eq]
  omega

theorem lowerToAscii_of_isColorChar {c : Char} (h : isColorChar c = true) : lowerToAscii c = c := by
  have hc := toNat_of_isColorChar h
  have hkelvin : c ≠ '\u212A' := by
    rintro rfl
    exact absurd h (by decide)
  have hupper : ¬ (c.val ≥ 'A'.val ∧ c.val ≤ 'Z'.val) := by
    rintro ⟨hlow, hhigh⟩
    have hlow' : 65 ≤ c.toNat := hlow
    have hhigh' : c.toNat ≤ 90 := hhigh
    omega
  rw [lowerToAscii, if_neg hkelvin]
  exact dif_neg hupper

theorem utf8Size_of_isColorChar {c : Char} (h : isColorChar c = true) : c.utf8Size = 1 := by
  have hc := toNat_of_isColorChar h
  have hle : c.val ≤ 0x7f := by
    show c.toNat ≤ 127
    omega
  exact Char.utf8Size_eq_one_iff.2 hle

theorem escapeValueChar_of_isColorChar {c : Char} (h : isColorChar c = true) :
    (Markup.escapeValueChar '"' c).utf8ByteSize = 1 := by
  have hplain : ∀ other : Char, isColorChar other = false → c ≠ other := by
    rintro other ho rfl
    exact absurd h (by simp [ho])
  rw [Markup.escapeValueChar, if_neg (hplain _ (by decide)), Markup.escapeTextChar,
    if_neg (hplain _ (by decide)), if_neg (hplain _ (by decide)), if_neg (hplain _ (by decide)),
    utf8ByteSize_toString, utf8Size_of_isColorChar h]

/-- A notation in which every character takes a byte at least, and the characters of colors in short
notation take one each. -/
structure IsFair (weight : Char → Nat) : Prop where
  pos : ∀ c, 0 < weight c
  one : ∀ c, isColorChar c = true → weight c = 1

theorem isFair_utf8Size : IsFair Char.utf8Size :=
  ⟨Char.utf8Size_pos, fun _ => utf8Size_of_isColorChar⟩

theorem isFair_escapeValueChar : IsFair fun c => (Markup.escapeValueChar '"' c).utf8ByteSize :=
  ⟨escapeValueChar_pos, fun _ => escapeValueChar_of_isColorChar⟩

theorem IsFair.weigh_eq_length {weight : Char → Nat} (hw : IsFair weight) {cs : List Char}
    (h : ∀ c ∈ cs, isColorChar c = true) : weigh weight cs = cs.length := by
  induction cs with
  | nil => rfl
  | cons c cs ih =>
    obtain ⟨hc, hcs⟩ := List.forall_mem_cons.1 h
    rw [weigh_cons, hw.one c hc, ih hcs, List.length_cons, Nat.add_comm]

theorem strip_of_isColorChar {cs : List Char} (h : ∀ c ∈ cs, isColorChar c = true) :
    strip isSpace cs = cs :=
  strip_eq_self fun c hc => not_isSpace_of_isColorChar (h c hc)

theorem map_lowerToAscii_of_isColorChar {cs : List Char} (h : ∀ c ∈ cs, isColorChar c = true) :
    cs.map lowerToAscii = cs := by
  rw [List.map_congr_left fun c hc => lowerToAscii_of_isColorChar (h c hc), List.map_id']

/-- Names of colors, and colors in hexadecimal that have one, have a short notation. -/
theorem of_named? {lower short : String} (h : named? lower = some short) :
    (∀ c ∈ short.toList, isColorChar c = true) ∧ short.toList.length ≤ lower.toList.length ∧
      shorten short = short := by
  unfold named? at h
  split at h
  all_goals
    first
    | obtain rfl := Option.some.inj h
      exact ⟨List.forall_iff_forall_mem.1 (by decide), by decide, by decide⟩
    | exact absurd h (by simp)

/-- A color with one digit for each component has no name if it has none with two. -/
theorem named?_of_digits {r g b : Char}
    (h : named? (String.ofList ['#', r, r, g, g, b, b]) = none) :
    named? (String.ofList ['#', r, g, b]) = none := by
  unfold named?
  split
  all_goals first
    | rfl
    | (rename_i he
       obtain ⟨rfl, rfl, rfl⟩ : r = _ ∧ g = _ ∧ b = _ := by simpa using congrArg String.toList he
       exact absurd h (by decide))
    | (rename_i he
       exact absurd (congrArg String.toList he) (by simp))

/-- Six digits are replaced by three if they are pairs, and else left. -/
theorem hex?_eq_some {lower short : List Char} (h : hex? lower = some short) :
    ∃ r r' g g' b b', lower = ['#', r, r', g, g', b, b'] ∧
      [r, r', g, g', b, b'].all isLowerHex = true ∧
      (short = lower ∨ r = r' ∧ g = g' ∧ b = b' ∧ short = ['#', r, g, b]) := by
  unfold hex? at h
  split at h
  · rename_i r r' g g' b b'
    split_ifs at h with hall hpairs
    · simp only [Bool.and_eq_true, decide_eq_true_iff] at hpairs
      obtain ⟨⟨hr, hg⟩, hb⟩ := hpairs
      exact ⟨r, r', g, g', b, b', rfl, hall, .inr ⟨hr, hg, hb, (Option.some.inj h).symm⟩⟩
    · exact ⟨r, r', g, g', b, b', rfl, hall, .inl (Option.some.inj h).symm⟩
  · exact absurd h (by simp)

/-- Colors in hexadecimal without a name have a short notation. -/
theorem of_hex? {lower short : List Char} (h : hex? lower = some short)
    (hn : named? (String.ofList lower) = none) :
    (∀ c ∈ short, isColorChar c = true) ∧ short.length ≤ lower.length ∧
      named? (String.ofList short) = none ∧ (hex? short = none ∨ hex? short = some short) := by
  obtain ⟨r, r', g, g', b, b', rfl, hall, rfl | ⟨rfl, rfl, rfl, rfl⟩⟩ := hex?_eq_some h
  · refine ⟨List.forall_mem_cons.2 ⟨by decide, fun c hc => ?_⟩, Nat.le_refl _, hn, .inr h⟩
    exact isColorChar_of_isLowerHex (List.all_eq_true.1 hall c hc)
  · simp only [List.all_cons, List.all_nil, Bool.and_true, Bool.and_eq_true] at hall
    refine ⟨?_, by simp, named?_of_digits hn, .inl rfl⟩
    simp only [List.forall_mem_cons, List.not_mem_nil, false_implies, implies_true, and_true]
    exact ⟨by decide, isColorChar_of_isLowerHex hall.1, isColorChar_of_isLowerHex hall.2.2.1,
      isColorChar_of_isLowerHex hall.2.2.2.2.1⟩

/-- The short notation of a color is either that of a known color, and found at once the next time,
or the color without white space around it. -/
theorem shorten_cases (color : String) :
    ((∀ c ∈ (shorten color).toList, isColorChar c = true) ∧
      (shorten color).toList.length ≤ (strip isSpace color.toList).length ∧
      shorten (shorten color) = shorten color) ∨
    ((shorten color).toList = strip isSpace color.toList ∧
      shorten (shorten color) = shorten color) := by
  generalize htrimmed : strip isSpace color.toList = trimmed
  have hlength : (String.ofList (trimmed.map lowerToAscii)).toList.length = trimmed.length := by
    rw [String.toList_ofList, List.length_map]
  cases hnamed : named? (String.ofList (trimmed.map lowerToAscii)) with
  | some short =>
    have hshort : shorten color = short := by
      rw [shorten, htrimmed]
      simp only [hnamed]
    obtain ⟨hchars, hle, hagain⟩ := of_named? hnamed
    rw [hshort]
    exact .inl ⟨hchars, hlength ▸ hle, hagain⟩
  | none =>
    cases hhex : hex? (trimmed.map lowerToAscii) with
    | some short =>
      have hshort : shorten color = String.ofList short := by
        rw [shorten, htrimmed]
        simp only [hnamed, hhex]
      obtain ⟨hchars, hle, hnone, hhex'⟩ := of_hex? hhex hnamed
      rw [hshort, String.toList_ofList]
      refine .inl ⟨hchars, by rwa [List.length_map] at hle, ?_⟩
      rw [shorten, String.toList_ofList, strip_of_isColorChar hchars,
        map_lowerToAscii_of_isColorChar hchars]
      simp only [hnone]
      rcases hhex' with hhex' | hhex' <;> simp only [hhex']
    | none =>
      have hshort : shorten color = String.ofList trimmed := by
        rw [shorten, htrimmed]
        simp only [hnamed, hhex]
      rw [hshort, String.toList_ofList]
      refine .inr ⟨rfl, ?_⟩
      rw [shorten, String.toList_ofList, ← htrimmed, strip_strip, htrimmed]
      simp only [hnamed, hhex]

theorem shorten_shorten (color : String) : shorten (shorten color) = shorten color := by
  rcases shorten_cases color with ⟨-, -, h⟩ | ⟨-, h⟩ <;> exact h

/-- No color takes more bytes in short notation. -/
theorem IsFair.weigh_shorten_le {weight : Char → Nat} (hw : IsFair weight) (color : String) :
    weigh weight (shorten color).toList ≤ weigh weight color.toList := by
  have hstrip : weigh weight (strip isSpace color.toList) ≤ weigh weight color.toList :=
    weigh_le_of_sublist (strip_sublist isSpace color.toList)
  rcases shorten_cases color with ⟨hchars, hle, -⟩ | ⟨hshort, -⟩
  · rw [hw.weigh_eq_length hchars]
    exact le_trans hle (le_trans (length_le_weigh hw.pos _) hstrip)
  · rwa [hshort]

theorem valueSize_shorten_le (color : String) : valueSize (shorten color) ≤ valueSize color :=
  isFair_escapeValueChar.weigh_shorten_le color

theorem utf8ByteSize_shorten_le (color : String) :
    (shorten color).utf8ByteSize ≤ color.utf8ByteSize := by
  rw [← weigh_utf8Size, ← weigh_utf8Size]
  exact isFair_utf8Size.weigh_shorten_le color

theorem strip_shorten (color : String) :
    strip isSpace (shorten color).toList = (shorten color).toList := by
  rcases shorten_cases color with ⟨hchars, -⟩ | ⟨hshort, -⟩
  · exact strip_of_isColorChar hchars
  · rw [hshort, strip_strip]

theorem not_mem_shorten {c : Char} {color : String} (hc : isColorChar c = false)
    (h : c ∉ color.toList) : c ∉ (shorten color).toList := by
  rcases shorten_cases color with ⟨hchars, -⟩ | ⟨hshort, -⟩
  · exact fun hm => by simp [hchars c hm] at hc
  · rw [hshort]
    exact fun hm => h ((strip_sublist isSpace _).subset hm)

/-! ## Styles -/

namespace Declaration

/-- A declaration as it is found in a style. -/
def IsTidy : Declaration → Prop
  | pair property value =>
    (strip isSpace property.toList = property.toList ∧ ':' ∉ property.toList ∧
      ';' ∉ property.toList) ∧
    strip isSpace value.toList = value.toList ∧ ';' ∉ value.toList
  | incomplete text =>
    strip isSpace text.toList = text.toList ∧ text ≠ "" ∧ ':' ∉ text.toList ∧ ';' ∉ text.toList

variable {d : Declaration} {part : List Char}

theorem toList_show_pair (property value : String) :
    (pair property value).show.toList = property.toList ++ ':' :: value.toList := by
  simp [Declaration.show]

/-- What a part of a style spells is written without some of the characters of the part. -/
theorem of_ofPart? (h : ofPart? part = some d) (hp : ';' ∉ part) :
    d.IsTidy ∧ d.show.toList.Sublist part := by
  unfold ofPart? at h
  split at h
  · rename_i property value hsplit
    obtain rfl := Option.some.inj h
    obtain ⟨rfl, hcolon⟩ := splitFirst_eq_some_iff.1 hsplit
    have hproperty := strip_sublist isSpace property
    have hvalue := strip_sublist isSpace value
    rw [List.mem_append, List.mem_cons, not_or, not_or] at hp
    refine ⟨?_, ?_⟩
    · simp only [IsTidy, String.toList_ofList, strip_strip, true_and]
      exact ⟨⟨fun hm => hcolon (hproperty.subset hm), fun hm => hp.1 (hproperty.subset hm)⟩,
        fun hm => hp.2.2 (hvalue.subset hm)⟩
    · rw [toList_show_pair, String.toList_ofList, String.toList_ofList]
      exact hproperty.append (hvalue.cons_cons ':')
  · rename_i hsplit
    have htext := strip_sublist isSpace part
    split at h
    · simp at h
    · rename_i hne
      obtain rfl := Option.some.inj h
      refine ⟨⟨?_, ?_, ?_, ?_⟩, ?_⟩
      · rw [String.toList_ofList, strip_strip]
      · exact fun he => hne (by simpa using congrArg String.toList he)
      · rw [String.toList_ofList]
        exact fun hm => splitFirst_eq_none_iff.1 hsplit (htext.subset hm)
      · rw [String.toList_ofList]
        exact fun hm => hp (htext.subset hm)
      · rw [Declaration.show, String.toList_ofList]
        exact htext

/-- What is written for a declaration is found again. -/
theorem ofPart?_show (h : d.IsTidy) : ofPart? d.show.toList = some d ∧ ';' ∉ d.show.toList := by
  cases d with
  | pair property value =>
    obtain ⟨⟨hproperty, hcolon, hsemicolon⟩, hvalue, hsemicolon'⟩ := h
    rw [toList_show_pair]
    refine ⟨?_, by simp [hsemicolon, hsemicolon']⟩
    rw [ofPart?, splitFirst_eq_some_iff.2 ⟨rfl, hcolon⟩]
    simp only [hproperty, hvalue, String.ofList_toList]
  | incomplete text =>
    obtain ⟨htext, hne, hcolon, hsemicolon⟩ := h
    refine ⟨?_, hsemicolon⟩
    rw [Declaration.show, ofPart?, splitFirst_eq_none_iff.2 hcolon]
    simp only [htext]
    split
    · rename_i hnil
      exact absurd (String.toList_eq_nil_iff.1 hnil) hne
    · rw [String.ofList_toList]

theorem isTidy_shortenColor (h : d.IsTidy) : d.shortenColor.IsTidy := by
  cases d with
  | pair property value =>
    obtain ⟨hproperty, hvalue, hsemicolon⟩ := h
    rw [shortenColor]
    split_ifs
    · exact ⟨hproperty, strip_shorten value, not_mem_shorten (by decide) hsemicolon⟩
    · exact ⟨hproperty, hvalue, hsemicolon⟩
  | incomplete text => exact h

theorem shortenColor_shortenColor (d : Declaration) :
    d.shortenColor.shortenColor = d.shortenColor := by
  cases d with
  | pair property value =>
    rw [shortenColor]
    split_ifs with hcolor
    · rw [shortenColor, if_pos hcolor, shorten_shorten]
    · rw [shortenColor, if_neg hcolor]
  | incomplete text => rfl

theorem weigh_shortenColor_le {weight : Char → Nat} (hw : IsFair weight) (d : Declaration) :
    weigh weight d.shortenColor.show.toList ≤ weigh weight d.show.toList := by
  cases d with
  | pair property value =>
    rw [shortenColor, toList_show_pair, toList_show_pair, weigh_append, weigh_append, weigh_cons,
      weigh_cons]
    have hvalue := hw.weigh_shorten_le value
    split_ifs <;> omega
  | incomplete text => exact Nat.le_refl _

end Declaration

theorem toList_showDeclarations (ds : List Declaration) :
    (showDeclarations ds).toList = [';'].intercalate (ds.map fun d => d.show.toList) := by
  rw [showDeclarations, String.toList_intercalate, List.map_map]
  rfl

/-- Declarations that are written are found again. -/
theorem declarations_showDeclarations {ds : List Declaration} (h : ∀ d ∈ ds, d.IsTidy) :
    declarations (showDeclarations ds) = ds := by
  rw [declarations, toList_showDeclarations]
  cases hds : ds with
  | nil => rfl
  | cons d rest =>
    rw [← hds, pieces_intercalate (by simp [hds]) (List.forall_mem_map.2 fun d hd =>
      (Declaration.ofPart?_show (h d hd)).2), List.filterMap_map]
    have hfound : ds.filterMap (Declaration.ofPart? ∘ fun d => d.show.toList) = ds.filterMap some :=
      List.filterMap_congr fun d hd => (Declaration.ofPart?_show (h d hd)).1
    rw [hfound, List.filterMap_some]

theorem of_mem_pieces {style : String} {part : List Char} {d : Declaration}
    (hp : part ∈ pieces ';' style.toList) (h : Declaration.ofPart? part = some d) :
    d.IsTidy ∧ d.show.toList.Sublist part :=
  Declaration.of_ofPart? h (not_mem_of_mem_pieces hp)

theorem isTidy_of_mem_declarations {style : String} {d : Declaration} (h : d ∈ declarations style) :
    d.IsTidy := by
  obtain ⟨part, hpart, hd⟩ := List.mem_filterMap.1 h
  exact (of_mem_pieces hpart hd).1

/-- Minifying a style only leaves characters out. -/
theorem minifyStyle_sublist (style : String) :
    (minifyStyle style).toList.Sublist style.toList := by
  have hshow : ∀ part ∈ pieces ';' style.toList,
      ∀ x ∈ ((Declaration.ofPart? part).filter Declaration.isNeeded).map fun d => d.show.toList,
        x.Sublist part := by
    intro part hpart x hx
    obtain ⟨d, hd, rfl⟩ := Option.map_eq_some_iff.1 hx
    exact (of_mem_pieces hpart (Option.filter_eq_some_iff.1 hd).1).2
  have hparts := intercalate_filterMap_sublist ';' hshow
  rw [intercalate_pieces] at hparts
  rw [minifyStyle, toList_showDeclarations, declarations, List.filter_filterMap,
    List.map_filterMap]
  exact hparts

/-- No style takes more bytes with its colors in short notation. -/
theorem IsFair.weigh_shortenStyleColors_le {weight : Char → Nat} (hw : IsFair weight)
    (style : String) :
    weigh weight (shortenStyleColors style).toList ≤ weigh weight style.toList := by
  have hshow : ∀ part ∈ pieces ';' style.toList,
      ∀ x ∈ (Declaration.ofPart? part).map fun d => d.shortenColor.show.toList,
        weigh weight x ≤ weigh weight part := by
    intro part hpart x hx
    obtain ⟨d, hd, rfl⟩ := Option.map_eq_some_iff.1 hx
    exact le_trans (Declaration.weigh_shortenColor_le hw d)
      (weigh_le_of_sublist (of_mem_pieces hpart hd).2)
  have hparts := weigh_intercalate_filterMap_le ';' hshow
  rw [intercalate_pieces] at hparts
  rw [shortenStyleColors, toList_showDeclarations, declarations, List.map_map, List.map_filterMap]
  exact hparts

theorem valueSize_shortenStyleColors_le (style : String) :
    valueSize (shortenStyleColors style) ≤ valueSize style :=
  isFair_escapeValueChar.weigh_shortenStyleColors_le style

theorem utf8ByteSize_shortenStyleColors_le (style : String) :
    (shortenStyleColors style).utf8ByteSize ≤ style.utf8ByteSize := by
  rw [← weigh_utf8Size, ← weigh_utf8Size]
  exact isFair_utf8Size.weigh_shortenStyleColors_le style

/-- What is written of a style without needless declarations are the declarations that it needs. -/
theorem declarations_minifyStyle (style : String) :
    declarations (minifyStyle style) = (declarations style).filter Declaration.isNeeded :=
  declarations_showDeclarations fun _ hd => isTidy_of_mem_declarations (List.mem_filter.1 hd).1

theorem declarations_shortenStyleColors (style : String) :
    declarations (shortenStyleColors style) =
      (declarations style).map Declaration.shortenColor :=
  declarations_showDeclarations <| List.forall_mem_map.2 fun _ hd =>
    Declaration.isTidy_shortenColor (isTidy_of_mem_declarations hd)

/-- Colors are shortened once and for all. -/
theorem shortenStyleColors_shortenStyleColors (style : String) :
    shortenStyleColors (shortenStyleColors style) = shortenStyleColors style := by
  rw [shortenStyleColors, declarations_shortenStyleColors, List.map_map, shortenStyleColors]
  exact congrArg showDeclarations
    (List.map_congr_left fun d _ => Declaration.shortenColor_shortenColor d)

end Css

end SvgPress
