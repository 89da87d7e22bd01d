import SvgPress.Proofs.Css.Shortening

/-!
# What colors mean

A value in hexadecimal or with the name of a basic color means a mixture of red, green and blue; any
other value means only itself. Padding around a value does not count, nor does the case of letters
of ASCII. A short notation keeps what a value means, except where the value begins or ends with a
space that is no padding, or is spelled with the Kelvin sign in the place of a letter.
-/

namespace SvgPress.Css

open Text

/-! ## Meanings -/

/-- The white space that may stand around a value. -/
def isPadding (c : Char) : Bool :=
  c == ' ' || c == '\t' || c == '\n' || c == '\r' || c == '\x0c'

/-- A mixture of red, green and blue, with up to 255 parts of each. -/
structure Mixture where
  red : Nat
  green : Nat
  blue : Nat
deriving DecidableEq

/-- What a value means. -/
inductive Meaning where
  /-- A color. -/
  | color (m : Mixture)
  /-- The text of the value, without the padding around it. -/
  | itself (text : List Char)
deriving DecidableEq

/-- The color of a name. -/
def basic? : String → Option Mixture
  | "white" => some ⟨255, 255, 255⟩
  | "black" => some ⟨0, 0, 0⟩
  | "red" => some ⟨255, 0, 0⟩
  | "blue" => some ⟨0, 0, 255⟩
  | _ => none

/-- The value of a hexadecimal digit in lower case. -/
def digit? (c : Char) : Option Nat :=
  if isDigit c then some (c.toNat - '0'.toNat)
  else if 'a' ≤ c && c ≤ 'f' then some (c.toNat - 'a'.toNat + 10)
  else none

/-- The number that two hexadecimal digits stand for. -/
def component? (high low : Char) : Option Nat := do
  return 16 * (← digit? high) + (← digit? low)

/-- The color with two hexadecimal digits for each component. -/
def rgb? (r r' g g' b b' : Char) : Option Mixture := do
  return ⟨← component? r r', ← component? g g', ← component? b b'⟩

/-- The color of hexadecimal digits in lower case; one digit for a component counts twice. -/
def hexadecimal? : List Char → Option Mixture
  | ['#', r, g, b] => rgb? r r g g b b
  | ['#', r, r', g, g', b, b'] => rgb? r r' g g' b b'
  | _ => none

/-- The color of a text in lower case. -/
def mixture? (text : List Char) : Option Mixture :=
  (basic? (String.ofList text)).or (hexadecimal? text)

/-- What a value means, in letters of either case and with padding around it. -/
def meaning (value : String) : Meaning :=
  let text := strip isPadding value.toList
  match mixture? (lowerAscii text) with
  | some m => .color m
  | none => .itself text

variable {c high low : Char} {cs ds : List Char} {value short : String} {m : Mixture} {n : Nat}

theorem meaning_of_mixture? (h : mixture? (lowerAscii (strip isPadding value.toList)) = some m) :
    meaning value = .color m := by
  rw [meaning]
  simp only [h]

theorem meaning_of_none (h : mixture? (lowerAscii (strip isPadding value.toList)) = none) :
    meaning value = .itself (strip isPadding value.toList) := by
  rw [meaning]
  simp only [h]

/-! ## Characters of colors -/

theorem isSpace_of_isPadding (h : isPadding c = true) : isSpace c = true := by
  simp only [isPadding, Bool.or_eq_true, beq_iff_eq] at h
  rcases h with (((rfl | rfl) | rfl) | rfl) | rfl <;> decide

/-- Only capitals of ASCII have another lower case. -/
theorem toNat_of_toLower_ne (h : c.toLower ≠ c) :
    65 ≤ c.toNat ∧ c.toNat ≤ 90 ∧ c.toLower.toNat ≤ 122 := by
  have hupper : c.val ≥ 'A'.val ∧ c.val ≤ 'Z'.val := by
    by_contra hnot
    exact h (dif_neg hnot)
  have hlow : 65 ≤ c.toNat := hupper.1
  have hhigh : c.toNat ≤ 90 := hupper.2
  have hlower : c.toLower.toNat = (c.val + ('a'.val - 'A'.val)).toNat :=
    congrArg Char.toNat (dif_pos hupper)
  have hsum : (c.val + ('a'.val - 'A'.val)).toNat = (c.toNat + 32) % 2 ^ 32 :=
    UInt32.toNat_add _ _
  exact ⟨hlow, hhigh, by omega⟩

theorem toLower_of_isSpace (h : isSpace c = true) : c.toLower = c := by
  by_contra hne
  obtain ⟨hlow, hhigh, -⟩ := toNat_of_toLower_ne hne
  simp only [isSpace, Bool.or_eq_true, Bool.and_eq_true, decide_eq_true_iff, beq_iff_eq] at h
  omega

theorem toLower_eq_kelvin_iff : c.toLower = '\u212A' ↔ c = '\u212A' := by
  refine ⟨fun h => ?_, fun h => by rw [h]; decide⟩
  by_contra hne
  have hle := (toNat_of_toLower_ne (h.trans_ne (Ne.symm hne))).2.2
  rw [h] at hle
  exact absurd hle (by decide)

theorem lowerToAscii_of_ne (h : c ≠ '\u212A') : lowerToAscii c = c.toLower := by
  rw [lowerToAscii, if_neg h]

/-- The case of the Kelvin sign is the only one that is not compared as that of ASCII. -/
theorem map_lowerToAscii_of_not_mem (h : '\u212A' ∉ cs) : cs.map lowerToAscii = lowerAscii cs := by
  refine List.map_congr_left fun c hc => lowerToAscii_of_ne ?_
  rintro rfl
  exact h hc

theorem lowerAscii_of_isColorChar (h : ∀ c ∈ cs, isColorChar c = true) : lowerAscii cs = cs := by
  have hkelvin : '\u212A' ∉ cs := fun hm => absurd (h _ hm) (by decide)
  rw [← map_lowerToAscii_of_not_mem hkelvin, map_lowerToAscii_of_isColorChar h]

theorem isLowerHex_iff : isLowerHex c = true ↔ ∃ n, digit? c = some n := by
  rw [isLowerHex, digit?, Bool.or_eq_true]
  split_ifs with hd ha
  · simp [hd]
  · simp [ha]
  · simp [hd, ha]

theorem exists_component?_iff :
    (∃ n, component? high low = some n) ↔ isLowerHex high = true ∧ isLowerHex low = true := by
  rw [component?, isLowerHex_iff, isLowerHex_iff]
  cases digit? high <;> cases digit? low <;> simp

/-- A color has hexadecimal digits, and digits make a color. -/
theorem exists_rgb?_iff {r r' g g' b b' : Char} :
    (∃ m, rgb? r r' g g' b b' = some m) ↔ [r, r', g, g', b, b'].all isLowerHex = true := by
  have hcomponents : [r, r', g, g', b, b'].all isLowerHex = true ↔
      (∃ n, component? r r' = some n) ∧ (∃ n, component? g g' = some n) ∧
        ∃ n, component? b b' = some n := by
    simp only [exists_component?_iff, List.all_cons, List.all_nil, Bool.and_true, Bool.and_eq_true]
    tauto
  rw [hcomponents, rgb?]
  cases component? r r' <;> cases component? g g' <;> cases component? b b' <;> simp

theorem mixture?_hash (cs : List Char) : mixture? ('#' :: cs) = hexadecimal? ('#' :: cs) := by
  have hnone : basic? (String.ofList ('#' :: cs)) = none := by
    unfold basic?
    split
    all_goals first
      | rfl
      | (rename_i he
         exact absurd (congrArg String.toList he) (by simp))
  rw [mixture?, hnone, Option.none_or]

theorem isColorChar_of_basic? (h : basic? value = some m) :
    ∀ c ∈ value.toList, isColorChar c = true := by
  unfold basic? at h
  split at h
  all_goals first
    | exact List.forall_iff_forall_mem.1 (by decide)
    | exact absurd h (by simp)

theorem of_hexadecimal? (h : hexadecimal? cs = some m) :
    ∀ c ∈ cs, c = '#' ∨ isLowerHex c = true := by
  unfold hexadecimal? at h
  split at h
  · rename_i r g b
    have hall := List.all_eq_true.1 (exists_rgb?_iff.1 ⟨m, h⟩)
    intro c hc
    refine (List.mem_cons.1 hc).imp_right fun hc => hall c ?_
    simp only [List.mem_cons, List.not_mem_nil, or_false] at hc ⊢
    tauto
  · have hall := List.all_eq_true.1 (exists_rgb?_iff.1 ⟨m, h⟩)
    exact fun c hc => (List.mem_cons.1 hc).imp_right (hall c)
  · exact absurd h (by simp)

theorem isColorChar_of_mixture? (h : mixture? cs = some m) : ∀ c ∈ cs, isColorChar c = true := by
  rcases Option.or_eq_some_iff.1 h with h | ⟨-, h⟩
  · simpa using isColorChar_of_basic? h
  · intro c hc
    rcases of_hexadecimal? h c hc with rfl | hhex
    · decide
    · exact isColorChar_of_isLowerHex hhex

/-- No color but black has the letter for which the Kelvin sign is taken. -/
theorem eq_black_of_mixture? (h : mixture? cs = some m) (hk : 'k' ∈ cs) :
    cs = ['b', 'l', 'a', 'c', 'k'] := by
  rcases Option.or_eq_some_iff.1 h with h | ⟨-, h⟩
  · unfold basic? at h
    split at h
    all_goals first
      | (rename_i he
         obtain rfl : cs = _ := by simpa using congrArg String.toList he
         revert hk
         decide)
      | exact absurd h (by simp)
  · rcases of_hexadecimal? h 'k' hk with hk | hk
    · exact absurd hk (by decide)
    · exact absurd hk (by decide)

/-- No color is spelled with the Kelvin sign. -/
theorem mixture?_lowerAscii_of_kelvin (h : '\u212A' ∈ cs) : mixture? (lowerAscii cs) = none := by
  refine Option.eq_none_iff_forall_ne_some.2 fun m hm => ?_
  have hmem : '\u212A' ∈ lowerAscii cs := List.mem_map.2 ⟨_, h, rfl⟩
  exact absurd (isColorChar_of_mixture? hm _ hmem) (by decide)

/-- The name of a color that is spelled with the Kelvin sign. -/
def kelvinBlack : List Char :=
  ['b', 'l', 'a', 'c', '\u212A']

theorem toLower_eq_iff {d : Char} (hd : d ≠ '\u212A') :
    c.toLower = d ↔ c ≠ '\u212A' ∧ lowerToAscii c = d := by
  by_cases hc : c = '\u212A'
  · subst hc
    exact iff_of_false (fun h => hd (h.symm.trans (toLower_eq_kelvin_iff.2 rfl))) fun h => h.1 rfl
  · rw [lowerToAscii_of_ne hc]
    exact (and_iff_right hc).symm

theorem lowerAscii_eq_kelvinBlack_iff : lowerAscii cs = kelvinBlack ↔
    '\u212A' ∈ cs ∧ cs.map lowerToAscii = ['b', 'l', 'a', 'c', 'k'] := by
  constructor
  · intro h
    obtain ⟨b, _, rfl, hb, h⟩ := List.map_eq_cons_iff.1 h
    obtain ⟨l, _, rfl, hl, h⟩ := List.map_eq_cons_iff.1 h
    obtain ⟨a, _, rfl, ha, h⟩ := List.map_eq_cons_iff.1 h
    obtain ⟨c, _, rfl, hc, h⟩ := List.map_eq_cons_iff.1 h
    obtain ⟨k, _, rfl, hk, h⟩ := List.map_eq_cons_iff.1 h
    obtain rfl := List.map_eq_nil_iff.1 h
    obtain rfl := toLower_eq_kelvin_iff.1 hk
    rw [toLower_eq_iff (by decide)] at hb hl ha hc
    refine ⟨by simp, ?_⟩
    simp only [List.map_cons, List.map_nil, hb.2, hl.2, ha.2, hc.2]
    decide
  · rintro ⟨hmem, h⟩
    obtain ⟨b, _, rfl, hb, h⟩ := List.map_eq_cons_iff.1 h
    obtain ⟨l, _, rfl, hl, h⟩ := List.map_eq_cons_iff.1 h
    obtain ⟨a, _, rfl, ha, h⟩ := List.map_eq_cons_iff.1 h
    obtain ⟨c, _, rfl, hc, h⟩ := List.map_eq_cons_iff.1 h
    obtain ⟨k, _, rfl, hk, h⟩ := List.map_eq_cons_iff.1 h
    obtain rfl := List.map_eq_nil_iff.1 h
    -- Only the last letter of `black` is one for which the sign is taken.
    have hne : ∀ {x d : Char}, d ≠ 'k' → lowerToAscii x = d → x ≠ '\u212A' := by
      rintro x d hd rfl rfl
      exact hd (by decide)
    have hb' := hne (by decide) hb
    have hl' := hne (by decide) hl
    have ha' := hne (by decide) ha
    have hc' := hne (by decide) hc
    obtain rfl : '\u212A' = k := by
      simpa [hb'.symm, hl'.symm, ha'.symm, hc'.symm] using hmem
    rw [lowerToAscii_of_ne hb'] at hb
    rw [lowerToAscii_of_ne hl'] at hl
    rw [lowerToAscii_of_ne ha'] at ha
    rw [lowerToAscii_of_ne hc'] at hc
    simp only [lowerAscii, List.map_cons, List.map_nil, hb, hl, ha, hc]
    decide

/-! ## Short notations -/

theorem mixture?_of_named? (h : named? (String.ofList cs) = some short) :
    ∃ m, mixture? cs = some m ∧ mixture? short.toList = some m := by
  unfold named? at h
  split at h
  all_goals first
    | (rename_i he
       obtain rfl := Option.some.inj h
       obtain rfl : cs = _ := by simpa using congrArg String.toList he
       exact ⟨_, rfl, rfl⟩)
    | exact absurd h (by simp)

theorem mixture?_of_hex? (h : hex? cs = some ds) :
    ∃ m, mixture? cs = some m ∧ mixture? ds = some m := by
  obtain ⟨r, r', g, g', b, b', rfl, hall, hshort⟩ := hex?_eq_some h
  obtain ⟨m, hm⟩ := exists_rgb?_iff.2 hall
  obtain rfl | ⟨rfl, rfl, rfl, rfl⟩ := hshort <;>
    exact ⟨m, (mixture?_hash _).trans hm, (mixture?_hash _).trans hm⟩

/-- The short notation of a color has a meaning of its own, or it is the text that was there,
without the white space around it. -/
theorem shorten_cases_mixture? (value : String) :
    (∃ m, mixture? ((strip isSpace value.toList).map lowerToAscii) = some m ∧
      mixture? (shorten value).toList = some m) ∨
    (shorten value).toList = strip isSpace value.toList ∧
      named? (String.ofList ((strip isSpace value.toList).map lowerToAscii)) = none := by
  generalize htrimmed : strip isSpace value.toList = trimmed
  rw [shorten, htrimmed]
  cases hnamed : named? (String.ofList (trimmed.map lowerToAscii)) with
  | some short => exact .inl (mixture?_of_named? hnamed)
  | none =>
    cases hhex : hex? (trimmed.map lowerToAscii) with
    | some short =>
      obtain ⟨m, hlower, hshort⟩ := mixture?_of_hex? hhex
      exact .inl ⟨m, hlower, by rwa [String.toList_ofList]⟩
    | none => exact .inr ⟨String.toList_ofList, rfl⟩

/-! ## What short notations mean -/

theorem strip_isPadding_shorten (value : String) :
    strip isPadding (shorten value).toList = (shorten value).toList :=
  strip_eq_self_of_imp (fun _ => isSpace_of_isPadding) (strip_shorten value)

theorem meaning_shorten_of_mixture? (h : mixture? (shorten value).toList = some m) :
    meaning (shorten value) = .color m := by
  refine meaning_of_mixture? ?_
  rw [strip_isPadding_shorten, lowerAscii_of_isColorChar (isColorChar_of_mixture? h), h]

/-- A color has no white space in it, so no more can be trimmed of it than padding. -/
theorem strip_isSpace_of_mixture?
    (h : mixture? (lowerAscii (strip isPadding value.toList)) = some m) :
    strip isSpace value.toList = strip isPadding value.toList := by
  rw [← strip_strip_of_imp (fun _ => isSpace_of_isPadding) value.toList]
  refine strip_eq_self fun c hc => Bool.eq_false_iff.2 fun hspace => ?_
  have hcolor := isColorChar_of_mixture? h c.toLower (List.mem_map_of_mem hc)
  rw [toLower_of_isSpace hspace] at hcolor
  rw [not_isSpace_of_isColorChar hcolor] at hspace
  exact Bool.false_ne_true hspace

/-- Trimming takes more than padding off a value that means something else afterwards. -/
theorem strip_eq_of_meaning (h : meaning (shorten value) = meaning value) :
    strip isSpace value.toList = strip isPadding value.toList := by
  cases hm : mixture? (lowerAscii (strip isPadding value.toList)) with
  | some m => exact strip_isSpace_of_mixture? hm
  | none =>
    rw [meaning_of_none hm] at h
    have hsame : (shorten value).toList = strip isPadding value.toList := by
      cases hshort : mixture? (lowerAscii (strip isPadding (shorten value).toList)) with
      | some m =>
        rw [meaning_of_mixture? hshort] at h
        exact absurd h (by simp)
      | none =>
        rw [meaning_of_none hshort, strip_isPadding_shorten] at h
        exact Meaning.itself.inj h
    rw [← hsame, ← strip_shorten, hsame, strip_strip_of_imp fun _ => isSpace_of_isPadding]

/-- The short notation of a value means the same exactly if the value has no other white space
around it than padding and is not black with the Kelvin sign. It takes no more bytes, and it is its
own short notation. -/
theorem meaning_shorten_iff (value : String) :
    (meaning (shorten value) = meaning value ↔
      strip isSpace value.toList = strip isPadding value.toList ∧
        lowerAscii (strip isPadding value.toList) ≠ kelvinBlack) ∧
    (shorten value).utf8ByteSize ≤ value.utf8ByteSize ∧
    shorten (shorten value) = shorten value := by
  refine ⟨⟨fun h => ?_, fun ⟨htrimmed, hne⟩ => ?_⟩, utf8ByteSize_shorten_le value,
    shorten_shorten value⟩
  · have htrimmed := strip_eq_of_meaning h
    refine ⟨htrimmed, fun hblack => ?_⟩
    obtain ⟨hkelvin, hlower⟩ := lowerAscii_eq_kelvinBlack_iff.1 hblack
    rw [meaning_of_none (mixture?_lowerAscii_of_kelvin hkelvin)] at h
    rcases shorten_cases_mixture? value with ⟨m, -, hm⟩ | ⟨-, hnone⟩
    · rw [meaning_shorten_of_mixture? hm] at h
      exact absurd h (by simp)
    · rw [htrimmed, hlower] at hnone
      exact absurd hnone (by decide)
  · rcases shorten_cases_mixture? value with ⟨m, hlower, hm⟩ | ⟨hshort, -⟩
    · rw [htrimmed] at hlower
      have hkelvin : '\u212A' ∉ strip isPadding value.toList := by
        intro hmem
        have hk : 'k' ∈ (strip isPadding value.toList).map lowerToAscii :=
          List.mem_map.2 ⟨_, hmem, by decide⟩
        exact hne (lowerAscii_eq_kelvinBlack_iff.2 ⟨hmem, eq_black_of_mixture? hlower hk⟩)
      rw [map_lowerToAscii_of_not_mem hkelvin] at hlower
      rw [meaning_shorten_of_mixture? hm, meaning_of_mixture? hlower]
    · rw [meaning, meaning, strip_isPadding_shorten, hshort, htrimmed]

/-- Red with a no-break space in front, and black with the Kelvin sign, become colors. -/
theorem meaning_shorten_ne :
    meaning (shorten "\u00A0red") ≠ meaning "\u00A0red" ∧
      meaning (shorten "blac\u212A") ≠ meaning "blac\u212A" := by
  decide

end SvgPress.Css
