import SvgPress.Path.Printer
import SvgPress.Proofs.Number.Decimals

/-!
# The notation of a number

The notation of a number is read as the number, whatever follows it that cannot continue a number.
It begins with a sign, a digit or a point, and it ends with a digit. Only a number with a minus is
written with one.
-/

namespace SvgPress.Path

open Text Binary64

/-! ## What ends a number -/

/-- A number ends where a text begins. -/
def EndsNumber (rest : List Char) : Prop :=
  ∀ c ∈ rest.head?, isNumeric c = false ∧ c ≠ 'e' ∧ c ≠ 'E'

theorem endsNumber_nil : EndsNumber [] := nofun

theorem isDigit_eq_false_of_isNumeric {c : Char} (h : isNumeric c = false) :
    isDigit c = false ∧ c ≠ '.' := by
  simpa [isNumeric] using h

theorem isNumeric_of_isDigit {c : Char} (h : isDigit c = true) : isNumeric c = true := by
  simp [isNumeric, h]

/-! ## What a text spells -/

/-- Digits, perhaps with a point, as the reader takes them in front of what is no part of them. -/
def IsMantissa (text : List Char) (d : Decimal) : Prop :=
  ∀ rest, (∀ c ∈ rest.head?, isNumeric c = false) → takeDecimal (text ++ rest) = some (d, rest)

/-- A text is read as a decimal of the value of `d` where a number ends after it. -/
def Spells (text : List Char) (d : Decimal) : Prop :=
  ∀ rest, EndsNumber rest →
    ∃ d' mid exponent, takeDecimal (text ++ rest) = some (d', mid) ∧
      takeExponent mid = (exponent, rest) ∧
        (⟨d'.digits, d'.exponent + exponent⟩ : Decimal).toRat = d.toRat

section Parts

variable {whole part text : List Char} {d d' : Decimal}

theorem isMantissa_whole (hw : ∀ c ∈ whole, isDigit c = true) (hne : whole ≠ []) :
    IsMantissa whole ⟨Decimal.natOfDigits whole, 0⟩ := fun _ hr =>
  takeDecimal_whole hw hne fun c hc => isDigit_eq_false_of_isNumeric (hr c hc)

theorem isMantissa_point (hw : ∀ c ∈ whole, isDigit c = true) (hp : ∀ c ∈ part, isDigit c = true)
    (hne : whole ++ part ≠ []) :
    IsMantissa (whole ++ '.' :: part)
      ⟨Decimal.natOfDigits (whole ++ part), -(part.length : ℤ)⟩ := fun _ hr =>
  takeDecimal_point hw hp hne fun c hc => (isDigit_eq_false_of_isNumeric (hr c hc)).1

theorem IsMantissa.spells (h : IsMantissa text d) : Spells text d := by
  intro rest hr
  have hdecimal := h rest fun c hc => (hr c hc).1
  have hexponent : takeExponent rest = (0, rest) := takeExponent_none fun c hc => (hr c hc).2
  exact ⟨d, rest, 0, hdecimal, hexponent, by rw [add_zero]⟩

theorem IsMantissa.spells_exponent (h : IsMantissa text d) (n : ℤ) :
    Spells (text ++ 'e' :: (if n < 0 then ['-'] else []) ++ Decimal.digitsOfNat n.natAbs)
      ⟨d.digits, d.exponent + n⟩ := by
  intro rest hr
  have hdecimal := h ('e' :: (if n < 0 then ['-'] else []) ++ Decimal.digitsOfNat n.natAbs ++ rest)
    fun c hc => by
      obtain rfl := Option.some.inj hc
      rfl
  have hexponent := takeExponent_digits n fun c hc => (isDigit_eq_false_of_isNumeric (hr c hc).1).1
  refine ⟨d, _, n, ?_, hexponent, rfl⟩
  rw [← hdecimal]
  simp only [List.append_assoc, List.cons_append]

theorem Spells.congr (h : Spells text d) (hd : d.toRat = d'.toRat) : Spells text d' := by
  intro rest hr
  obtain ⟨e, mid, exponent, hdecimal, hexponent, hvalue⟩ := h rest hr
  exact ⟨e, mid, exponent, hdecimal, hexponent, hvalue.trans hd⟩

/-- A spelled number is read with the sign before it. -/
theorem Spells.take_eq {c : Char} (h : Spells (c :: text) d) (hc : isNumeric c = true)
    (negative : Bool) {rest : List Char} (hr : EndsNumber rest) :
    take ((if negative then ['-'] else []) ++ c :: text ++ rest) =
      some (ofDecimal negative d, rest) := by
  obtain ⟨d', mid, exponent, hdecimal, hexponent, hvalue⟩ := h rest hr
  have hsign : takeSign ((if negative then ['-'] else []) ++ c :: text ++ rest) =
      (negative, c :: text ++ rest) := by
    cases negative with
    | true => rfl
    | false =>
      refine takeSign_cons ?_ ?_
      · rintro rfl
        exact absurd hc (by decide)
      · rintro rfl
        exact absurd hc (by decide)
  refine take_eq_some_iff.2 ⟨d', mid, exponent, ?_, hexponent, ?_⟩
  · rw [hsign]
    exact hdecimal
  · rw [hsign]
    exact ofDecimal_congr hvalue

end Parts

/-! ## The notation of a decimal -/

theorem isDigit_of_mem_zeros {k : ℕ} {c : Char} (h : c ∈ List.replicate k '0') :
    isDigit c = true := by
  rw [List.eq_of_mem_replicate h]
  rfl

section Layout

variable {digits : List Char}

/-- Of an integer with zeros at its end another decimal of the same value is read. -/
theorem spells_integer (h : ∀ c ∈ digits, isDigit c = true) (hne : digits ≠ []) (k : ℕ) :
    Spells (digits ++ List.replicate k '0') ⟨Decimal.natOfDigits digits, k⟩ := by
  have hall : ∀ c ∈ digits ++ List.replicate k '0', isDigit c = true := fun c hc =>
    (List.mem_append.1 hc).elim (h c) isDigit_of_mem_zeros
  refine (isMantissa_whole hall (by simp [hne])).spells.congr ?_
  rw [Decimal.natOfDigits_append_zeros, Decimal.toRat, Decimal.toRat]
  simp

theorem spells_point (h : ∀ c ∈ digits, isDigit c = true) (hne : digits ≠ []) (k : ℕ) :
    Spells (digits.take k ++ '.' :: digits.drop k)
      ⟨Decimal.natOfDigits digits, -((digits.length - k : ℕ) : ℤ)⟩ := by
  have hmantissa := isMantissa_point (fun c hc => h c (List.mem_of_mem_take hc))
    (fun c hc => h c (List.mem_of_mem_drop hc)) (by rwa [List.take_append_drop k])
  rw [List.take_append_drop, List.length_drop] at hmantissa
  exact hmantissa.spells

theorem spells_leading (h : ∀ c ∈ digits, isDigit c = true) (hne : digits ≠ []) (k : ℕ) :
    Spells ('.' :: List.replicate k '0' ++ digits)
      ⟨Decimal.natOfDigits digits, -((k + digits.length : ℕ) : ℤ)⟩ := by
  have hall : ∀ c ∈ List.replicate k '0' ++ digits, isDigit c = true := fun c hc =>
    (List.mem_append.1 hc).elim isDigit_of_mem_zeros (h c)
  have hnone : ∀ c ∈ ([] : List Char), isDigit c = true := nofun
  have hmantissa := isMantissa_point hnone hall (by simp [hne])
  rw [List.nil_append, List.nil_append, Decimal.natOfDigits_zeros_append, List.length_append,
    List.length_replicate] at hmantissa
  exact hmantissa.spells

/-- A single digit before an exponent has no point after it. -/
theorem spells_scientific (h : ∀ c ∈ digits, isDigit c = true) (hne : digits ≠ []) (n : ℤ) :
    Spells (digits.take 1 ++
        (match digits.tail with
          | [] => []
          | fraction => '.' :: fraction) ++
        'e' :: (if n < 0 then ['-'] else []) ++ Decimal.digitsOfNat n.natAbs)
      ⟨Decimal.natOfDigits digits, -((digits.length - 1 : ℕ) : ℤ) + n⟩ := by
  obtain ⟨first, others, rfl⟩ := List.exists_cons_of_ne_nil hne
  have hfirst : ∀ c ∈ [first], isDigit c = true := fun c hc =>
    List.mem_singleton.1 hc ▸ h first List.mem_cons_self
  cases others with
  | nil => exact (isMantissa_whole hfirst (by simp)).spells_exponent n
  | cons second others =>
    have hothers : ∀ c ∈ second :: others, isDigit c = true := fun c hc =>
      h c (List.mem_cons_of_mem _ hc)
    exact (isMantissa_point hfirst hothers (by simp)).spells_exponent n

end Layout

/-- The notation of a decimal spells it. -/
theorem spells_layout (d : Decimal) : Spells (layout d) d := by
  have hdigits : ∀ c ∈ Decimal.digitsOfNat d.digits, isDigit c = true := fun c hc =>
    Decimal.isDigit_of_mem_digitsOfNat hc
  have hne := Decimal.digitsOfNat_ne_nil d.digits
  have hlength := List.length_pos_iff.2 hne
  have hsame : ∀ {text : List Char} {exponent : ℤ}, exponent = d.exponent →
      Spells text ⟨Decimal.natOfDigits (Decimal.digitsOfNat d.digits), exponent⟩ →
        Spells text d := by
    rintro text _ rfl h
    rwa [Decimal.natOfDigits_digitsOfNat] at h
  unfold layout
  simp only [Bool.and_eq_true, decide_eq_true_eq]
  split
  case isTrue hinteger => exact hsame (by omega) (spells_integer hdigits hne _)
  case isFalse hinteger =>
    split
    case isTrue hpoint => exact hsame (by omega) (spells_point hdigits hne _)
    case isFalse hpoint =>
      split
      case isTrue hleading => exact hsame (by omega) (spells_leading hdigits hne _)
      case isFalse => exact hsame (by omega) (spells_scientific hdigits hne _)

theorem any_getLast?_append {digits : List Char} (h : ∀ c ∈ digits, isDigit c = true)
    (hne : digits ≠ []) (front : List Char) :
    (front ++ digits).getLast?.any isNumeric = true := by
  rw [List.getLast?_append_of_ne_nil front hne, List.getLast?_eq_some_getLast hne]
  exact isNumeric_of_isDigit (h _ (List.getLast_mem hne))

/-- The notation of a decimal begins and ends with a digit or a point. -/
theorem layout_ends (d : Decimal) :
    (layout d).head?.any isNumeric = true ∧ (layout d).getLast?.any isNumeric = true := by
  have hdigits : ∀ {n : ℕ}, ∀ c ∈ Decimal.digitsOfNat n, isDigit c = true := fun c hc =>
    Decimal.isDigit_of_mem_digitsOfNat hc
  have hne := Decimal.digitsOfNat_ne_nil d.digits
  obtain ⟨first, others, hfirst⟩ := List.exists_cons_of_ne_nil hne
  have hnumeric : isNumeric first = true :=
    isNumeric_of_isDigit (hdigits first (hfirst ▸ List.mem_cons_self))
  unfold layout
  simp only [Bool.and_eq_true, decide_eq_true_eq]
  split
  case isTrue hinteger =>
    have hall : ∀ c ∈ Decimal.digitsOfNat d.digits ++ List.replicate d.exponent.toNat '0',
        isDigit c = true := fun c hc => (List.mem_append.1 hc).elim (hdigits c) isDigit_of_mem_zeros
    exact ⟨by simp [hfirst, hnumeric], any_getLast?_append hall (by simp [hne]) []⟩
  case isFalse hinteger =>
    split
    case isTrue hpoint =>
      generalize hplaces :
        ((Decimal.digitsOfNat d.digits).length + d.exponent).toNat = places
      have hdrop : (Decimal.digitsOfNat d.digits).drop places ≠ [] := by
        rw [← List.length_pos_iff, List.length_drop]
        omega
      obtain ⟨places, rfl⟩ := Nat.exists_eq_succ_of_ne_zero (by omega : places ≠ 0)
      refine ⟨by simp [hfirst, hnumeric], ?_⟩
      rw [List.append_cons]
      exact any_getLast?_append (fun c hc => hdigits c (List.mem_of_mem_drop hc)) hdrop _
    case isFalse hpoint =>
      split
      case isTrue hleading => exact ⟨rfl, any_getLast?_append hdigits hne _⟩
      case isFalse =>
        exact ⟨by simp [hfirst, hnumeric],
          any_getLast?_append hdigits (Decimal.digitsOfNat_ne_nil _) _⟩

/-! ## The notation of a number -/

/-- The number that is written for a number: the rounded one, without a sign where it is zero. -/
def noted (places : ℕ) (x : Binary64) : Binary64 :=
  match roundTo places x with
  | finite negative significand exponent =>
    if significand = 0 then finite false 0 (-1074) else finite negative significand exponent
  | _ => finite false 0 (-1074)

theorem isFinite_noted (places : ℕ) (x : Binary64) : (noted places x).isFinite = true := by
  unfold noted
  split
  · split <;> rfl
  · rfl

theorem isCanonical_roundTo {x : Binary64} (hx : IsCanonical x) (places : ℕ) :
    IsCanonical (roundTo places x) := by
  unfold roundTo
  simp only
  split
  · exact isCanonical_div _ _
  · exact hx

theorem spells_zero : Spells ['0'] ⟨0, 0⟩ :=
  have hdigit : ∀ c ∈ ['0'], isDigit c = true := List.forall_mem_singleton.2 rfl
  spells_integer hdigit (by simp) 0

/-- The notation of a number is read as the number, rounded. -/
theorem take_formatNumber {x : Binary64} (hx : IsCanonical x) (places : ℕ) {rest : List Char}
    (hr : EndsNumber rest) :
    take (formatNumber places x ++ rest) = some (noted places x, rest) := by
  have hzero : take (['0'] ++ rest) = some (finite false 0 (-1074), rest) :=
    spells_zero.take_eq rfl false hr
  have hcanonical := isCanonical_roundTo hx places
  unfold formatNumber noted
  generalize roundTo places x = y at hcanonical ⊢
  cases y with
  | infinite => exact hzero
  | nan => exact hzero
  | finite negative s e =>
    simp only
    split
    case isTrue => exact hzero
    case isFalse hs =>
      have hspells := spells_layout (shortest .toEven s e)
      have hhead := (layout_ends (shortest .toEven s e)).1
      cases hlayout : layout (shortest .toEven s e) with
      | nil => simp [hlayout] at hhead
      | cons c text =>
        rw [hlayout] at hspells hhead
        have htake := hspells.take_eq hhead negative hr
        rw [ofDecimal_shortest .toEven hs hcanonical] at htake
        cases negative <;> exact htake

theorem ofString?_formatNumber {x : Binary64} (hx : IsCanonical x) (places : ℕ) :
    ofString? (String.ofList (formatNumber places x)) = some (noted places x) := by
  have htake := take_formatNumber hx places endsNumber_nil
  rw [List.append_nil] at htake
  unfold ofString?
  rw [String.toList_ofList, htake]

/-- The notation of a number begins with a digit, a point or a minus, and it ends with a digit. -/
theorem formatNumber_ends (places : ℕ) (x : Binary64) :
    (formatNumber places x).head?.any (fun c => isNumeric c || c == '-') = true ∧
      (formatNumber places x).getLast?.any isNumeric = true := by
  unfold formatNumber
  split
  case h_2 => exact ⟨rfl, rfl⟩
  case h_1 negative s e _ =>
    split
    case isTrue => exact ⟨rfl, rfl⟩
    case isFalse =>
      obtain ⟨hhead, hlast⟩ := layout_ends (shortest .toEven s e)
      cases hlayout : layout (shortest .toEven s e) with
      | nil => simp [hlayout] at hhead
      | cons c text =>
        rw [hlayout] at hhead hlast
        cases negative with
        | false => exact ⟨Bool.or_eq_true_iff.2 (.inl hhead), hlast⟩
        | true => exact ⟨rfl, by simpa using hlast⟩

/-! ## Signs -/

theorem negative_roundTo {x : Binary64} (hx : x.negative = false) (places : ℕ) :
    (roundTo places x).negative = false := by
  unfold roundTo
  simp only
  split
  · refine negative_div ?_ (negative_tenTo places)
    rw [negative_round, negative_mul hx (negative_tenTo places)]
  · exact hx

/-- A minus is written only where there was one. -/
theorem formatNumber_sign (places : ℕ) (x : Binary64) :
    (formatNumber places x).head?.any isNumeric = true ∨
      x.negative = true ∧ ∃ text, formatNumber places x = '-' :: text := by
  unfold formatNumber
  split
  case h_2 => exact .inl rfl
  case h_1 negative s e hround =>
    split
    case isTrue => exact .inl rfl
    case isFalse =>
      obtain ⟨hhead, -⟩ := layout_ends (shortest .toEven s e)
      cases negative with
      | false =>
        rw [if_neg Bool.false_ne_true]
        exact .inl hhead
      | true =>
        rw [if_pos rfl]
        refine .inr ⟨?_, _, rfl⟩
        by_contra hx
        have hfalse := negative_roundTo (Bool.not_eq_true _ ▸ hx) places
        rw [hround] at hfalse
        exact Bool.false_ne_true hfalse.symm

/-! ## Bytes -/

theorem utf8Size_of_isDigit {c : Char} (h : isDigit c = true) : c.utf8Size = 1 := by
  simp only [isDigit, Bool.and_eq_true, decide_eq_true_eq] at h
  have hval : c.val.toNat ≤ 57 := UInt32.le_iff_toNat_le.1 h.2
  have hone : c.val ≤ 0x7F := UInt32.le_iff_toNat_le.2 (hval.trans (by decide))
  simp [Char.utf8Size, hone]

theorem utf8Size_of_mem_layout (d : Decimal) : ∀ c ∈ layout d, c.utf8Size = 1 := by
  have hall : ∀ n, ∀ c ∈ Decimal.digitsOfNat n, c.utf8Size = 1 := fun n c hc =>
    utf8Size_of_isDigit (Decimal.isDigit_of_mem_digitsOfNat hc)
  have hzeros : ∀ k, ∀ c ∈ List.replicate k '0', c.utf8Size = 1 := fun k c hc =>
    utf8Size_of_isDigit (isDigit_of_mem_zeros hc)
  have hdigits := hall d.digits
  unfold layout
  generalize Decimal.digitsOfNat d.digits = digits at hdigits
  simp only
  split
  · exact List.forall_mem_append.2 ⟨hdigits, hzeros _⟩
  split
  · exact List.forall_mem_append.2 ⟨fun c hc => hdigits c (List.mem_of_mem_take hc),
      List.forall_mem_cons.2 ⟨rfl, fun c hc => hdigits c (List.mem_of_mem_drop hc)⟩⟩
  split
  · exact List.forall_mem_append.2 ⟨List.forall_mem_cons.2 ⟨rfl, hzeros _⟩, hdigits⟩
  · have hfirst : ∀ c ∈ digits.take 1, c.utf8Size = 1 := fun c hc =>
      hdigits c (List.mem_of_mem_take hc)
    refine List.forall_mem_append.2 ⟨List.forall_mem_append.2 ⟨List.forall_mem_append.2
      ⟨hfirst, ?fraction⟩, List.forall_mem_cons.2 ⟨rfl, ?sign⟩⟩, hall _⟩
    case fraction =>
      split
      · exact List.forall_mem_nil _
      · exact List.forall_mem_cons.2 ⟨rfl, fun c hc => hdigits c (List.mem_of_mem_tail hc)⟩
    case sign =>
      split
      · exact List.forall_mem_singleton.2 rfl
      · exact List.forall_mem_nil _

theorem utf8Size_of_mem_formatNumber (places : ℕ) (x : Binary64) :
    ∀ c ∈ formatNumber places x, c.utf8Size = 1 := by
  have hzero : ∀ c ∈ ['0'], c.utf8Size = 1 := List.forall_mem_singleton.2 rfl
  unfold formatNumber
  split
  case h_2 => exact hzero
  case h_1 negative s e _ =>
    have hlayout := utf8Size_of_mem_layout (shortest .toEven s e)
    split
    · exact hzero
    · split
      · exact List.forall_mem_cons.2 ⟨rfl, hlayout⟩
      · exact hlayout

end SvgPress.Path
