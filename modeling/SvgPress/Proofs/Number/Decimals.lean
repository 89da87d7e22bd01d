import SvgPress.Number.Decimal
import SvgPress.Proofs.Cutting
import SvgPress.Proofs.Number.Rounding

/-!
# Decimals and the numbers they are read as

The number that a decimal is read as is decided by the value of the decimal, and the shortest
decimal of a number is read as that number. How a decimal is read from a text is told for each of
the parts that its notation can have.
-/

namespace SvgPress

open Text

/-! ## The value of a decimal -/

namespace Decimal

/-- The value of a decimal. -/
def toRat (d : Decimal) : ℚ :=
  d.digits * 10 ^ d.exponent

/-- Zeros that are moved into the exponent keep the value. -/
theorem toRat_dropZeros (bound : ℕ) (d : Decimal) : (d.dropZeros bound).toRat = d.toRat := by
  induction bound generalizing d with
  | zero => rfl
  | succ bound ih =>
    rw [dropZeros]
    split
    case isFalse => rfl
    case isTrue h =>
      have hdigits : d.digits = d.digits / 10 * 10 := by omega
      calc toRat (dropZeros bound ⟨d.digits / 10, d.exponent + 1⟩)
        _ = (d.digits / 10 : ℕ) * 10 ^ (d.exponent + 1) := ih _
        _ = ((d.digits / 10 * 10 : ℕ) : ℚ) * 10 ^ d.exponent := by
            rw [zpow_add_one₀ (by norm_num)]
            push_cast
            ring
        _ = d.toRat := by rw [← hdigits, toRat]

/-! ## Digits -/

theorem natOfDigits_eq (cs : List Char) : natOfDigits cs = Nat.ofDigitChars 10 cs 0 := by
  rw [natOfDigits, Nat.ofDigitChars_eq_foldl]
  simp only [Nat.mul_comm]

/-- The digits of a number spell it. -/
theorem natOfDigits_digitsOfNat (n : ℕ) : natOfDigits (digitsOfNat n) = n := by
  rw [natOfDigits_eq, digitsOfNat, Nat.ofDigitChars_ten_toDigits]

/-- Each zero that is appended is a factor of ten. -/
theorem natOfDigits_append_zeros (cs : List Char) (k : ℕ) :
    natOfDigits (cs ++ List.replicate k '0') = natOfDigits cs * 10 ^ k := by
  rw [natOfDigits_eq, natOfDigits_eq, Nat.ofDigitChars_append, Nat.ofDigitChars_replicate_zero,
    Nat.mul_comm]

theorem natOfDigits_zeros_append (k : ℕ) (cs : List Char) :
    natOfDigits (List.replicate k '0' ++ cs) = natOfDigits cs := by
  rw [natOfDigits_eq, natOfDigits_eq, Nat.ofDigitChars_append, Nat.ofDigitChars_replicate_zero,
    Nat.mul_zero]

theorem digitsOfNat_ne_nil (n : ℕ) : digitsOfNat n ≠ [] := Nat.toDigits_ne_nil

theorem isDigit_of_mem_digitsOfNat {n : ℕ} {c : Char} (h : c ∈ digitsOfNat n) :
    isDigit c = true := by
  have hc := Nat.isDigit_of_mem_toDigits (by norm_num) (by norm_num) h
  simp only [Char.isDigit, Bool.and_eq_true, decide_eq_true_eq] at hc
  simp only [isDigit, Bool.and_eq_true, decide_eq_true_eq]
  exact hc

end Decimal

namespace Binary64

/-! ## The number of a decimal -/

theorem two_pow_le_ten_pow (n : ℕ) : (2 : ℚ) ^ (3 * n) ≤ 10 ^ n := by
  rw [pow_mul]
  gcongr
  norm_num

theorem ten_zpow_le_two_zpow (n : ℕ) : (10 : ℚ) ^ (-n : ℤ) ≤ 2 ^ (-(3 * n) : ℤ) := by
  have h := inv_anti₀ (by positivity) (two_pow_le_ten_pow n)
  rw [zpow_neg, zpow_neg]
  exact_mod_cast h

/-- The quotient that a decimal is read through has the decimal's value. -/
theorem quotient_eq_toRat (d : Decimal) :
    ((d.digits * 10 ^ d.exponent.toNat : ℕ) : ℚ) / ((10 ^ (-d.exponent).toNat : ℕ) : ℚ) =
      d.toRat := by
  rw [Decimal.toRat, ← pow_toNat_div_pow_toNat]
  push_cast
  ring

/-- The bounds beyond which no quotient is computed change nothing. -/
theorem ofDecimal_eq (negative : Bool) (d : Decimal) :
    ofDecimal negative d =
      roundQuotient negative (d.digits * 10 ^ d.exponent.toNat) (10 ^ (-d.exponent).toNat) := by
  have hden : 10 ^ (-d.exponent).toNat ≠ 0 := by positivity
  unfold ofDecimal
  simp only [Nat.pow_eq]
  split_ifs with hzero hlarge hsmall
  · rw [hzero, Nat.zero_mul, roundQuotient_zero]
  · -- The value is at least `10 ^ 401`.
    refine (roundQuotient_of_large hden ?_).symm
    have hone : (1 : ℚ) ≤ d.digits := by exact_mod_cast Nat.one_le_iff_ne_zero.2 hzero
    rw [quotient_eq_toRat, Decimal.toRat]
    calc (2 : ℚ) ^ (1024 : ℤ)
      _ ≤ 2 ^ (3 * 342) := by
          rw [← zpow_natCast]
          exact zpow_le_zpow_right₀ (by norm_num) (by norm_num)
      _ ≤ 10 ^ 342 := two_pow_le_ten_pow 342
      _ ≤ 10 ^ d.exponent := by
          rw [← zpow_natCast]
          exact zpow_le_zpow_right₀ (by norm_num) (by push_cast; omega)
      _ ≤ d.digits * 10 ^ d.exponent := le_mul_of_one_le_left (by positivity) hone
  · -- The digits are fewer than the places that the exponent takes away.
    refine (roundQuotient_of_small hden ?_).symm
    obtain ⟨k, hk⟩ := Int.exists_eq_neg_ofNat (by omega : d.exponent ≤ 0)
    have hdigits : (d.digits : ℚ) < 2 ^ (d.digits.log2 + 1) := by
      exact_mod_cast Nat.lt_log2_self (n := d.digits)
    rw [quotient_eq_toRat, Decimal.toRat, hk]
    calc (d.digits : ℚ) * 10 ^ (-k : ℤ)
      _ < 2 ^ (d.digits.log2 + 1) * 10 ^ (-k : ℤ) := by gcongr
      _ ≤ 2 ^ (d.digits.log2 + 1) * 2 ^ (-(3 * k) : ℤ) := by
          gcongr
          exact ten_zpow_le_two_zpow k
      _ = 2 ^ ((d.digits.log2 + 1 : ℕ) - 3 * k : ℤ) := by
          rw [← zpow_natCast, ← zpow_add₀ (by norm_num), sub_eq_add_neg]
      _ ≤ 2 ^ (-1075 : ℤ) := zpow_le_zpow_right₀ (by norm_num) (by push_cast; omega)
  · rfl

/-- Decimals of one value are read as one number. -/
theorem ofDecimal_congr {negative : Bool} {d d' : Decimal} (h : d.toRat = d'.toRat) :
    ofDecimal negative d = ofDecimal negative d' := by
  rw [ofDecimal_eq, ofDecimal_eq]
  refine roundQuotient_congr (by positivity) (by positivity) ?_
  rw [quotient_eq_toRat, quotient_eq_toRat, h]

/-- A decimal whose value is a number of the format is read as that number. -/
theorem ofDecimal_of_eq {negative : Bool} {d : Decimal} {s : ℕ} {e : ℤ} (hs : s ≠ 0)
    (hx : IsCanonical (finite negative s e)) (h : d.toRat = s * 2 ^ e) :
    ofDecimal negative d = finite negative s e := by
  rw [ofDecimal_eq]
  exact roundQuotient_of_eq (by positivity) hs hx (by rw [quotient_eq_toRat, h])

theorem ofDecimal_sign {negative : Bool} {d : Decimal} {s : ℕ} {e : ℤ}
    (h : ofDecimal negative d = finite negative s e) (other : Bool) :
    ofDecimal other d = finite other s e := by
  rw [ofDecimal_eq] at h ⊢
  exact roundQuotient_sign h other

theorem isCanonical_ofDecimal (negative : Bool) (d : Decimal) :
    IsCanonical (ofDecimal negative d) := by
  rw [ofDecimal_eq]
  exact isCanonical_roundQuotient _ _ (by positivity)

/-! ## The shortest decimal of a number -/

/-- A candidate that is checked to read back reads back. -/
theorem ofDecimal_of_readsBackAt {tie : Tie} {s : ℕ} {e unit : ℤ} {d : Decimal}
    (h : readsBackAt tie s e unit = some d) : ofDecimal false d = finite false s e := by
  have htried : ∀ c : ℕ × ℕ,
      (if ofDecimal false ⟨c.1, unit⟩ == finite false s e then some (⟨c.1, unit⟩ : Decimal)
        else if ofDecimal false ⟨c.2, unit⟩ == finite false s e then some ⟨c.2, unit⟩
        else none) = some d → ofDecimal false d = finite false s e := by
    intro c h
    split_ifs at h with hfirst hsecond
    · exact Option.some.inj h ▸ eq_of_beq hfirst
    · exact Option.some.inj h ▸ eq_of_beq hsecond
  exact htried _ h

theorem toRat_exactDecimal (s : ℕ) (e : ℤ) : (exactDecimal s e).toRat = s * 2 ^ e := by
  unfold exactDecimal
  simp only [Nat.pow_eq]
  split
  case isTrue he =>
    lift e to ℕ using he
    simp [Decimal.toRat]
  case isFalse he =>
    obtain ⟨k, rfl⟩ := Int.exists_eq_neg_ofNat (by omega : e ≤ 0)
    have hten : (10 : ℚ) ^ k = 5 ^ k * 2 ^ k := by rw [← mul_pow]; norm_num
    simp only [Decimal.toRat, neg_neg, Int.toNat_natCast, Nat.cast_mul, Nat.cast_pow,
      Nat.cast_ofNat, zpow_neg, zpow_natCast, hten]
    field_simp

/-- The shortest decimal of a number is read as the number. -/
theorem ofDecimal_shortest {negative : Bool} {s : ℕ} {e : ℤ} (tie : Tie) (hs : s ≠ 0)
    (hx : IsCanonical (finite negative s e)) :
    ofDecimal negative (shortest tie s e) = finite negative s e := by
  unfold shortest
  simp only
  rw [ofDecimal_congr (Decimal.toRat_dropZeros 20 _)]
  generalize hfound : (List.range 17).findSome? (fun n => readsBackAt tie s e _) = found
  cases found with
  | none => exact ofDecimal_of_eq hs hx (toRat_exactDecimal s e)
  | some d =>
    obtain ⟨n, -, hd⟩ := List.exists_of_findSome?_eq_some hfound
    exact ofDecimal_sign (ofDecimal_of_readsBackAt hd) negative

/-! ## The parts of a notation -/

section Reading

variable {whole part digits rest : List Char}

theorem takeDecimal_whole (hw : ∀ c ∈ whole, isDigit c = true) (hne : whole ≠ [])
    (hr : ∀ c ∈ rest.head?, isDigit c = false ∧ c ≠ '.') :
    takeDecimal (whole ++ rest) = some (⟨Decimal.natOfDigits whole, 0⟩, rest) := by
  have hspan : (whole ++ rest).span isDigit = (whole, rest) :=
    span_append hw fun c hc => (hr c hc).1
  unfold takeDecimal
  simp only [hspan]
  cases rest with
  | nil => simp [hne]
  | cons c rest =>
    have hpoint : c ≠ '.' := (hr c rfl).2
    simp [hne, hpoint]

/-- A whole part, a point and a fraction are read as their digits in one, with as many places as the
fraction has. -/
theorem takeDecimal_point (hw : ∀ c ∈ whole, isDigit c = true)
    (hp : ∀ c ∈ part, isDigit c = true) (hne : whole ++ part ≠ [])
    (hr : ∀ c ∈ rest.head?, isDigit c = false) :
    takeDecimal (whole ++ '.' :: part ++ rest) =
      some (⟨Decimal.natOfDigits (whole ++ part), -(part.length : ℤ)⟩, rest) := by
  have hwhole : (whole ++ '.' :: (part ++ rest)).span isDigit = (whole, '.' :: (part ++ rest)) :=
    span_append hw fun c hc => by
      obtain rfl := Option.some.inj hc
      rfl
  have hpart : (part ++ rest).span isDigit = (part, rest) := span_append hp hr
  have hsome : (whole.isEmpty && part.isEmpty) = false := by
    simpa [Bool.and_eq_false_iff, List.isEmpty_eq_false_iff, ← not_and_or] using hne
  rw [List.append_assoc, List.cons_append]
  unfold takeDecimal
  simp only [hwhole, hpart, hsome]
  rfl

theorem takeExponent_none (hr : ∀ c ∈ rest.head?, c ≠ 'e' ∧ c ≠ 'E') :
    takeExponent rest = (0, rest) := by
  cases rest with
  | nil => rfl
  | cons c rest =>
    obtain ⟨he, hE⟩ := hr c rfl
    simp [takeExponent, he, hE]

theorem takeSign_cons {c : Char} (hminus : c ≠ '-') (hplus : c ≠ '+') :
    takeSign (c :: rest) = (false, c :: rest) := by
  rw [takeSign]
  · rintro _ heq
    exact hminus (List.cons.inj heq).1
  · rintro _ heq
    exact hplus (List.cons.inj heq).1

theorem takeSign_digits (h : ∀ c ∈ digits, isDigit c = true) (hne : digits ≠ []) :
    takeSign (digits ++ rest) = (false, digits ++ rest) := by
  obtain ⟨c, digits, rfl⟩ := List.exists_cons_of_ne_nil hne
  have hc : isDigit c = true := h c List.mem_cons_self
  refine takeSign_cons ?_ ?_
  · rintro rfl
    exact absurd hc (by decide)
  · rintro rfl
    exact absurd hc (by decide)

/-- An exponent is read as the number that is written, up to what is no digit. -/
theorem takeExponent_digits (n : ℤ) (hr : ∀ c ∈ rest.head?, isDigit c = false) :
    takeExponent ('e' :: (if n < 0 then ['-'] else []) ++ Decimal.digitsOfNat n.natAbs ++ rest) =
      (n, rest) := by
  have hdigits : ∀ c ∈ Decimal.digitsOfNat n.natAbs, isDigit c = true := fun c hc =>
    Decimal.isDigit_of_mem_digitsOfNat hc
  have hne := Decimal.digitsOfNat_ne_nil n.natAbs
  have hsign : takeSign ((if n < 0 then ['-'] else []) ++ Decimal.digitsOfNat n.natAbs ++ rest) =
      (decide (n < 0), Decimal.digitsOfNat n.natAbs ++ rest) := by
    by_cases hn : n < 0
    · rw [if_pos hn, decide_eq_true hn]
      rfl
    · rw [if_neg hn, decide_eq_false hn, List.nil_append, takeSign_digits hdigits hne]
  have hspan : (Decimal.digitsOfNat n.natAbs ++ rest).span isDigit =
      (Decimal.digitsOfNat n.natAbs, rest) := span_append hdigits hr
  have hvalue : (if n < 0 then -(n.natAbs : ℤ) else n.natAbs) = n := by
    split <;> omega
  rw [List.cons_append, List.cons_append]
  unfold takeExponent
  simp only [hsign, hspan, List.isEmpty_eq_false_iff.2 hne, Decimal.natOfDigits_digitsOfNat,
    decide_eq_true_eq, hvalue]
  rfl

end Reading

/-- A number is read as a sign, a decimal and an exponent, one after the other. -/
theorem take_eq_some_iff {cs rest : List Char} {x : Binary64} :
    take cs = some (x, rest) ↔
      ∃ d mid exponent, takeDecimal (takeSign cs).2 = some (d, mid) ∧
        takeExponent mid = (exponent, rest) ∧
          ofDecimal (takeSign cs).1 ⟨d.digits, d.exponent + exponent⟩ = x := by
  unfold take
  simp only [Option.map_eq_some_iff, Prod.exists, Prod.mk.injEq]
  constructor
  · rintro ⟨d, mid, hd, hx, hr⟩
    exact ⟨d, mid, (takeExponent mid).1, hd, Prod.ext rfl hr, hx⟩
  · rintro ⟨d, mid, exponent, hd, he, hx⟩
    exact ⟨d, mid, hd, by rw [he]; exact hx, by rw [he]⟩

theorem isCanonical_of_take {cs rest : List Char} {x : Binary64} (h : take cs = some (x, rest)) :
    IsCanonical x := by
  obtain ⟨d, mid, exponent, -, -, rfl⟩ := take_eq_some_iff.1 h
  exact isCanonical_ofDecimal _ _

end Binary64

end SvgPress
