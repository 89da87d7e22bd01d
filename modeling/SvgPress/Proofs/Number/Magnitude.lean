import SvgPress.Proofs.Number.Nearest

/-!
# Arithmetic on magnitudes

A product and a quotient of numbers are the exact ones of their magnitudes, rounded. Natural numbers
below `2 ^ 53` and powers of ten up to `10 ^ 22` are numbers of the format, so they are not rounded.
-/

namespace SvgPress.Binary64

variable {q : ℚ} {x y : Binary64} {negative : Bool} {num den : ℕ}

/-! ## What is not rounded -/

/-- A number of at most 53 bits times a power of two is a number of the format. -/
theorem isRepresentable_mul {t : ℕ} {j : ℤ} (ht : t ≠ 0) (h : t < 2 ^ 53) (hj : -1022 ≤ j)
    (hj' : j ≤ 971) : IsRepresentable (t * 2 ^ j) := by
  have hlow := Nat.log2_self_le ht
  have hhigh := Nat.lt_log2_self (n := t)
  have hlog : t.log2 < 53 := (Nat.log2_lt ht).2 h
  -- The significand is shifted until it has 53 bits.
  obtain ⟨k, hk⟩ := Nat.exists_eq_add_of_le (Nat.lt_succ_iff.1 hlog)
  refine ⟨t * 2 ^ k, j - k, ⟨?_, .inl ?_, by omega, by omega⟩, ?_⟩
  · calc t * 2 ^ k
      _ < 2 ^ (t.log2 + 1) * 2 ^ k := by gcongr
      _ = 2 ^ 53 := by rw [← pow_add]; congr 1; omega
  · calc 2 ^ 52
      _ = 2 ^ t.log2 * 2 ^ k := by rw [← pow_add, ← hk]
      _ ≤ t * 2 ^ k := by gcongr
  · push_cast
    rw [zpow_sub₀ (by norm_num), zpow_natCast]
    field_simp

theorem isRepresentable_natCast {n : ℕ} (hn : n ≠ 0) (h : n < 2 ^ 53) : IsRepresentable n := by
  have hmul := isRepresentable_mul hn h (j := 0) (by norm_num) (by norm_num)
  rwa [zpow_zero, mul_one] at hmul

/-- Powers of ten up to `10 ^ 22` are numbers of the format: without its factors of two, such a
power is below `2 ^ 53`. -/
theorem isRepresentable_ten_pow {n : ℕ} (h : n ≤ 22) : IsRepresentable (10 ^ n) := by
  have hfive : 5 ^ n < 2 ^ 53 := (Nat.pow_le_pow_right (by norm_num) h).trans_lt (by norm_num)
  have hmul := isRepresentable_mul (t := 5 ^ n) (j := n) (by positivity) hfive (by omega) (by omega)
  have hten : (10 : ℚ) ^ n = 5 ^ n * 2 ^ n := by rw [← mul_pow]; norm_num
  rw [zpow_natCast, Nat.cast_pow, Nat.cast_ofNat, ← hten] at hmul
  exact hmul

/-! ## Magnitudes -/

/-- The absolute value of a finite number. -/
def magnitude : Binary64 → ℚ
  | finite _ s e => s * 2 ^ e
  | _ => 0

theorem magnitude_nonneg (x : Binary64) : 0 ≤ x.magnitude := by
  cases x with
  | finite _ s e => exact mul_nonneg (Nat.cast_nonneg s) (by positivity)
  | infinite => exact le_rfl
  | nan => exact le_rfl

/-- The magnitude of a rounded quotient is the point nearest to the exact one. -/
theorem magnitude_roundQuotient (hd : den ≠ 0)
    (h : (roundQuotient negative num den).isFinite = true) :
    (roundQuotient negative num den).magnitude = nearestPoint (num / den) := by
  rcases eq_or_ne num 0 with rfl | hn
  · rw [roundQuotient_zero, Nat.cast_zero, zero_div, nearestPoint_zero]
    simp [magnitude]
  · have hsign := negative_roundQuotient negative num den
    cases hround : roundQuotient negative num den with
    | finite sign s e =>
      rw [hround] at hsign
      obtain rfl := hsign
      exact (nearestPoint_eq (by positivity) ((roundQuotient_eq_finite_iff hd).1 hround)).symm
    | infinite => rw [hround] at h; exact absurd h Bool.false_ne_true
    | nan => rw [hround] at h; exact absurd h Bool.false_ne_true

/-- A quotient is rounded to a finite number if the point nearest to it is in the range of the
format. -/
theorem isFinite_roundQuotient (hd : den ≠ 0)
    (h : nearestPoint (num / den : ℚ) < 2 ^ (1024 : ℤ)) :
    (roundQuotient negative num den).isFinite = true := by
  rcases eq_or_ne num 0 with rfl | hn
  · rfl
  · have hpos : (0 : ℚ) < num / den := by positivity
    obtain ⟨s, e, hnearest, -⟩ := exists_of_isFinite hpos (isFinite_nearest hpos h)
    rw [(roundQuotient_eq_finite_iff hd).2 hnearest]
    rfl

theorem isFinite_of_mul (h : (x.mul y).isFinite = true) : x.isFinite = true := by
  cases x with
  | finite => rfl
  | infinite =>
    cases y <;> simp only [mul] at h
    case finite => split at h <;> exact absurd h Bool.false_ne_true
    all_goals exact absurd h Bool.false_ne_true
  | nan => exact absurd h Bool.false_ne_true

/-- A finite product has the magnitude of the exact product, rounded. -/
theorem magnitude_mul (hx : x.isFinite = true) (hy : y.isFinite = true)
    (h : (x.mul y).isFinite = true) :
    (x.mul y).magnitude = nearestPoint (x.magnitude * y.magnitude) := by
  cases x <;> cases y <;> simp only [isFinite, Bool.false_eq_true] at hx hy
  case finite.finite a m p b n q =>
    simp only [mul, Nat.pow_eq] at h ⊢
    rw [magnitude_roundQuotient (by positivity) h]
    congr 1
    have hpow := pow_toNat_div_pow_toNat 2 (p + q)
    simp only [magnitude]
    push_cast
    rw [mul_div_assoc, hpow, zpow_add₀ (by norm_num)]
    ring

theorem magnitude_div (hx : x.isFinite = true) (hy : y.magnitude ≠ 0)
    (h : (x.div y).isFinite = true) :
    (x.div y).magnitude = nearestPoint (x.magnitude / y.magnitude) := by
  cases x <;> cases y <;> simp only [isFinite, magnitude, Bool.false_eq_true, ne_eq,
    not_true_eq_false] at hx hy
  case finite.finite a m p b n q =>
    have hn : n ≠ 0 := by
      rintro rfl
      simp at hy
    simp only [div, hn, if_false, Nat.pow_eq] at h ⊢
    rw [magnitude_roundQuotient (by positivity) h]
    congr 1
    have hpow := pow_toNat_div_pow_toNat 2 (p - q)
    simp only [magnitude]
    push_cast
    rw [mul_div_mul_comm, hpow, zpow_sub₀ (by norm_num), mul_div_mul_comm]

/-- A decimal is read as the point nearest to it. -/
theorem magnitude_ofDecimal {d : Decimal} (h : (ofDecimal negative d).isFinite = true) :
    (ofDecimal negative d).magnitude = nearestPoint d.toRat := by
  rw [ofDecimal_eq] at h ⊢
  rw [magnitude_roundQuotient (by positivity) h, quotient_eq_toRat]

/-! ## The nearest integer -/

/-- The integer nearest to a quotient is off by one half at most. -/
theorem abs_divideAway_sub_le (num : ℕ) (hd : 0 < den) :
    |(divideAway num den : ℚ) - num / den| ≤ 1 / 2 := by
  have hpos : (0 : ℚ) < den := by exact_mod_cast hd
  have hlow : divideAway num den * (2 * den) ≤ 2 * num + den := Nat.div_mul_le_self _ _
  have hhigh : 2 * num + den < (divideAway num den + 1) * (2 * den) :=
    Nat.lt_mul_of_div_lt (Nat.lt_succ_self _) (by omega)
  have hlow' : (divideAway num den * (2 * den) : ℚ) ≤ 2 * num + den := by exact_mod_cast hlow
  have hhigh' : (2 * num + den : ℚ) < (divideAway num den + 1) * (2 * den) := by
    exact_mod_cast hhigh
  generalize (divideAway num den : ℚ) = k at *
  rw [abs_le]
  constructor
  · have hle : (num : ℚ) / den ≤ k + 1 / 2 := by
      rw [div_le_iff₀ hpos]
      linarith
    linarith
  · have hge : k - 1 / 2 ≤ (num : ℚ) / den := by
      rw [le_div_iff₀ hpos]
      linarith
    linarith

/-- A natural number that is not too large is not rounded. -/
theorem nearestPoint_natCast {n : ℕ} (h : n < 2 ^ 53) : nearestPoint n = n := by
  rcases eq_or_ne n 0 with rfl | hn
  · exact_mod_cast nearestPoint_zero
  · exact (isRepresentable_natCast hn h).nearestPoint_eq

/-- A number that is not too large is rounded to an integer that is off by one half at most. -/
theorem round_eq (h : x.isFinite = true) (hsmall : x.magnitude < 2 ^ 52) :
    ∃ r : ℕ, |r - x.magnitude| ≤ 1 / 2 ∧ x.round.isFinite = true ∧ x.round.magnitude = r := by
  cases x with
  | infinite => exact absurd h Bool.false_ne_true
  | nan => exact absurd h Bool.false_ne_true
  | finite negative s e =>
    have hden : 0 < (quotient s e).2 := by simp [quotient]
    have herror := abs_divideAway_sub_le (quotient s e).1 hden
    rw [quotient_eq] at herror
    have hround : (finite negative s e).round =
        roundQuotient negative (divideAway (quotient s e).1 (quotient s e).2) 1 := rfl
    rw [hround]
    generalize divideAway (quotient s e).1 (quotient s e).2 = r at *
    have hr : r < 2 ^ 53 := by
      have hle := (abs_le.1 herror).2
      have hlt : (r : ℚ) < 2 ^ 53 := by
        simp only [magnitude] at hsmall
        linarith
      exact_mod_cast hlt
    have hpoint : nearestPoint ((r : ℚ) / (1 : ℕ)) = r := by
      rw [Nat.cast_one, div_one, nearestPoint_natCast hr]
    have hfinite : (roundQuotient negative r 1).isFinite = true := by
      refine isFinite_roundQuotient one_ne_zero ?_
      rw [hpoint]
      calc (r : ℚ)
        _ < 2 ^ (53 : ℤ) := by exact_mod_cast hr
        _ ≤ 2 ^ (1024 : ℤ) := zpow_le_zpow_right₀ (by norm_num) (by norm_num)
    exact ⟨r, herror, hfinite, (magnitude_roundQuotient one_ne_zero hfinite).trans hpoint⟩

/-! ## Powers of ten -/

theorem tenTo_eq {places : ℕ} (h : places ≤ 22) : tenTo places = ofNat (10 ^ places) := by
  have hall : ∀ n < 23, tenTo n = ofNat (10 ^ n) := by decide +kernel
  exact hall places (by omega)

theorem magnitude_tenTo {places : ℕ} (h : places ≤ 22) :
    (tenTo places).isFinite = true ∧ (tenTo places).magnitude = 10 ^ places := by
  have hpoint : nearestPoint (((10 ^ places : ℕ) : ℚ) / (1 : ℕ)) = 10 ^ places := by
    rw [Nat.cast_one, div_one, Nat.cast_pow, Nat.cast_ofNat]
    exact (isRepresentable_ten_pow h).nearestPoint_eq
  have hfinite : (ofNat (10 ^ places)).isFinite = true := by
    refine isFinite_roundQuotient one_ne_zero ?_
    rw [hpoint]
    calc (10 : ℚ) ^ places
      _ ≤ 10 ^ 22 := pow_le_pow_right₀ (by norm_num) h
      _ < 2 ^ (74 : ℤ) := by norm_num
      _ ≤ 2 ^ (1024 : ℤ) := zpow_le_zpow_right₀ (by norm_num) (by norm_num)
  rw [tenTo_eq h]
  exact ⟨hfinite, (magnitude_roundQuotient one_ne_zero hfinite).trans hpoint⟩

/-! ## Comparison -/

/-- The comparison with a limit compares magnitudes. -/
theorem isBelow_eq_true_iff {limit : ℕ} :
    x.isBelow limit = true ↔ x.isFinite = true ∧ x.magnitude < limit := by
  cases x with
  | infinite => simp [isBelow, isFinite]
  | nan => simp [isBelow, isFinite]
  | finite negative s e =>
    have hden : (0 : ℚ) < (quotient s e).2 := by simp [quotient]
    have hvalue := quotient_eq s e
    simp only [isBelow, decide_eq_true_eq, isFinite, true_and, magnitude]
    rw [← hvalue, div_lt_iff₀ hden]
    exact_mod_cast Iff.rfl

end SvgPress.Binary64
