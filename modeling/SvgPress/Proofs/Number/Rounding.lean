import SvgPress.Number.Binary64
import Mathlib.Algebra.Order.Field.Power
import Mathlib.Data.Int.Log
import Mathlib.Data.Rat.Floor
import Mathlib.Tactic.FieldSimp
import Mathlib.Tactic.Linarith
import Mathlib.Tactic.NormNum
import Mathlib.Tactic.Positivity
import Mathlib.Tactic.Ring

/-!
# Rounding

What rounding a quotient gives is decided by the value of the quotient alone, not by the numbers
that spell it. It is a number in the one form that the format has for it, and a quotient that is a
number of the format is rounded to itself.
-/

namespace SvgPress.Binary64

/-! ## Powers with a signed exponent -/

/-- The two powers of a base by which the parts of a quotient are multiplied, of which one is
always one. -/
theorem pow_toNat_div_pow_toNat (b : ℚ) (e : ℤ) :
    b ^ e.toNat / b ^ (-e).toNat = b ^ e := by
  rcases le_total 0 e with he | he
  · lift e to ℕ using he
    simp
  · obtain ⟨n, rfl⟩ := Int.exists_eq_neg_ofNat he
    simp

/-- A quotient counted in units of a power. -/
theorem scaled_eq (b num den : ℕ) (e : ℤ) :
    ((num * b ^ (-e).toNat : ℕ) : ℚ) / ((den * b ^ e.toNat : ℕ) : ℚ) = num / den / (b : ℚ) ^ e := by
  have h := pow_toNat_div_pow_toNat b e
  push_cast
  rw [← h, div_div_eq_mul_div, div_mul_eq_mul_div, div_div]

/-- The quotient of a number has the number's value. -/
theorem quotient_eq (s : ℕ) (e : ℤ) :
    ((quotient s e).1 : ℚ) / (quotient s e).2 = s * 2 ^ e := by
  rw [← pow_toNat_div_pow_toNat 2 e]
  simp only [quotient, Nat.pow_eq]
  push_cast
  exact mul_div_assoc _ _ _

theorem scaled_le_iff {num den : ℕ} (hd : den ≠ 0) (e : ℤ) (k : ℕ) :
    num * 2 ^ (-e).toNat ≤ k * (den * 2 ^ e.toNat) ↔ (num / den : ℚ) ≤ k * 2 ^ e := by
  have hden : (0 : ℚ) < ((den * 2 ^ e.toNat : ℕ) : ℚ) := by positivity
  rw [← Nat.cast_le (α := ℚ), Nat.cast_mul k, ← div_le_iff₀ hden, scaled_eq, Nat.cast_ofNat,
    div_le_iff₀ (by positivity)]

theorem le_scaled_iff {num den : ℕ} (hd : den ≠ 0) (e : ℤ) (k : ℕ) :
    k * (den * 2 ^ e.toNat) ≤ num * 2 ^ (-e).toNat ↔ (k * 2 ^ e : ℚ) ≤ num / den := by
  have hden : (0 : ℚ) < ((den * 2 ^ e.toNat : ℕ) : ℚ) := by positivity
  rw [← Nat.cast_le (α := ℚ), Nat.cast_mul k, ← le_div_iff₀ hden, scaled_eq, Nat.cast_ofNat,
    le_div_iff₀ (by positivity)]

/-! ## The nearest integer -/

theorem divideToEven_mul_left {k : ℕ} (hk : 0 < k) (num den : ℕ) :
    divideToEven (k * num) (k * den) = divideToEven num den := by
  have hquot : k * num / (k * den) = num / den := Nat.mul_div_mul_left num den hk
  have htwice : 2 * (k * num % (k * den)) = k * (2 * (num % den)) := by
    rw [Nat.mul_mod_mul_left]
    ring
  have hlt : k * (2 * (num % den)) < k * den ↔ 2 * (num % den) < den := Nat.mul_lt_mul_left hk
  have heq : k * (2 * (num % den)) = k * den ↔ 2 * (num % den) = den := Nat.mul_right_inj hk.ne'
  unfold divideToEven
  simp only [hquot, htwice, Bool.or_eq_true, Bool.and_eq_true, decide_eq_true_eq, beq_iff_eq, hlt,
    heq]

theorem divideToEven_congr {num den num' den' : ℕ} (hd : 0 < den) (hd' : 0 < den')
    (h : num * den' = num' * den) : divideToEven num den = divideToEven num' den' :=
  calc divideToEven num den
    _ = divideToEven (den' * num) (den' * den) := (divideToEven_mul_left hd' num den).symm
    _ = divideToEven (den * num') (den * den') := by
        rw [Nat.mul_comm den' num, h, Nat.mul_comm num' den, Nat.mul_comm den' den]
    _ = divideToEven num' den' := divideToEven_mul_left hd num' den'

theorem divideToEven_bounds (num den : ℕ) :
    num / den ≤ divideToEven num den ∧ divideToEven num den ≤ num / den + 1 := by
  unfold divideToEven
  simp only
  split <;> omega

theorem le_divideToEven {num den k : ℕ} (hd : 0 < den) (h : k * den ≤ num) :
    k ≤ divideToEven num den :=
  ((Nat.le_div_iff_mul_le hd).2 h).trans (divideToEven_bounds num den).1

theorem divideToEven_mul_self {den : ℕ} (hd : 0 < den) (k : ℕ) :
    divideToEven (k * den) den = k := by
  simp [divideToEven, Nat.mul_div_cancel k hd, hd]

theorem divideToEven_le {num den k : ℕ} (hd : 0 < den) (h : num ≤ k * den) :
    divideToEven num den ≤ k := by
  rcases h.eq_or_lt with rfl | hlt
  · exact (divideToEven_mul_self hd k).le
  · have hquot : num / den < k := (Nat.div_lt_iff_lt_mul hd).2 hlt
    exact (divideToEven_bounds num den).2.trans hquot

theorem divideToEven_eq_zero {num den : ℕ} (h : 2 * num < den) : divideToEven num den = 0 := by
  have hlt : num < den := by omega
  simp [divideToEven, Nat.div_eq_of_lt hlt, Nat.mod_eq_of_lt hlt, h]

/-! ## The binary logarithm of a quotient -/

theorem div_bounds_of_log2 {num den : ℕ} (hn : num ≠ 0) (hd : den ≠ 0) :
    (2 : ℚ) ^ ((num.log2 : ℤ) - den.log2 - 1) < num / den ∧
      (num / den : ℚ) < 2 ^ ((num.log2 : ℤ) - den.log2 + 1) := by
  have hn₁ : (2 : ℚ) ^ num.log2 ≤ num := by exact_mod_cast Nat.log2_self_le hn
  have hn₂ : (num : ℚ) < 2 ^ (num.log2 + 1) := by exact_mod_cast Nat.lt_log2_self (n := num)
  have hd₁ : (2 : ℚ) ^ den.log2 ≤ den := by exact_mod_cast Nat.log2_self_le hd
  have hd₂ : (den : ℚ) < 2 ^ (den.log2 + 1) := by exact_mod_cast Nat.lt_log2_self (n := den)
  have hpos : (0 : ℚ) < den := by exact_mod_cast Nat.pos_of_ne_zero hd
  constructor
  · rw [lt_div_iff₀ hpos]
    calc (2 : ℚ) ^ ((num.log2 : ℤ) - den.log2 - 1) * den
      _ < 2 ^ ((num.log2 : ℤ) - den.log2 - 1) * 2 ^ (den.log2 + 1) := by gcongr
      _ = 2 ^ num.log2 := by
          rw [← zpow_natCast (2 : ℚ) (den.log2 + 1), ← zpow_add₀ (by norm_num), ← zpow_natCast]
          congr 1
          push_cast
          ring
      _ ≤ num := hn₁
  · rw [div_lt_iff₀ hpos]
    calc (num : ℚ)
      _ < 2 ^ (num.log2 + 1) := hn₂
      _ = 2 ^ ((num.log2 : ℤ) - den.log2 + 1) * 2 ^ den.log2 := by
          rw [← zpow_natCast (2 : ℚ) den.log2, ← zpow_add₀ (by norm_num), ← zpow_natCast]
          congr 1
          push_cast
          ring
      _ ≤ 2 ^ ((num.log2 : ℤ) - den.log2 + 1) * den := by gcongr

/-- The guess from the lengths of the two numbers is right, or one too large. -/
theorem floorLog2_eq_log {num den : ℕ} (hn : num ≠ 0) (hd : den ≠ 0) :
    floorLog2 num den = Int.log 2 (num / den : ℚ) := by
  have hpos : (0 : ℚ) < num / den := by positivity
  obtain ⟨hlow, hhigh⟩ := div_bounds_of_log2 hn hd
  unfold floorLog2
  simp only [Nat.pow_eq]
  generalize (num.log2 : ℤ) - den.log2 = guess at hlow hhigh
  have hlow' : guess - 1 ≤ Int.log 2 (num / den : ℚ) :=
    (Int.zpow_le_iff_le_log Nat.one_lt_two hpos).1 (by exact_mod_cast hlow.le)
  have hhigh' : Int.log 2 (num / den : ℚ) < guess + 1 :=
    (Int.lt_zpow_iff_log_lt Nat.one_lt_two hpos).1 (by exact_mod_cast hhigh)
  have hless : num * 2 ^ (-guess).toNat < den * 2 ^ guess.toNat ↔
      Int.log 2 (num / den : ℚ) < guess := by
    have hle : 1 * (den * 2 ^ guess.toNat) ≤ num * 2 ^ (-guess).toNat ↔ _ :=
      le_scaled_iff hd guess 1
    rw [Nat.one_mul, Nat.cast_one, one_mul] at hle
    rw [← Int.lt_zpow_iff_log_lt Nat.one_lt_two hpos, ← not_le, hle, not_le, Nat.cast_ofNat]
  split
  next h => have := hless.1 h; omega
  next h => have := mt hless.2 h; omega

/-! ## The form of a number -/

/-- A finite number in the one form that the format has for it. -/
def IsCanonical : Binary64 → Prop
  | finite _ significand exponent =>
    significand < 2 ^ 53 ∧ (2 ^ 52 ≤ significand ∨ exponent = -1074) ∧
      -1074 ≤ exponent ∧ exponent ≤ 971
  | _ => True

theorem isCanonical_zero (negative : Bool) : IsCanonical (finite negative 0 (-1074)) :=
  ⟨by norm_num, .inr rfl, by norm_num, by norm_num⟩

/-! ## Rounding a quotient -/

section RoundQuotient

variable {negative : Bool} {num den : ℕ}

theorem roundQuotient_zero : roundQuotient negative 0 den = finite negative 0 (-1074) := rfl

/-- The two steps of rounding: the unit in the last place, and the count of units. A count of 54
bits is the least one of the next unit. -/
theorem roundQuotient_eq (hn : num ≠ 0) {e : ℤ} {s : ℕ}
    (he : max (floorLog2 num den - 52) (-1074) = e)
    (hs : divideToEven (num * 2 ^ (-e).toNat) (den * 2 ^ e.toNat) = s) :
    roundQuotient negative num den =
      if s = 2 ^ 53 then
        if 971 < e + 1 then infinite negative else finite negative (2 ^ 52) (e + 1)
      else if 971 < e then infinite negative else finite negative s e := by
  unfold roundQuotient
  simp only [hn, if_false, he, Nat.pow_eq, hs]
  by_cases h : s = 2 ^ 53
  · rw [if_pos h, if_pos h]
  · rw [if_neg h, if_neg h]

/-- The count of units has 53 bits, or fewer where the unit is the least one. -/
theorem count_bounds (hn : num ≠ 0) (hd : den ≠ 0) {e : ℤ}
    (he : max (floorLog2 num den - 52) (-1074) = e) :
    divideToEven (num * 2 ^ (-e).toNat) (den * 2 ^ e.toNat) ≤ 2 ^ 53 ∧
      (2 ^ 52 ≤ divideToEven (num * 2 ^ (-e).toNat) (den * 2 ^ e.toNat) ∨ e = -1074) := by
  have hpos : (0 : ℚ) < num / den := by positivity
  have hden : 0 < den * 2 ^ e.toNat := by positivity
  have hlog := floorLog2_eq_log hn hd
  constructor
  · refine divideToEven_le hden ((scaled_le_iff hd e _).2 ?_)
    have hlt := (Int.lt_zpow_iff_log_lt (R := ℚ) Nat.one_lt_two hpos (x := 53 + e)).2 (by omega)
    rw [Nat.cast_ofNat, zpow_add₀ (by norm_num)] at hlt
    exact_mod_cast hlt.le
  · rcases eq_or_ne e (-1074) with h | h
    · exact .inr h
    · refine .inl (le_divideToEven hden ((le_scaled_iff hd e _).2 ?_))
      have hle := (Int.zpow_le_iff_le_log (R := ℚ) Nat.one_lt_two hpos (x := 52 + e)).2 (by omega)
      rw [Nat.cast_ofNat, zpow_add₀ (by norm_num)] at hle
      exact_mod_cast hle

theorem isCanonical_roundQuotient (negative : Bool) (num : ℕ) (hd : den ≠ 0) :
    IsCanonical (roundQuotient negative num den) := by
  rcases eq_or_ne num 0 with rfl | hn
  · exact isCanonical_zero negative
  obtain ⟨hle, hge⟩ := count_bounds hn hd rfl
  rw [roundQuotient_eq hn rfl rfl]
  have hleast : -1074 ≤ max (floorLog2 num den - 52) (-1074) := le_max_right _ _
  generalize max (floorLog2 num den - 52) (-1074) = e at *
  generalize divideToEven (num * 2 ^ (-e).toNat) (den * 2 ^ e.toNat) = s at *
  split_ifs with hs hbig hbig
  · trivial
  · exact ⟨by norm_num, .inl le_rfl, by omega, by omega⟩
  · trivial
  · exact ⟨lt_of_le_of_ne hle hs, hge, hleast, by omega⟩

/-- Equal quotients are rounded alike. -/
theorem roundQuotient_congr {num' den' : ℕ} (hd : den ≠ 0) (hd' : den' ≠ 0)
    (h : (num / den : ℚ) = num' / den') :
    roundQuotient negative num den = roundQuotient negative num' den' := by
  have hcross : num * den' = num' * den := by
    rw [div_eq_div_iff (by exact_mod_cast hd) (by exact_mod_cast hd')] at h
    exact_mod_cast h
  rcases eq_or_ne num 0 with rfl | hn
  · have hn' : num' = 0 := by simpa [hd] using hcross.symm
    rw [hn', roundQuotient_zero, roundQuotient_zero]
  · have hn' : num' ≠ 0 := by
      rintro rfl
      exact mul_ne_zero hn hd' (by simpa using hcross)
    have hlog : floorLog2 num den = floorLog2 num' den' := by
      rw [floorLog2_eq_log hn hd, floorLog2_eq_log hn' hd', h]
    rw [roundQuotient_eq hn rfl rfl, roundQuotient_eq hn' rfl rfl, hlog]
    generalize max (floorLog2 num' den' - 52) (-1074) = e
    have hcount : divideToEven (num * 2 ^ (-e).toNat) (den * 2 ^ e.toNat) =
        divideToEven (num' * 2 ^ (-e).toNat) (den' * 2 ^ e.toNat) := by
      refine divideToEven_congr (by positivity) (by positivity) ?_
      calc num * 2 ^ (-e).toNat * (den' * 2 ^ e.toNat)
        _ = num * den' * (2 ^ (-e).toNat * 2 ^ e.toNat) := by ring
        _ = num' * den * (2 ^ (-e).toNat * 2 ^ e.toNat) := by rw [hcross]
        _ = num' * 2 ^ (-e).toNat * (den * 2 ^ e.toNat) := by ring
    rw [hcount]

/-- A number of the format is rounded to itself. -/
theorem roundQuotient_of_eq {s : ℕ} {e : ℤ} (hd : den ≠ 0) (hs : s ≠ 0)
    (hx : IsCanonical (finite negative s e)) (h : (num / den : ℚ) = s * 2 ^ e) :
    roundQuotient negative num den = finite negative s e := by
  obtain ⟨hlt, hform, hleast, hmost⟩ := hx
  have hpos : (0 : ℚ) < num / den := by rw [h]; positivity
  have hn : num ≠ 0 := by
    rintro rfl
    simp at hpos
  have hunit : max (floorLog2 num den - 52) (-1074) = e := by
    have hhigh : Int.log 2 (num / den : ℚ) < 53 + e := by
      refine (Int.lt_zpow_iff_log_lt Nat.one_lt_two hpos).1 ?_
      rw [h, Nat.cast_ofNat, zpow_add₀ (by norm_num)]
      have hlt' : (s : ℚ) < 2 ^ (53 : ℤ) := by exact_mod_cast hlt
      gcongr
    rw [floorLog2_eq_log hn hd]
    rcases hform with hform | rfl
    · have hlow : 52 + e ≤ Int.log 2 (num / den : ℚ) := by
        refine (Int.zpow_le_iff_le_log Nat.one_lt_two hpos).1 ?_
        rw [h, Nat.cast_ofNat, zpow_add₀ (by norm_num)]
        have hform' : (2 : ℚ) ^ (52 : ℤ) ≤ s := by exact_mod_cast hform
        gcongr
      omega
    · omega
  have hcount : divideToEven (num * 2 ^ (-e).toNat) (den * 2 ^ e.toNat) = s := by
    have hden : 0 < den * 2 ^ e.toNat := by positivity
    have hscaled : num * 2 ^ (-e).toNat = s * (den * 2 ^ e.toNat) :=
      le_antisymm ((scaled_le_iff hd e s).2 h.le) ((le_scaled_iff hd e s).2 h.ge)
    rw [hscaled, divideToEven_mul_self hden]
  rw [roundQuotient_eq hn hunit hcount, if_neg hlt.ne, if_neg (by omega)]

/-- What is too large for the format is infinite. -/
theorem roundQuotient_of_large (hd : den ≠ 0) (h : (2 : ℚ) ^ (1024 : ℤ) ≤ num / den) :
    roundQuotient negative num den = infinite negative := by
  have hpos : (0 : ℚ) < num / den := lt_of_lt_of_le (by positivity) h
  have hn : num ≠ 0 := by
    rintro rfl
    simp at hpos
  have hlog : 1024 ≤ floorLog2 num den := by
    rw [floorLog2_eq_log hn hd]
    exact (Int.zpow_le_iff_le_log Nat.one_lt_two hpos).1 (by exact_mod_cast h)
  rw [roundQuotient_eq hn rfl rfl]
  split_ifs <;> first | rfl | omega

/-- Less than half a unit counts as no unit. -/
theorem count_eq_zero (hd : den ≠ 0) {e : ℤ} (h : (num / den : ℚ) < 2 ^ (e - 1)) :
    divideToEven (num * 2 ^ (-e).toNat) (den * 2 ^ e.toNat) = 0 := by
  refine divideToEven_eq_zero ?_
  have hle : 1 * (den * 2 ^ e.toNat) ≤ 2 * num * 2 ^ (-e).toNat ↔ _ := le_scaled_iff hd e 1
  rw [Nat.one_mul, Nat.mul_assoc] at hle
  rw [← not_le, hle, not_le, Nat.cast_one, one_mul, Nat.cast_mul, mul_div_assoc]
  calc ((2 : ℕ) : ℚ) * (num / den)
    _ < 2 * 2 ^ (e - 1) := by rw [Nat.cast_ofNat]; gcongr
    _ = 2 ^ e := by rw [← zpow_one_add₀ (by norm_num)]; congr 1; ring

/-- What is less than half of the least number of the format is zero. -/
theorem roundQuotient_of_small (hd : den ≠ 0) (h : (num / den : ℚ) < 2 ^ (-1075 : ℤ)) :
    roundQuotient negative num den = finite negative 0 (-1074) := by
  rcases eq_or_ne num 0 with rfl | hn
  · exact roundQuotient_zero
  have hpos : (0 : ℚ) < num / den := by positivity
  have hlog : floorLog2 num den < -1075 := by
    rw [floorLog2_eq_log hn hd]
    exact (Int.lt_zpow_iff_log_lt Nat.one_lt_two hpos).1 (by exact_mod_cast h)
  have hunit : max (floorLog2 num den - 52) (-1074) = -1074 := by omega
  rw [roundQuotient_eq hn hunit (count_eq_zero hd h), if_neg (by norm_num), if_neg (by norm_num)]

/-- The sign has no part in rounding. -/
theorem roundQuotient_sign {s : ℕ} {e : ℤ}
    (h : roundQuotient negative num den = finite negative s e) (other : Bool) :
    roundQuotient other num den = finite other s e := by
  rcases eq_or_ne num 0 with rfl | hn
  · rw [roundQuotient_zero] at h ⊢
    injection h with _ hs he
    rw [hs, he]
  · rw [roundQuotient_eq hn rfl rfl] at h ⊢
    split_ifs at h ⊢ <;>
      · injection h with _ hs he
        rw [hs, he]

end RoundQuotient

/-! ## Arithmetic -/

theorem isCanonical_div (x y : Binary64) : IsCanonical (x.div y) := by
  cases x with
  | finite a m p =>
    cases y with
    | finite b n q =>
      simp only [div]
      split_ifs with hn hm
      · trivial
      · trivial
      · exact isCanonical_roundQuotient _ _ (mul_ne_zero hn (by simp))
    | infinite b => exact isCanonical_zero _
    | nan b => trivial
  | infinite a => cases y <;> trivial
  | nan a => trivial

/-! ## Signs -/

section Signs

variable {x y : Binary64}

theorem negative_roundQuotient (negative : Bool) (num den : ℕ) :
    (roundQuotient negative num den).negative = negative := by
  rcases eq_or_ne num 0 with rfl | hn
  · rfl
  · rw [roundQuotient_eq hn rfl rfl]
    split_ifs <;> rfl

/-- Numbers without a minus have a product without one. -/
theorem negative_mul (hx : x.negative = false) (hy : y.negative = false) :
    (x.mul y).negative = false := by
  cases x <;> cases y <;> obtain rfl := hx <;> obtain rfl := hy <;> simp only [mul]
  case finite.finite => exact negative_roundQuotient _ _ _
  case finite.infinite => split <;> rfl
  case infinite.finite => split <;> rfl
  all_goals rfl

theorem negative_div (hx : x.negative = false) (hy : y.negative = false) :
    (x.div y).negative = false := by
  cases x <;> cases y <;> obtain rfl := hx <;> obtain rfl := hy <;> simp only [div]
  case finite.finite =>
    split_ifs
    · rfl
    · rfl
    · exact negative_roundQuotient _ _ _
  all_goals rfl

theorem negative_round (x : Binary64) : x.round.negative = x.negative := by
  cases x with
  | finite => exact negative_roundQuotient _ _ _
  | infinite => rfl
  | nan => rfl

theorem negative_powerFrom {bound exponent : ℕ} (hx : x.negative = false)
    (hy : y.negative = false) : (powerFrom bound x y exponent).negative = false := by
  induction bound generalizing x y exponent with
  | zero => exact hx
  | succ bound ih =>
    have hnext : (if exponent % 2 = 1 then x.mul y else x).negative = false := by
      split
      · exact negative_mul hx hy
      · exact hx
    rw [powerFrom]
    split
    · exact hnext
    · exact ih hnext (negative_mul hy hy)

theorem negative_tenTo (places : ℕ) : (tenTo places).negative = false :=
  negative_powerFrom (negative_roundQuotient _ _ _) (negative_roundQuotient _ _ _)

end Signs

end SvgPress.Binary64
