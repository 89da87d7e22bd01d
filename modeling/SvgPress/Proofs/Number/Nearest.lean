import SvgPress.Proofs.Number.Decimals

/-!
# The nearest number

Rounding is a function of a rational: count it in units of the last place that its size gives, and
take the nearest count. So rounding keeps the order, its error is at most half a unit, and what is
nearer to a number than any other number can be is rounded to it.
-/

namespace SvgPress.Binary64

/-! ## Rounding a rational -/

/-- The number of the format nearest a rational that is not negative. -/
def nearest (q : ℚ) : Binary64 :=
  roundQuotient false q.num.toNat q.den

/-- The exponent of the unit in which a positive rational is counted. -/
def unitOf (q : ℚ) : ℤ :=
  max (Int.log 2 q - 52) (-1074)

/-- The nearest count of units of a positive rational. -/
def countOf (q : ℚ) : ℕ :=
  divideToEven (q.num.toNat * 2 ^ (-unitOf q).toNat) (q.den * 2 ^ (unitOf q).toNat)

/-- The multiple of the unit that a positive rational is rounded to. -/
def nearestPoint (q : ℚ) : ℚ :=
  countOf q * 2 ^ unitOf q

variable {q q' r : ℚ} {s s' : ℕ} {e e' : ℤ} {negative : Bool}

theorem num_toNat_div_den (hq : 0 ≤ q) : (q.num.toNat : ℚ) / q.den = q := by
  have hnum : ((q.num.toNat : ℕ) : ℤ) = q.num := Int.toNat_of_nonneg (Rat.num_nonneg.2 hq)
  have hcast : (q.num.toNat : ℚ) = (q.num : ℚ) := by exact_mod_cast hnum
  rw [hcast, Rat.num_div_den]

theorem roundQuotient_eq_nearest {num den : ℕ} (hd : den ≠ 0) :
    roundQuotient false num den = nearest (num / den) :=
  roundQuotient_congr hd (Rat.den_ne_zero _) (num_toNat_div_den (by positivity)).symm

theorem roundQuotient_eq_finite_iff {num den : ℕ} (hd : den ≠ 0) :
    roundQuotient negative num den = finite negative s e ↔
      nearest (num / den) = finite false s e := by
  rw [← roundQuotient_eq_nearest hd]
  exact ⟨fun h => roundQuotient_sign h false, fun h => roundQuotient_sign h negative⟩

theorem ofDecimal_eq_nearest (d : Decimal) : ofDecimal false d = nearest d.toRat := by
  rw [ofDecimal_eq, roundQuotient_eq_nearest (by positivity), quotient_eq_toRat]

theorem isCanonical_nearest (q : ℚ) : IsCanonical (nearest q) :=
  isCanonical_roundQuotient false _ (Rat.den_ne_zero q)

/-! ## The distance to what is rounded -/

theorem abs_divideToEven_sub_le {num den : ℕ} (hd : 0 < den) :
    |(divideToEven num den : ℚ) - num / den| ≤ 1 / 2 := by
  have hpos : (0 : ℚ) < den := by exact_mod_cast hd
  have hsplit : (num : ℚ) = den * (num / den : ℕ) + (num % den : ℕ) := by
    exact_mod_cast (Nat.div_add_mod num den).symm
  have hquotient : (num : ℚ) / den = (num / den : ℕ) + (num % den : ℕ) / den := by
    rw [hsplit]
    field_simp
  have hlt : ((num % den : ℕ) : ℚ) < den := by exact_mod_cast Nat.mod_lt num hd
  rw [hquotient, abs_le]
  unfold divideToEven
  simp only
  split_ifs with h
  · -- What is dropped is at most half.
    have hhalf : 2 * (num % den) ≤ den := by
      simp only [Bool.or_eq_true, Bool.and_eq_true, decide_eq_true_eq, beq_iff_eq] at h
      omega
    have hle : ((num % den : ℕ) : ℚ) / den ≤ 1 / 2 := by
      rw [div_le_div_iff₀ hpos two_pos]
      have hcast : ((2 * (num % den) : ℕ) : ℚ) ≤ den := by exact_mod_cast hhalf
      push_cast at hcast ⊢
      linarith
    have hnonneg : (0 : ℚ) ≤ (num % den : ℕ) / den := by positivity
    constructor <;> linarith
  · have hhalf : den ≤ 2 * (num % den) := by
      simp only [Bool.or_eq_true, Bool.and_eq_true, decide_eq_true_eq, beq_iff_eq, not_or] at h
      omega
    have hge : 1 / 2 ≤ ((num % den : ℕ) : ℚ) / den := by
      rw [div_le_div_iff₀ two_pos hpos]
      have hcast : (den : ℚ) ≤ (2 * (num % den) : ℕ) := by exact_mod_cast hhalf
      push_cast at hcast ⊢
      linarith
    have hone : ((num % den : ℕ) : ℚ) / den ≤ 1 := by
      rw [div_le_one hpos]
      exact hlt.le
    push_cast
    constructor <;> linarith

/-- The count is at most half away from the quotient. -/
theorem abs_countOf_sub_le (hq : 0 ≤ q) : |(countOf q : ℚ) - q / 2 ^ unitOf q| ≤ 1 / 2 := by
  have hscaled := scaled_eq 2 q.num.toNat q.den (unitOf q)
  rw [num_toNat_div_den hq, Nat.cast_ofNat] at hscaled
  have hden : 0 < q.den * 2 ^ (unitOf q).toNat := Nat.mul_pos q.den_pos (by positivity)
  rw [← hscaled]
  exact abs_divideToEven_sub_le hden

/-- A rational is rounded by at most half a unit. -/
theorem abs_nearestPoint_sub_le (hq : 0 ≤ q) : |nearestPoint q - q| ≤ 2 ^ (unitOf q - 1) := by
  have hunit : (0 : ℚ) < 2 ^ unitOf q := by positivity
  calc |nearestPoint q - q|
    _ = |(countOf q - q / 2 ^ unitOf q) * 2 ^ unitOf q| := by
        rw [nearestPoint, sub_mul, div_mul_cancel₀ _ hunit.ne']
    _ = |(countOf q : ℚ) - q / 2 ^ unitOf q| * 2 ^ unitOf q := by rw [abs_mul, abs_of_pos hunit]
    _ ≤ 1 / 2 * 2 ^ unitOf q := by
        gcongr
        exact abs_countOf_sub_le hq
    _ = 2 ^ (unitOf q - 1) := by
        rw [zpow_sub_one₀ (by norm_num)]
        ring

theorem nearestPoint_zero : nearestPoint 0 = 0 := by
  simp [nearestPoint, countOf, divideToEven]

theorem nearestPoint_nonneg (q : ℚ) : 0 ≤ nearestPoint q := by
  unfold nearestPoint
  positivity

theorem num_toNat_ne_zero (hq : 0 < q) : q.num.toNat ≠ 0 := by
  have hnum := Rat.num_pos.2 hq
  omega

theorem unitOf_eq (hq : 0 < q) : max (floorLog2 q.num.toNat q.den - 52) (-1074) = unitOf q := by
  rw [floorLog2_eq_log (num_toNat_ne_zero hq) (Rat.den_ne_zero q), num_toNat_div_den hq.le, unitOf]

theorem countOf_bounds (hq : 0 < q) :
    countOf q ≤ 2 ^ 53 ∧ (2 ^ 52 ≤ countOf q ∨ unitOf q = -1074) :=
  count_bounds (num_toNat_ne_zero hq) (Rat.den_ne_zero q) (unitOf_eq hq)

theorem nearest_eq (hq : 0 < q) :
    nearest q =
      if countOf q = 2 ^ 53 then
        if 971 < unitOf q + 1 then infinite false else finite false (2 ^ 52) (unitOf q + 1)
      else if 971 < unitOf q then infinite false else finite false (countOf q) (unitOf q) :=
  roundQuotient_eq (num_toNat_ne_zero hq) (unitOf_eq hq) rfl

/-- What is rounded to a finite number is rounded to the nearest multiple of its unit. -/
theorem exists_of_isFinite (hq : 0 < q) (h : (nearest q).isFinite = true) :
    ∃ s e, nearest q = finite false s e ∧ nearestPoint q = s * 2 ^ e := by
  rw [nearest_eq hq] at h ⊢
  split_ifs at h ⊢ with hcount hlarge hlarge
  · exact absurd h Bool.false_ne_true
  · refine ⟨_, _, rfl, ?_⟩
    rw [nearestPoint, hcount, zpow_add_one₀ (by norm_num)]
    push_cast
    ring
  · exact absurd h Bool.false_ne_true
  · exact ⟨_, _, rfl, rfl⟩

theorem nearestPoint_eq (hq : 0 < q) (h : nearest q = finite negative s e) :
    nearestPoint q = s * 2 ^ e := by
  obtain ⟨s', e', hnearest, hpoint⟩ := exists_of_isFinite hq (by rw [h]; rfl)
  obtain ⟨-, rfl, rfl⟩ := finite.inj (h.symm.trans hnearest)
  exact hpoint

theorem lt_of_isCanonical (hx : IsCanonical (finite negative s e)) :
    (s * 2 ^ e : ℚ) < 2 ^ (1024 : ℤ) := by
  obtain ⟨hs, -, -, he⟩ := hx
  have hcast : (s : ℚ) < 2 ^ (53 : ℤ) := by exact_mod_cast hs
  calc (s * 2 ^ e : ℚ)
    _ < 2 ^ (53 : ℤ) * 2 ^ e := by gcongr
    _ = 2 ^ (53 + e) := (zpow_add₀ (by norm_num) _ _).symm
    _ ≤ 2 ^ (1024 : ℤ) := zpow_le_zpow_right₀ (by norm_num) (by omega)

/-- What is rounded to a multiple of its unit that is not too large is rounded to a finite number. -/
theorem isFinite_nearest (hq : 0 < q) (h : nearestPoint q < 2 ^ (1024 : ℤ)) :
    (nearest q).isFinite = true := by
  have hsmall : ∀ {k : ℤ}, (2 : ℚ) ^ k ≤ countOf q → k + unitOf q < 1024 := by
    intro k hk
    by_contra hlarge
    refine absurd h (not_lt.2 ?_)
    calc (2 : ℚ) ^ (1024 : ℤ)
      _ ≤ 2 ^ (k + unitOf q) := zpow_le_zpow_right₀ (by norm_num) (by omega)
      _ = 2 ^ k * 2 ^ unitOf q := zpow_add₀ (by norm_num) _ _
      _ ≤ countOf q * 2 ^ unitOf q := by gcongr
  rw [nearest_eq hq]
  split_ifs with hcount hlarge hlarge
  · have hunit := hsmall (k := 53) (by rw [hcount]; norm_num)
    omega
  · rfl
  · rcases (countOf_bounds hq).2 with hge | hleast
    · have hunit := hsmall (k := 52) (by exact_mod_cast hge)
      omega
    · omega
  · rfl

/-! ## Rounding keeps the order -/

theorem unitOf_mono (hq : 0 < q) (h : q ≤ q') : unitOf q ≤ unitOf q' :=
  max_le_max (sub_le_sub_right (Int.log_mono_right hq h) 52) le_rfl

theorem divideToEven_mono {num num' den : ℕ} (h : num ≤ num') :
    divideToEven num den ≤ divideToEven num' den := by
  have hquot : num / den ≤ num' / den := Nat.div_le_div_right h
  rcases hquot.lt_or_eq with hlt | heq
  · exact (divideToEven_bounds num den).2.trans (hlt.trans_le (divideToEven_bounds num' den).1)
  · -- In one interval between integers, the remainders decide.
    have hrest : num % den ≤ num' % den := by
      have h₁ := Nat.div_add_mod num den
      have h₂ := Nat.div_add_mod num' den
      rw [heq] at h₁
      omega
    unfold divideToEven
    simp only [heq, Bool.or_eq_true, Bool.and_eq_true, decide_eq_true_eq, beq_iff_eq]
    split_ifs <;> omega

/-- Counted in one unit, a larger rational has at least the count of a smaller one. -/
theorem countOf_le_countOf (hq : 0 < q) (h : q ≤ q') (hunit : unitOf q = unitOf q') :
    countOf q ≤ countOf q' := by
  have hden : 0 < q.den * 2 ^ (unitOf q').toNat := Nat.mul_pos q.den_pos (by positivity)
  have hden' : 0 < q'.den * 2 ^ (unitOf q').toNat := Nat.mul_pos q'.den_pos (by positivity)
  have hcross : q.num.toNat * q'.den ≤ q'.num.toNat * q.den := by
    have hle := h
    rw [← num_toNat_div_den hq.le, ← num_toNat_div_den (hq.le.trans h),
      div_le_div_iff₀ (by exact_mod_cast q.den_pos) (by exact_mod_cast q'.den_pos)] at hle
    exact_mod_cast hle
  rw [countOf, countOf, hunit]
  generalize (-unitOf q').toNat = i at *
  generalize (unitOf q').toNat = j at *
  calc divideToEven (q.num.toNat * 2 ^ i) (q.den * 2 ^ j)
    _ = divideToEven (q'.den * 2 ^ j * (q.num.toNat * 2 ^ i))
          (q'.den * 2 ^ j * (q.den * 2 ^ j)) := (divideToEven_mul_left hden' _ _).symm
    _ ≤ divideToEven (q.den * 2 ^ j * (q'.num.toNat * 2 ^ i))
          (q'.den * 2 ^ j * (q.den * 2 ^ j)) := by
        refine divideToEven_mono ?_
        calc q'.den * 2 ^ j * (q.num.toNat * 2 ^ i)
          _ = q.num.toNat * q'.den * (2 ^ j * 2 ^ i) := by ring
          _ ≤ q'.num.toNat * q.den * (2 ^ j * 2 ^ i) := Nat.mul_le_mul_right _ hcross
          _ = q.den * 2 ^ j * (q'.num.toNat * 2 ^ i) := by ring
    _ = divideToEven (q'.num.toNat * 2 ^ i) (q'.den * 2 ^ j) := by
        rw [Nat.mul_comm (q'.den * 2 ^ j) (q.den * 2 ^ j)]
        exact divideToEven_mul_left hden _ _

theorem nearestPoint_mono (hq : 0 ≤ q) (h : q ≤ q') : nearestPoint q ≤ nearestPoint q' := by
  rcases hq.eq_or_lt with rfl | hq
  · rw [nearestPoint_zero]
    exact nearestPoint_nonneg q'
  rcases (unitOf_mono hq h).lt_or_eq with hlt | heq
  · -- Between the two there is a power of two, which is a multiple of both units.
    have hq' := hq.trans_le h
    have hcount : ((countOf q : ℕ) : ℚ) ≤ 2 ^ (53 : ℤ) := by
      exact_mod_cast (countOf_bounds hq).1
    have hleast : -1074 ≤ unitOf q := le_max_right _ _
    have hcount' : (2 : ℚ) ^ (52 : ℤ) ≤ countOf q' := by
      exact_mod_cast (countOf_bounds hq').2.resolve_right (by omega)
    calc nearestPoint q
      _ ≤ 2 ^ (53 : ℤ) * 2 ^ unitOf q := by
          rw [nearestPoint]
          gcongr
      _ = 2 ^ (53 + unitOf q) := (zpow_add₀ (by norm_num) _ _).symm
      _ ≤ 2 ^ (52 + unitOf q') := zpow_le_zpow_right₀ (by norm_num) (by omega)
      _ = 2 ^ (52 : ℤ) * 2 ^ unitOf q' := zpow_add₀ (by norm_num) _ _
      _ ≤ nearestPoint q' := by
          rw [nearestPoint]
          gcongr
  · rw [nearestPoint, nearestPoint, heq]
    have hcount := countOf_le_countOf hq h heq
    gcongr

/-! ## Numbers of the format -/

/-- A rational that is the absolute value of a number. -/
def IsRepresentable (q : ℚ) : Prop :=
  ∃ s e, IsCanonical (finite false s e) ∧ q = s * 2 ^ e

theorem nearest_of_isCanonical (hs : s ≠ 0) (hx : IsCanonical (finite false s e)) :
    nearest (s * 2 ^ e) = finite false s e :=
  roundQuotient_of_eq (Rat.den_ne_zero _) hs hx (num_toNat_div_den (by positivity))

theorem IsRepresentable.nearestPoint_eq (h : IsRepresentable q) : nearestPoint q = q := by
  obtain ⟨s, e, hx, rfl⟩ := h
  rcases eq_or_ne s 0 with rfl | hs
  · rw [Nat.cast_zero, zero_mul, nearestPoint_zero]
  · exact Binary64.nearestPoint_eq (by positivity) (nearest_of_isCanonical hs hx)

theorem IsRepresentable.nonneg (h : IsRepresentable q) : 0 ≤ q := by
  obtain ⟨s, e, -, rfl⟩ := h
  positivity

/-- A positive number is decided by the multiple that is rounded to. -/
theorem nearest_eq_of_nearestPoint_eq (hq : 0 < q) (hs : s ≠ 0)
    (hx : IsCanonical (finite false s e)) (h : nearestPoint q = s * 2 ^ e) :
    nearest q = finite false s e := by
  obtain ⟨s', e', hnearest, hpoint⟩ :=
    exists_of_isFinite hq (isFinite_nearest hq (h ▸ lt_of_isCanonical hx))
  have hvalue : (s' * 2 ^ e' : ℚ) = s * 2 ^ e := hpoint.symm.trans h
  have hs' : s' ≠ 0 := by
    rintro rfl
    have hpos : (0 : ℚ) < s * 2 ^ e := by positivity
    simp [← hvalue] at hpos
  have hx' : IsCanonical (finite false s' e') := hnearest ▸ isCanonical_nearest q
  rw [hnearest, ← nearest_of_isCanonical hs' hx', hvalue, nearest_of_isCanonical hs hx]

/-- What lies between two rationals that are rounded to one number is rounded to it too. -/
theorem nearest_of_between (hq : 0 < q) (hr : q ≤ r) (hr' : r ≤ q') (hs : s ≠ 0)
    (h : nearest q = finite false s e) (h' : nearest q' = finite false s e) :
    nearest r = finite false s e := by
  have hlow := nearestPoint_mono hq.le hr
  have hhigh := nearestPoint_mono (hq.trans_le hr).le hr'
  rw [nearestPoint_eq hq h] at hlow
  rw [nearestPoint_eq (hq.trans_le (hr.trans hr')) h'] at hhigh
  exact nearest_eq_of_nearestPoint_eq (hq.trans_le hr) hs (h ▸ isCanonical_nearest q)
    (le_antisymm hhigh hlow)

/-- What is at most a number is rounded to at most this number. -/
theorem nearestPoint_le (hq : 0 ≤ q) (h : q ≤ r) (hr : IsRepresentable r) : nearestPoint q ≤ r := by
  rw [← hr.nearestPoint_eq]
  exact nearestPoint_mono hq h

theorem le_nearestPoint (h : r ≤ q) (hr : IsRepresentable r) : r ≤ nearestPoint q := by
  rw [← hr.nearestPoint_eq]
  exact nearestPoint_mono hr.nonneg h

/-! ## The size of the error -/

/-- A unit is a small part of what is counted in it, unless it is the least one. -/
theorem two_zpow_unitOf_le (hq : 0 < q) (h : -1074 < unitOf q) :
    (2 : ℚ) ^ unitOf q ≤ q * 2 ^ (-52 : ℤ) := by
  have hlog : Int.log 2 q = 52 + unitOf q := by
    rw [unitOf] at h ⊢
    omega
  have hle : (2 : ℚ) ^ (52 + unitOf q) ≤ q := by
    rw [← hlog]
    exact_mod_cast Int.zpow_log_le_self Nat.one_lt_two hq
  calc (2 : ℚ) ^ unitOf q
    _ = 2 ^ (52 + unitOf q) * 2 ^ (-52 : ℤ) := by
        rw [← zpow_add₀ (by norm_num)]
        congr 1
        omega
    _ ≤ q * 2 ^ (-52 : ℤ) := by gcongr

/-- Away from zero, rounding changes a rational by a small part of it. -/
theorem abs_nearestPoint_sub_le_div (hq : 0 < q) (h : (2 : ℚ) ^ (-1021 : ℤ) ≤ q) :
    |nearestPoint q - q| ≤ q / 2 ^ 53 := by
  have hlog : -1021 ≤ Int.log 2 q :=
    (Int.zpow_le_iff_le_log Nat.one_lt_two hq).1 (by exact_mod_cast h)
  have hunit := two_zpow_unitOf_le hq (by rw [unitOf]; omega)
  calc |nearestPoint q - q|
    _ ≤ 2 ^ (unitOf q - 1) := abs_nearestPoint_sub_le hq.le
    _ = 2 ^ unitOf q * 2 ^ (-1 : ℤ) := zpow_add₀ (by norm_num) _ _
    _ ≤ q * 2 ^ (-52 : ℤ) * 2 ^ (-1 : ℤ) := by gcongr
    _ = q / 2 ^ 53 := by
        rw [mul_assoc, ← zpow_add₀ (by norm_num), div_eq_mul_inv]
        norm_num

/-- What is not rounded to zero is at most three halves of what it is rounded to. -/
theorem two_mul_le_three_mul_nearestPoint (hq : 0 < q) (h : nearestPoint q ≠ 0) :
    2 * q ≤ 3 * nearestPoint q := by
  have hcount : countOf q ≠ 0 := by
    intro hzero
    simp [nearestPoint, hzero] at h
  have hone : (1 : ℚ) ≤ countOf q := by exact_mod_cast Nat.one_le_iff_ne_zero.2 hcount
  have hunit : (2 : ℚ) ^ unitOf q ≤ nearestPoint q := by
    rw [nearestPoint]
    exact le_mul_of_one_le_left (by positivity) hone
  have hhalf : (2 : ℚ) ^ (unitOf q - 1) = 2 ^ unitOf q / 2 := by
    rw [zpow_sub_one₀ (by norm_num), div_eq_mul_inv]
  have herror := (abs_le.1 (abs_nearestPoint_sub_le hq.le)).1
  linarith

/-- Multiples of a unit that are less than a unit apart are the same. -/
theorem nearestPoint_eq_of_abs_sub_lt (k : ℕ)
    (h : |nearestPoint q - k * 2 ^ unitOf q| < 2 ^ unitOf q) :
    nearestPoint q = k * 2 ^ unitOf q := by
  have hunit : (0 : ℚ) < 2 ^ unitOf q := by positivity
  rw [nearestPoint, ← sub_mul, abs_mul, abs_of_pos hunit] at h
  have hlt : |((countOf q : ℤ) - k : ℤ)| < 1 := by
    have hcast := (mul_lt_iff_lt_one_left hunit).1 h
    exact_mod_cast hcast
  have heq : countOf q = k := by
    have hzero := Int.abs_lt_one_iff.1 hlt
    omega
  rw [nearestPoint, heq]

/-- The unit of what is near a number is that of the number, or the next smaller one below a power
of two. -/
theorem unitOf_of_near (hs : s ≠ 0) (hx : IsCanonical (finite false s e))
    (h : |q - s * 2 ^ e| < s * 2 ^ e / 2 ^ 54) :
    unitOf q = e ∨ unitOf q = e - 1 ∧ s = 2 ^ 52 := by
  obtain ⟨hlt, hform, hleast, -⟩ := hx
  obtain ⟨hlow, hhigh⟩ := abs_lt.1 h
  have hv : (0 : ℚ) < s * 2 ^ e := by positivity
  have hunit : (0 : ℚ) < 2 ^ e := by positivity
  have hs53 : (s : ℚ) + 1 ≤ 2 ^ 53 := by exact_mod_cast hlt
  have hgap : (s * 2 ^ e : ℚ) / 2 ^ 54 < 2 ^ e := by
    rw [div_lt_iff₀ (by positivity), mul_comm]
    gcongr
    linarith
  have hq : 0 < q := by linarith
  -- The rational is below the next power of two above the number.
  have hupper : Int.log 2 q < 53 + e := by
    refine (Int.lt_zpow_iff_log_lt Nat.one_lt_two hq).1 ?_
    rw [Nat.cast_ofNat, zpow_add₀ (by norm_num)]
    calc q
      _ < s * 2 ^ e + 2 ^ e := by linarith
      _ = (s + 1) * 2 ^ e := by ring
      _ ≤ 2 ^ (53 : ℤ) * 2 ^ e := by
          gcongr
          exact_mod_cast hs53
  rcases hform with hform | rfl
  · have hs52 : (2 : ℚ) ^ (52 : ℤ) ≤ s := by exact_mod_cast hform
    have hlower : 51 + e ≤ Int.log 2 q := by
      refine (Int.zpow_le_iff_le_log Nat.one_lt_two hq).1 ?_
      rw [Nat.cast_ofNat, zpow_add₀ (by norm_num)]
      calc (2 : ℚ) ^ (51 : ℤ) * 2 ^ e
        _ = 2 ^ (52 : ℤ) * 2 ^ e / 2 := by norm_num; ring
        _ ≤ s * 2 ^ e / 2 := by gcongr
        _ ≤ q := by linarith
    rcases lt_or_ge (Int.log 2 q) (52 + e) with hless | hmore
    · -- Only the least number of its unit has so little room below it.
      have hbelow := (Int.lt_zpow_iff_log_lt Nat.one_lt_two hq).2 hless
      rw [Nat.cast_ofNat, zpow_add₀ (by norm_num)] at hbelow
      have hroom : (s : ℚ) * 2 ^ e < (2 ^ (52 : ℤ) + 1) * 2 ^ e := by linarith
      have hs52' : s < 2 ^ 52 + 1 := by exact_mod_cast lt_of_mul_lt_mul_right hroom hunit.le
      rw [unitOf]
      omega
    · exact .inl (by rw [unitOf]; omega)
  · exact .inl (by rw [unitOf]; omega)

/-- What is much nearer to a number than its unit is rounded to this number. -/
theorem nearest_of_near (hs : s ≠ 0) (hx : IsCanonical (finite false s e))
    (h : |q - s * 2 ^ e| < s * 2 ^ e / 2 ^ 54) : nearest q = finite false s e := by
  have hq : 0 < q := by
    have hv : (0 : ℚ) < s * 2 ^ e := by positivity
    have hlow := (abs_lt.1 h).1
    linarith
  -- The number is a multiple of the unit in which the rational is counted.
  obtain ⟨k, hk, hsize⟩ : ∃ k : ℕ, (s * 2 ^ e : ℚ) = k * 2 ^ unitOf q ∧
      (s * 2 ^ e : ℚ) / 2 ^ 54 ≤ 2 ^ (unitOf q - 1) := by
    rw [zpow_sub_one₀ (by norm_num), div_le_iff₀ (by positivity)]
    rcases unitOf_of_near hs hx h with hunit | ⟨hunit, hpow⟩
    · refine ⟨s, by rw [hunit], ?_⟩
      have hs53 : (s : ℚ) ≤ 2 ^ 53 := by exact_mod_cast hx.1.le
      calc (s * 2 ^ e : ℚ)
        _ ≤ 2 ^ 53 * 2 ^ e := by gcongr
        _ = 2 ^ unitOf q * 2⁻¹ * 2 ^ 54 := by rw [hunit]; ring
    · have hvalue : (s * 2 ^ e : ℚ) = (2 ^ 53 : ℕ) * 2 ^ unitOf q := by
        rw [hunit, hpow, zpow_sub_one₀ (by norm_num)]
        push_cast
        ring
      refine ⟨2 ^ 53, hvalue, ?_⟩
      rw [hvalue]
      push_cast
      exact le_of_eq (by ring)
  refine nearest_eq_of_nearestPoint_eq hq hs hx ?_
  rw [hk]
  refine nearestPoint_eq_of_abs_sub_lt k ?_
  rw [← hk]
  calc |nearestPoint q - s * 2 ^ e|
    _ ≤ |nearestPoint q - q| + |q - s * 2 ^ e| := abs_sub_le _ _ _
    _ < 2 ^ (unitOf q - 1) + 2 ^ (unitOf q - 1) :=
        add_lt_add_of_le_of_lt (abs_nearestPoint_sub_le hq.le) (h.trans_le hsize)
    _ = 2 ^ unitOf q := by rw [zpow_sub_one₀ (by norm_num)]; ring

end SvgPress.Binary64
