import SvgPress.Proofs.Number.Nearest
import Mathlib.Algebra.Order.Floor.Semifield

/-!
# The digits of the shortest decimal

The shortest decimal is looked for from the left: its last digit stands as far to the left as that of
any decimal that is read as the number. Seventeen digits are always enough, and what is found is at
most the power of ten above the number.
-/

namespace SvgPress

/-! ## Zeros at the end -/

namespace Decimal

theorem exponent_le_dropZeros (bound : ℕ) (d : Decimal) :
    d.exponent ≤ (d.dropZeros bound).exponent := by
  induction bound generalizing d with
  | zero => exact le_rfl
  | succ bound ih =>
    rw [dropZeros]
    split
    · have hrest := ih ⟨d.digits / 10, d.exponent + 1⟩
      simp only at hrest
      omega
    · exact le_rfl

end Decimal

namespace Binary64

/-! ## Powers of ten and of two -/

/-- The logarithm of ten is at most `196 / 59` and at least `93 / 28`. -/
theorem ten_zpow_le_two_zpow_of_le {j k : ℤ} (h : 196 * k ≤ 59 * j) (h' : 93 * k ≤ 28 * j) :
    (10 : ℚ) ^ k ≤ 2 ^ j := by
  rcases le_total 0 k with hk | hk
  · refine (pow_le_pow_iff_left₀ (by positivity) (by positivity) (by norm_num : 59 ≠ 0)).1 ?_
    calc ((10 : ℚ) ^ k) ^ 59
      _ = (10 ^ 59) ^ k := by rw [← zpow_natCast, zpow_comm, zpow_natCast]
      _ ≤ (2 ^ 196) ^ k := zpow_le_zpow_left₀ hk (by positivity) (by norm_num)
      _ = 2 ^ (196 * k) := by rw [zpow_mul]; norm_num
      _ ≤ 2 ^ (59 * j) := zpow_le_zpow_right₀ (by norm_num) h
      _ = (2 ^ j) ^ 59 := by rw [mul_comm, zpow_mul, ← zpow_natCast (_ ^ j)]; norm_num
  · refine (pow_le_pow_iff_left₀ (by positivity) (by positivity) (by norm_num : 28 ≠ 0)).1 ?_
    obtain ⟨n, rfl⟩ := Int.exists_eq_neg_ofNat hk
    calc ((10 : ℚ) ^ (-n : ℤ)) ^ 28
      _ = ((10 ^ 28) ^ n)⁻¹ := by
          rw [zpow_neg, zpow_natCast, inv_pow, ← pow_mul, ← pow_mul, mul_comm]
      _ ≤ ((2 ^ 93) ^ n)⁻¹ := by
          gcongr
          norm_num
      _ = 2 ^ (93 * (-n : ℤ)) := by
          rw [← pow_mul, ← zpow_natCast, ← zpow_neg]
          exact congrArg _ (by push_cast; ring)
      _ ≤ 2 ^ (28 * j) := zpow_le_zpow_right₀ (by norm_num) h'
      _ = (2 ^ j) ^ 28 := by rw [mul_comm, zpow_mul, ← zpow_natCast (_ ^ j)]; norm_num

theorem two_zpow_le_ten_zpow_of_le {j k : ℤ} (h : 59 * j ≤ 196 * k) (h' : 28 * j ≤ 93 * k) :
    (2 : ℚ) ^ j ≤ 10 ^ k := by
  have hle := ten_zpow_le_two_zpow_of_le (j := -j) (k := -k) (by omega) (by omega)
  rw [zpow_neg, zpow_neg] at hle
  exact (inv_le_inv₀ (by positivity) (by positivity)).1 hle

/-! ## The place of the first digit -/

/-- The guess from the binary logarithm is right, or one too small, or one too large. -/
theorem decimalPlaces_eq {num den : ℕ} (hn : num ≠ 0) (hd : den ≠ 0)
    (hlow : -1074 ≤ Int.log 2 (num / den : ℚ)) (hhigh : Int.log 2 (num / den : ℚ) ≤ 1023) :
    decimalPlaces num den = Int.log 10 (num / den : ℚ) + 1 := by
  have hpos : (0 : ℚ) < num / den := by positivity
  have hreaches : ∀ k : ℤ,
      den * 10 ^ k.toNat ≤ num * 10 ^ (-k).toNat ↔ k ≤ Int.log 10 (num / den : ℚ) := by
    intro k
    have hden : (0 : ℚ) < ((den * 10 ^ k.toNat : ℕ) : ℚ) := by positivity
    rw [← Int.zpow_le_iff_le_log (by norm_num) hpos, ← Nat.cast_le (α := ℚ), ← one_le_div hden,
      scaled_eq, one_le_div (by positivity)]
  have hfloor := floorLog2_eq_log hn hd
  have hle := Int.zpow_log_le_self (b := 2) Nat.one_lt_two hpos
  have hlt := Int.lt_zpow_succ_log_self (b := 2) Nat.one_lt_two (num / den : ℚ)
  rw [Nat.cast_ofNat] at hle hlt
  unfold decimalPlaces
  simp only [Nat.pow_eq, decide_eq_true_eq, hreaches, hfloor]
  generalize Int.log 2 (num / den : ℚ) = l at *
  rw [Int.fdiv_eq_ediv_of_nonneg _ (by norm_num)]
  have hguess : 100000 * (l * 30103 / 100000) ≤ l * 30103 ∧
      l * 30103 < 100000 * (l * 30103 / 100000) + 100000 := by omega
  generalize l * 30103 / 100000 = guess at *
  have hleast : guess - 1 ≤ Int.log 10 (num / den : ℚ) := by
    refine (Int.zpow_le_iff_le_log (by norm_num) hpos).1 ?_
    rw [Nat.cast_ofNat]
    exact (ten_zpow_le_two_zpow_of_le (by omega) (by omega)).trans hle
  have hmost : Int.log 10 (num / den : ℚ) < guess + 2 := by
    refine (Int.lt_zpow_iff_log_lt (by norm_num) hpos).1 ?_
    rw [Nat.cast_ofNat]
    exact hlt.trans_le (two_zpow_le_ten_zpow_of_le (by omega) (by omega))
  split_ifs <;> omega

/-! ## One place for the last digit -/

section ReadsBackAt

variable {tie : Tie} {s : ℕ} {e unit : ℤ} {d : Decimal}

/-- The digits of a number from a place on to the left. -/
def digitsAt (q : ℚ) (unit : ℤ) : ℕ :=
  ⌊q / 10 ^ unit⌋₊

theorem digitsAt_bounds {q : ℚ} (hq : 0 ≤ q) (unit : ℤ) :
    digitsAt q unit * 10 ^ unit ≤ q ∧ q < (digitsAt q unit + 1) * 10 ^ unit := by
  have hpow : (0 : ℚ) < 10 ^ unit := by positivity
  constructor
  · rw [← le_div_iff₀ hpow]
    exact Nat.floor_le (by positivity)
  · rw [← div_lt_iff₀ hpow]
    exact Nat.lt_floor_add_one _

/-- Both neighbours on the grid are tried, one after the other. -/
theorem readsBackAt_cases (tie : Tie) (s : ℕ) (e unit : ℤ) :
    ∃ first second,
      (first = digitsAt (s * 2 ^ e) unit ∧ second = digitsAt (s * 2 ^ e) unit + 1 ∨
        first = digitsAt (s * 2 ^ e) unit + 1 ∧ second = digitsAt (s * 2 ^ e) unit) ∧
      readsBackAt tie s e unit =
        if ofDecimal false ⟨first, unit⟩ = finite false s e then some ⟨first, unit⟩
        else if ofDecimal false ⟨second, unit⟩ = finite false s e then some ⟨second, unit⟩
        else none := by
  have hlow : (quotient s e).1 * Nat.pow 10 (-unit).toNat /
      ((quotient s e).2 * Nat.pow 10 unit.toNat) = digitsAt (s * 2 ^ e) unit := by
    have hscaled := scaled_eq 10 (quotient s e).1 (quotient s e).2 unit
    rw [quotient_eq, Nat.cast_ofNat] at hscaled
    rw [digitsAt, ← hscaled, Nat.floor_div_eq_div]
    rfl
  unfold readsBackAt
  simp only [hlow, beq_iff_eq]
  split
  · exact ⟨_, _, .inl ⟨rfl, rfl⟩, rfl⟩
  · exact ⟨_, _, .inr ⟨rfl, rfl⟩, rfl⟩

theorem of_readsBackAt (h : readsBackAt tie s e unit = some d) :
    d.exponent = unit ∧
      (d.digits = digitsAt (s * 2 ^ e) unit ∨ d.digits = digitsAt (s * 2 ^ e) unit + 1) := by
  obtain ⟨first, second, horder, heq⟩ := readsBackAt_cases tie s e unit
  rw [heq] at h
  split_ifs at h
  · obtain rfl := Option.some.inj h
    exact ⟨rfl, horder.imp And.left And.left⟩
  · obtain rfl := Option.some.inj h
    exact ⟨rfl, (horder.imp And.right And.right).symm⟩

theorem isSome_readsBackAt (tie : Tie)
    (h : ofDecimal false ⟨digitsAt (s * 2 ^ e) unit, unit⟩ = finite false s e ∨
      ofDecimal false ⟨digitsAt (s * 2 ^ e) unit + 1, unit⟩ = finite false s e) :
    (readsBackAt tie s e unit).isSome = true := by
  obtain ⟨first, second, ⟨rfl, rfl⟩ | ⟨rfl, rfl⟩, heq⟩ := readsBackAt_cases tie s e unit
  all_goals
    rw [heq]
    split_ifs with hfirst hsecond
    · rfl
    · rfl
    · exact absurd h (by tauto)

/-- Where any decimal with its last digit at a place is read as a number, one of the two neighbours
there is. -/
theorem isSome_readsBackAt_of_reads (tie : Tie) {m : ℕ} (hs : s ≠ 0) (hx : IsCanonical (finite false s e))
    (h : ofDecimal false ⟨m, unit⟩ = finite false s e) :
    (readsBackAt tie s e unit).isSome = true := by
  have hv : (0 : ℚ) < s * 2 ^ e := by positivity
  have hexact := nearest_of_isCanonical hs hx
  obtain ⟨hlow, hhigh⟩ := digitsAt_bounds hv.le unit
  have hm : m ≠ 0 := by
    rintro rfl
    exact hs (finite.inj h).2.1.symm
  rw [ofDecimal_eq_nearest] at h
  refine isSome_readsBackAt tie ?_
  rw [ofDecimal_eq_nearest, ofDecimal_eq_nearest]
  simp only [Decimal.toRat, Nat.cast_add, Nat.cast_one] at h ⊢
  rcases Nat.lt_or_ge (digitsAt (s * 2 ^ e) unit) m with hlt | hge
  · -- The decimal is above the number, and the upper neighbour between them.
    have hm' : (digitsAt (s * 2 ^ e) unit + 1 : ℚ) ≤ m := by exact_mod_cast hlt
    exact .inr (nearest_of_between hv hhigh.le (by gcongr) hs hexact h)
  · have hm' : (m : ℚ) ≤ digitsAt (s * 2 ^ e) unit := by exact_mod_cast hge
    exact .inl (nearest_of_between (by positivity) (by gcongr) hlow hs h hexact)

/-- Where the places are small enough beside a number, one of the two neighbours is read as the
number. -/
theorem isSome_readsBackAt_of_small (tie : Tie) (hs : s ≠ 0) (hx : IsCanonical (finite false s e))
    (h : (10 : ℚ) ^ unit * 2 ^ 53 < s * 2 ^ e) : (readsBackAt tie s e unit).isSome = true := by
  have hv : (0 : ℚ) < s * 2 ^ e := by positivity
  obtain ⟨hlow, hhigh⟩ := digitsAt_bounds hv.le unit
  refine isSome_readsBackAt tie ?_
  rw [ofDecimal_eq_nearest, ofDecimal_eq_nearest]
  simp only [Decimal.toRat, Nat.cast_add, Nat.cast_one]
  rcases le_total (s * 2 ^ e - digitsAt (s * 2 ^ e) unit * 10 ^ unit : ℚ) (10 ^ unit / 2)
    with hnear | hfar
  · refine .inl (nearest_of_near hs hx (abs_lt.2 ⟨?_, ?_⟩)) <;> linarith
  · refine .inr (nearest_of_near hs hx (abs_lt.2 ⟨?_, ?_⟩)) <;> linarith

end ReadsBackAt

/-! ## The shortest decimal -/

section Shortest

variable {tie : Tie} {s : ℕ} {e unit : ℤ} {d : Decimal}

theorem log_bounds (hs : s ≠ 0) (hx : IsCanonical (finite false s e)) :
    -1074 ≤ Int.log 2 (s * 2 ^ e : ℚ) ∧ Int.log 2 (s * 2 ^ e : ℚ) ≤ 1023 := by
  have hv : (0 : ℚ) < s * 2 ^ e := by positivity
  constructor
  · refine (Int.zpow_le_iff_le_log Nat.one_lt_two hv).1 ?_
    have hone : (1 : ℚ) ≤ s := by exact_mod_cast Nat.one_le_iff_ne_zero.2 hs
    calc ((2 : ℕ) : ℚ) ^ (-1074 : ℤ)
      _ ≤ 2 ^ e := by
          rw [Nat.cast_ofNat]
          exact zpow_le_zpow_right₀ (by norm_num) hx.2.2.1
      _ ≤ s * 2 ^ e := le_mul_of_one_le_left (by positivity) hone
  · have hlt : Int.log 2 (s * 2 ^ e : ℚ) < 1024 := by
      refine (Int.lt_zpow_iff_log_lt Nat.one_lt_two hv).1 ?_
      rw [Nat.cast_ofNat]
      exact lt_of_isCanonical hx
    omega

/-- What is found in a range is found at the first number that has something. -/
theorem exists_of_findSome?_range {α : Type} {f : ℕ → Option α} {n : ℕ} {a : α}
    (h : (List.range n).findSome? f = some a) :
    ∃ k < n, f k = some a ∧ ∀ i < k, f i = none := by
  induction n with
  | zero => exact absurd h (by simp)
  | succ n ih =>
    rw [List.range_succ, List.findSome?_append] at h
    cases hfirst : (List.range n).findSome? f with
    | some b =>
      rw [hfirst, Option.some_or] at h
      obtain ⟨k, hk, hfound, hnone⟩ := ih (hfirst.trans h)
      exact ⟨k, by omega, hfound, hnone⟩
    | none =>
      rw [hfirst, Option.none_or, List.findSome?_singleton] at h
      refine ⟨n, Nat.lt_succ_self n, h, fun i hi => ?_⟩
      exact List.findSome?_eq_none_iff.1 hfirst i (List.mem_range.2 hi)

/-- The shortest decimal has its last digit, before the zeros at the end are dropped, at the first
place where it can stand. -/
theorem exists_of_shortest (tie : Tie) (hs : s ≠ 0) (hx : IsCanonical (finite false s e)) :
    ∃ d, shortest tie s e = d.dropZeros 20 ∧ readsBackAt tie s e d.exponent = some d ∧
      d.exponent ≤ Int.log 10 (s * 2 ^ e : ℚ) ∧
        ∀ unit, d.exponent < unit → unit ≤ Int.log 10 (s * 2 ^ e : ℚ) →
          readsBackAt tie s e unit = none := by
  have hv : (0 : ℚ) < s * 2 ^ e := by positivity
  have hplaces : decimalPlaces (quotient s e).1 (quotient s e).2 =
      Int.log 10 (s * 2 ^ e : ℚ) + 1 := by
    obtain ⟨hlow, hhigh⟩ := log_bounds hs hx
    rw [← quotient_eq] at hlow hhigh ⊢
    exact decimalPlaces_eq (by simp [quotient, hs]) (by simp [quotient]) hlow hhigh
  unfold shortest
  simp only [hplaces]
  generalize hfound : (List.range 17).findSome? (fun n =>
    readsBackAt tie s e (Int.log 10 (s * 2 ^ e : ℚ) + 1 - (n + 1 : ℕ))) = found
  have hlast : (readsBackAt tie s e (Int.log 10 (s * 2 ^ e : ℚ) + 1 - (16 + 1 : ℕ))).isSome = true := by
    refine isSome_readsBackAt_of_small tie hs hx ?_
    have hlog := Int.zpow_log_le_self (b := 10) (by norm_num) hv
    generalize Int.log 10 (s * 2 ^ e : ℚ) = l at *
    calc (10 : ℚ) ^ (l + 1 - (16 + 1 : ℕ)) * 2 ^ 53
      _ < 10 ^ (l + 1 - (16 + 1 : ℕ)) * 10 ^ 16 := by
          gcongr
          norm_num
      _ = 10 ^ l := by
          rw [← zpow_natCast, ← zpow_add₀ (by norm_num)]
          exact congrArg _ (by omega)
      _ ≤ s * 2 ^ e := by exact_mod_cast hlog
  cases found with
  | none =>
    have hnone := List.findSome?_eq_none_iff.1 hfound 16 (by simp)
    rw [hnone] at hlast
    exact absurd hlast (by simp)
  | some d =>
    obtain ⟨n, hn, hreads, hnone⟩ := exists_of_findSome?_range hfound
    obtain ⟨hunit, -⟩ := of_readsBackAt hreads
    refine ⟨d, rfl, hunit ▸ hreads, by omega, fun unit hlow hhigh => ?_⟩
    -- Places further to the left have been tried before.
    obtain ⟨k, hk⟩ := Int.eq_ofNat_of_zero_le (by omega : 0 ≤ Int.log 10 (s * 2 ^ e : ℚ) - unit)
    have hplace : Int.log 10 (s * 2 ^ e : ℚ) + 1 - (k + 1 : ℕ) = unit := by omega
    have hbefore := hnone k (by omega)
    rwa [hplace] at hbefore

/-- A decimal that is read as a number has its last digit no further to the left than the shortest
one, if it has a digit at all where the number has one. -/
theorem le_exponent_shortest (tie : Tie) {m : ℕ} (hs : s ≠ 0) (hx : IsCanonical (finite false s e))
    (hunit : unit ≤ Int.log 10 (s * 2 ^ e : ℚ))
    (h : ofDecimal false ⟨m, unit⟩ = finite false s e) :
    unit ≤ (shortest tie s e).exponent := by
  obtain ⟨d, hd, -, -, hleast⟩ := exists_of_shortest tie hs hx
  have hzeros := Decimal.exponent_le_dropZeros 20 d
  rw [hd]
  by_contra hlarge
  have hnone := hleast unit (by omega) hunit
  have hsome := isSome_readsBackAt_of_reads tie hs hx h
  rw [hnone] at hsome
  exact absurd hsome (by simp)

/-- The shortest decimal is at most the power of ten above the number. -/
theorem toRat_shortest_le (tie : Tie) (hs : s ≠ 0) (hx : IsCanonical (finite false s e)) :
    (shortest tie s e).toRat ≤ 10 ^ (Int.log 10 (s * 2 ^ e : ℚ) + 1) := by
  have hv : (0 : ℚ) < s * 2 ^ e := by positivity
  obtain ⟨d, hd, hreads, hmost, -⟩ := exists_of_shortest tie hs hx
  obtain ⟨-, hdigits⟩ := of_readsBackAt hreads
  obtain ⟨hlow, -⟩ := digitsAt_bounds hv.le d.exponent
  have hlog := Int.lt_zpow_succ_log_self (b := 10) (by norm_num) (s * 2 ^ e : ℚ)
  rw [Nat.cast_ofNat] at hlog
  generalize digitsAt (s * 2 ^ e) d.exponent = low at hdigits hlow
  generalize Int.log 10 (s * 2 ^ e : ℚ) = l at *
  -- There are as many digits as places from the first digit to the last.
  obtain ⟨places, hplaces⟩ := Int.eq_ofNat_of_zero_le (by omega : 0 ≤ l + 1 - d.exponent)
  have hsum : l + 1 = places + d.exponent := by omega
  have hsplit : (10 : ℚ) ^ (l + 1) = 10 ^ places * 10 ^ d.exponent := by
    rw [hsum, zpow_add₀ (by norm_num), zpow_natCast]
  have hfew : low < 10 ^ places := by
    have hlt : (low : ℚ) * 10 ^ d.exponent < 10 ^ places * 10 ^ d.exponent := by
      rw [← hsplit]
      exact hlow.trans_lt hlog
    exact_mod_cast lt_of_mul_lt_mul_right hlt (by positivity)
  have hmany : d.digits ≤ 10 ^ places := by omega
  rw [hd, Decimal.toRat_dropZeros, hsplit, Decimal.toRat]
  gcongr
  exact_mod_cast hmany

end Shortest

end Binary64

end SvgPress
