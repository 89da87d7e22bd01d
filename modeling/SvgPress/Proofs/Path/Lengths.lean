import SvgPress.Proofs.Number.Magnitude
import SvgPress.Proofs.Number.Shortest
import SvgPress.Proofs.Number.Spelled
import SvgPress.Proofs.Path.Notation
import Mathlib.Tactic.IntervalCases

/-!
# The length of a number

A number of ordinary size is written with at most the characters that it was spelled with, if it was
spelled without an exponent. Before the point there are no more digits, since what is rounded stays
below the power of ten above it; after the point there are no more, since the shortest decimal ends
no later than any that is read as the number.
-/

namespace SvgPress.Path

open Text Binary64

/-! ## The length of a notation -/

section Layout

variable {d : Decimal}

/-- The number of places from the point to the left up to the first digit. -/
def placesOf (d : Decimal) : ℤ :=
  (Decimal.digitsOfNat d.digits).length + d.exponent

theorem length_digitsOfNat_le {n k : ℕ} (hk : 0 < k) :
    (Decimal.digitsOfNat n).length ≤ k ↔ n < 10 ^ k :=
  Nat.length_toDigits_le_iff (by norm_num) hk

theorem length_digitsOfNat_pos (n : ℕ) : 0 < (Decimal.digitsOfNat n).length :=
  List.length_pos_iff.2 (Decimal.digitsOfNat_ne_nil n)

/-- With an exponent, a small decimal takes less than its zeros would. -/
theorem length_layout_le_of_small (h : placesOf d ≤ -5) :
    ((layout d).length : ℤ) ≤ -d.exponent := by
  have hdigits := length_digitsOfNat_pos d.digits
  unfold placesOf at h
  obtain ⟨n, hn⟩ : ∃ n : ℕ,
      ((Decimal.digitsOfNat d.digits).length : ℤ) + d.exponent - 1 = -(n + 6 : ℕ) :=
    ⟨(-((Decimal.digitsOfNat d.digits).length + d.exponent + 5)).toNat, by omega⟩
  -- The digits of the exponent are few beside the exponent.
  have hexponent : (Decimal.digitsOfNat (n + 6)).length ≤ n + 2 := by
    refine (length_digitsOfNat_le (by omega)).2 ?_
    have hpow : n < 10 ^ n := Nat.lt_pow_self (by norm_num)
    rw [pow_add]
    omega
  have hint : ¬(0 ≤ d.exponent ∧ ((Decimal.digitsOfNat d.digits).length : ℤ) + d.exponent ≤ 16) := by
    omega
  have hpoint : ¬(0 < ((Decimal.digitsOfNat d.digits).length : ℤ) + d.exponent ∧
      ((Decimal.digitsOfNat d.digits).length : ℤ) + d.exponent ≤ 16) := by omega
  have hzeros : ¬(-5 < ((Decimal.digitsOfNat d.digits).length : ℤ) + d.exponent ∧
      ((Decimal.digitsOfNat d.digits).length : ℤ) + d.exponent ≤ 0) := by omega
  have hsign : -((n + 6 : ℕ) : ℤ) < 0 := by omega
  unfold layout
  simp only [Bool.and_eq_true, decide_eq_true_eq, hint, hpoint, hzeros, if_false, hn, hsign,
    if_true, Int.natAbs_neg, Int.natAbs_natCast]
  obtain ⟨first, others, hfirst⟩ :=
    List.exists_cons_of_ne_nil (Decimal.digitsOfNat_ne_nil d.digits)
  rw [hfirst] at hn ⊢
  rw [List.length_cons] at hn
  cases others with
  | nil => simp at hn ⊢; omega
  | cons second others => simp at hn ⊢; omega

theorem length_layout_le (h : placesOf d ≤ 16) :
    ((layout d).length : ℤ) ≤
      max (placesOf d) 0 + if d.exponent < 0 then 1 - d.exponent else 0 := by
  rcases le_or_gt (placesOf d) (-5) with hsmall | hlarge
  · have hle := length_layout_le_of_small hsmall
    have hneg : d.exponent < 0 := by
      have hdigits := length_digitsOfNat_pos d.digits
      unfold placesOf at hsmall
      omega
    rw [if_pos hneg]
    omega
  · have hdigits := length_digitsOfNat_pos d.digits
    unfold placesOf at *
    unfold layout
    generalize Decimal.digitsOfNat d.digits = digits at *
    simp only [Bool.and_eq_true, decide_eq_true_eq]
    split
    case isTrue hinteger =>
      have hwhole : ¬d.exponent < 0 := by omega
      rw [if_neg hwhole, List.length_append, List.length_replicate]
      omega
    case isFalse hfraction =>
      have hpart : d.exponent < 0 := by omega
      rw [if_pos hpart]
      split
      case isTrue hpoint =>
        rw [List.length_append, List.length_cons, List.length_take, List.length_drop]
        omega
      case isFalse hpoint =>
        have hzeros : -5 < (digits.length : ℤ) + d.exponent ∧ (digits.length : ℤ) + d.exponent ≤ 0 := by
          omega
        rw [if_pos hzeros, List.length_append, List.length_cons, List.length_replicate]
        omega

theorem placesOf_le {k : ℤ} (hd : d.digits ≠ 0) (h : d.toRat < 10 ^ k) : placesOf d ≤ k := by
  have hpow : (0 : ℚ) < 10 ^ d.exponent := by positivity
  have hone : (1 : ℚ) ≤ d.digits := by exact_mod_cast Nat.one_le_iff_ne_zero.2 hd
  have hlast : d.exponent < k := by
    refine (zpow_lt_zpow_iff_right₀ (by norm_num : (1 : ℚ) < 10)).1 (lt_of_le_of_lt ?_ h)
    exact le_mul_of_one_le_left hpow.le hone
  obtain ⟨n, hn⟩ := Int.eq_ofNat_of_zero_le (by omega : 0 ≤ k - d.exponent)
  have hsum : k = n + d.exponent := by omega
  have hdigits : d.digits < 10 ^ n := by
    rw [Decimal.toRat, hsum, zpow_add₀ (by norm_num), zpow_natCast] at h
    exact_mod_cast lt_of_mul_lt_mul_right h hpow.le
  have hlength := (length_digitsOfNat_le (by omega)).2 hdigits
  unfold placesOf
  omega

end Layout

/-! ## The length of the shortest decimal -/

section Shortest

variable {s : ℕ} {e : ℤ} {m places : ℕ}

theorem nearest_shortest (tie : Tie) (hs : s ≠ 0) (hx : IsCanonical (finite false s e)) :
    nearest (shortest tie s e).toRat = finite false s e := by
  rw [← ofDecimal_eq_nearest]
  exact ofDecimal_shortest tie hs hx

theorem digits_ne_zero_of_ofDecimal {d : Decimal} (hs : s ≠ 0)
    (h : ofDecimal false d = finite false s e) : d.digits ≠ 0 := by
  intro hzero
  rw [ofDecimal, if_pos hzero] at h
  exact hs (finite.inj h).2.1.symm

theorem toRat_pos {d : Decimal} (hd : d.digits ≠ 0) : 0 < d.toRat := by
  unfold Decimal.toRat
  positivity

/-- A decimal that is read as a number is below a power of ten if the number is. -/
theorem toRat_shortest_lt {n : ℕ} (tie : Tie) (hs : s ≠ 0) (hx : IsCanonical (finite false s e))
    (hn : n ≤ 22) (h : (s * 2 ^ e : ℚ) < 10 ^ n) : (shortest tie s e).toRat < 10 ^ n := by
  have hne := digits_ne_zero_of_ofDecimal hs (ofDecimal_shortest tie hs hx)
  by_contra hge
  have hpoint := le_nearestPoint (not_lt.1 hge) (isRepresentable_ten_pow hn)
  rw [nearestPoint_eq (toRat_pos hne) (nearest_shortest tie hs hx)] at hpoint
  exact absurd h (not_lt.2 hpoint)

/-- The first negative powers of ten are rounded up. -/
theorem le_nearestPoint_ten_zpow (h : places ≤ 5) :
    (10 : ℚ) ^ (-places : ℤ) ≤ nearestPoint (10 ^ (-places : ℤ)) := by
  have hread : ∀ {s : ℕ} {e : ℤ}, ofDecimal false ⟨1, -places⟩ = finite false s e →
      (10 : ℚ) ^ (-places : ℤ) ≤ s * 2 ^ e →
        (10 : ℚ) ^ (-places : ℤ) ≤ nearestPoint (10 ^ (-places : ℤ)) := by
    intro s e hround hle
    rw [ofDecimal_eq_nearest] at hround
    simp only [Decimal.toRat, Nat.cast_one, one_mul] at hround
    rwa [nearestPoint_eq (by positivity) hround]
  interval_cases places
  · exact hread (s := 2 ^ 52) (e := -52) (by decide +kernel) (by norm_num)
  · exact hread (s := 7205759403792794) (e := -56) (by decide +kernel) (by norm_num)
  · exact hread (s := 5764607523034235) (e := -59) (by decide +kernel) (by norm_num)
  · exact hread (s := 4611686018427388) (e := -62) (by decide +kernel) (by norm_num)
  · exact hread (s := 7378697629483821) (e := -66) (by decide +kernel) (by norm_num)
  · exact hread (s := 5902958103587057) (e := -69) (by decide +kernel) (by norm_num)

/-- The shortest decimal has no more places after the point than one that is read as the number, or
one more where the number is a negative power of ten that is rounded down. -/
theorem exponent_shortest (tie : Tie) (hs : s ≠ 0) (hx : IsCanonical (finite false s e))
    (h : ofDecimal false ⟨m, -places⟩ = finite false s e) :
    -(places : ℤ) ≤ (shortest tie s e).exponent ∨
      6 ≤ places ∧ -(places + 1 : ℤ) ≤ (shortest tie s e).exponent ∧
        Int.log 10 (s * 2 ^ e : ℚ) + 1 ≤ -places := by
  have hv : (0 : ℚ) < s * 2 ^ e := by positivity
  have hm : m ≠ 0 := digits_ne_zero_of_ofDecimal hs h
  rcases le_or_gt (-(places : ℤ)) (Int.log 10 (s * 2 ^ e : ℚ)) with hle | hlt
  · exact .inl (le_exponent_shortest tie hs hx hle h)
  have hpow : (0 : ℚ) < 10 ^ (-places : ℤ) := by positivity
  have hone : (1 : ℚ) ≤ m := by exact_mod_cast Nat.one_le_iff_ne_zero.2 hm
  have hbelow : (s * 2 ^ e : ℚ) < 10 ^ (-places : ℤ) := by
    exact_mod_cast (Int.lt_zpow_iff_log_lt (b := 10) (by norm_num) hv).2 hlt
  have hpoint : nearestPoint (m * 10 ^ (-places : ℤ)) = s * 2 ^ e := by
    rw [ofDecimal_eq_nearest] at h
    exact nearestPoint_eq (by positivity) h
  have hmono : nearestPoint (10 ^ (-places : ℤ)) ≤ s * 2 ^ e := by
    rw [← hpoint]
    exact nearestPoint_mono hpow.le (le_mul_of_one_le_left hpow.le hone)
  have hsix : 6 ≤ places := by
    by_contra hfew
    exact absurd ((le_nearestPoint_ten_zpow (by omega)).trans hmono) (not_le.2 hbelow)
  have hlog : -(places + 1 : ℤ) ≤ Int.log 10 (s * 2 ^ e : ℚ) := by
    refine (Int.zpow_le_iff_le_log (by norm_num) hv).1 ?_
    have hthird := two_mul_le_three_mul_nearestPoint (q := m * 10 ^ (-places : ℤ)) (by positivity)
      (by rw [hpoint]; exact hv.ne')
    rw [hpoint] at hthird
    have hge : (10 : ℚ) ^ (-places : ℤ) ≤ m * 10 ^ (-places : ℤ) :=
      le_mul_of_one_le_left hpow.le hone
    rw [Nat.cast_ofNat, neg_add, zpow_add₀ (by norm_num), zpow_neg_one]
    linarith
  refine .inr ⟨hsix, ?_, by omega⟩
  refine le_exponent_shortest tie (m := m * 10) hs hx hlog ((ofDecimal_congr ?_).trans h)
  simp only [Decimal.toRat]
  rw [neg_add, zpow_add₀ (by norm_num), zpow_neg_one]
  push_cast
  ring

theorem placesOf_shortest_le {n : ℕ} (tie : Tie) (hs : s ≠ 0) (hx : IsCanonical (finite false s e))
    (hn : n ≤ 22) (h : (s * 2 ^ e : ℚ) < 10 ^ n) : placesOf (shortest tie s e) ≤ n := by
  have hne := digits_ne_zero_of_ofDecimal hs (ofDecimal_shortest tie hs hx)
  exact placesOf_le hne (by exact_mod_cast toRat_shortest_lt tie hs hx hn h)

/-- An integer that is read as a number below a power of ten has as many digits as there are zeros in
the power, or more. -/
theorem length_layout_of_integer (tie : Tie) {n : ℕ} (hs : s ≠ 0) (hx : IsCanonical (finite false s e))
    (h : ofDecimal false ⟨m, 0⟩ = finite false s e) (hn : n ≤ 16) (hlt : (s * 2 ^ e : ℚ) < 10 ^ n) :
    (layout (shortest tie s e)).length ≤ n := by
  have hplaces := placesOf_shortest_le tie hs hx (by omega) hlt
  have hlength := length_layout_le (hplaces.trans (by exact_mod_cast hn))
  have hread : ofDecimal false ⟨m, -((0 : ℕ) : ℤ)⟩ = finite false s e := h
  rcases exponent_shortest tie hs hx hread with hexponent | ⟨hsix, -, -⟩
  · rw [if_neg (by omega)] at hlength
    omega
  · omega

/-- The shortest decimal of a number takes the digits before the point, the point, and the places of
any decimal that is read as the number, or less. -/
theorem length_layout_of_reads (tie : Tie) {n : ℕ} (hs : s ≠ 0) (hx : IsCanonical (finite false s e))
    (h : ofDecimal false ⟨m, -places⟩ = finite false s e) (hlarge : (s * 2 ^ e : ℚ) < 10 ^ 16)
    (hn : n ≤ 16) (hle : (s * 2 ^ e : ℚ) ≤ 10 ^ n) :
    (layout (shortest tie s e)).length ≤ n + 1 + places := by
  have hv : (0 : ℚ) < s * 2 ^ e := by positivity
  have hlength := length_layout_le (placesOf_shortest_le tie hs hx (by norm_num) hlarge)
  rcases hle.lt_or_eq with hlt | heq
  · have hplaces := placesOf_shortest_le tie hs hx (by omega) hlt
    rcases exponent_shortest tie hs hx h with hexponent | ⟨hsix, hexponent, hlog⟩
    · split_ifs at hlength <;> omega
    · -- The decimal is so small that it is written with an exponent.
      have hne := digits_ne_zero_of_ofDecimal hs (ofDecimal_shortest tie hs hx)
      have hsmall : placesOf (shortest tie s e) ≤ -places + 1 := by
        refine placesOf_le hne ((toRat_shortest_le tie hs hx).trans_lt ?_)
        exact zpow_lt_zpow_right₀ (by norm_num) (by omega)
      have hexact := length_layout_le_of_small (hsmall.trans (by omega))
      omega
  · -- A power of ten is a single digit.
    have hread : ofDecimal false ⟨1, n⟩ = finite false s e := by
      have hvalue : Decimal.toRat ⟨1, n⟩ = s * 2 ^ e := by
        rw [heq, Decimal.toRat]
        simp
      exact ofDecimal_of_eq hs hx hvalue
    have hlog : (n : ℤ) ≤ Int.log 10 (s * 2 ^ e : ℚ) := by
      refine (Int.zpow_le_iff_le_log (by norm_num) hv).1 ?_
      rw [heq]
      simp
    have hexponent := le_exponent_shortest tie hs hx hlog hread
    have hplaces : placesOf (shortest tie s e) ≤ (n + 1 : ℕ) := by
      refine placesOf_shortest_le tie hs hx (by omega) ?_
      rw [heq]
      exact pow_lt_pow_right₀ (by norm_num) (Nat.lt_succ_self n)
    rw [if_neg (by omega)] at hlength
    push_cast at hplaces
    omega

theorem mul_ten_zpow_le {n : ℕ} (h : m < 10 ^ (n + places)) :
    (m * 10 ^ (-places : ℤ) : ℚ) < 10 ^ n := by
  have hm : (m : ℚ) < 10 ^ n * 10 ^ places := by exact_mod_cast pow_add 10 n places ▸ h
  rw [zpow_neg, zpow_natCast, ← div_eq_mul_inv, div_lt_iff₀ (by positivity)]
  exact hm

/-- A number that is read from digits takes no more characters than the digits and the point. -/
theorem length_layout_of_digits (tie : Tie) {whole : ℕ} (hs : s ≠ 0) (hx : IsCanonical (finite false s e))
    (h : ofDecimal false ⟨m, -places⟩ = finite false s e) (hm : m < 10 ^ (whole + places))
    (hlarge : (s * 2 ^ e : ℚ) < 10 ^ 16) :
    (layout (shortest tie s e)).length ≤ whole + if places = 0 then 0 else 1 + places := by
  have hne : m ≠ 0 := digits_ne_zero_of_ofDecimal hs h
  have hpoint : nearestPoint (m * 10 ^ (-places : ℤ)) = s * 2 ^ e := by
    rw [ofDecimal_eq_nearest] at h
    exact nearestPoint_eq (by positivity) h
  split_ifs with hplaces
  · subst hplaces
    refine (length_layout_of_integer tie (n := min whole 16) hs hx h (by omega) ?_).trans (by omega)
    rcases le_or_gt 16 whole with hmany | hfew
    · rwa [min_eq_right hmany]
    · have hsmall : m < 2 ^ 53 := by
        calc m
          _ < 10 ^ whole := hm
          _ ≤ 10 ^ 15 := Nat.pow_le_pow_right (by norm_num) (by omega)
          _ < 2 ^ 53 := by norm_num
      rw [Nat.cast_zero, neg_zero, zpow_zero, mul_one, nearestPoint_natCast hsmall] at hpoint
      rw [min_eq_left hfew.le, ← hpoint]
      exact_mod_cast hm
  · have hle : (s * 2 ^ e : ℚ) ≤ 10 ^ min whole 16 := by
      rcases le_or_gt 16 whole with hmany | hfew
      · rw [min_eq_right hmany]
        exact hlarge.le
      · rw [min_eq_left hfew.le, ← hpoint]
        exact nearestPoint_le (by positivity) (mul_ten_zpow_le hm).le
          (isRepresentable_ten_pow (by omega))
    have hlength := length_layout_of_reads tie hs hx h hlarge (by omega) hle
    omega

end Shortest

/-! ## Rounding to places -/

/-- A number that is rounded to places without loss of other digits, and that is small enough to be
written without an exponent: the power of ten is exact and the scaled number has at most fifteen
digits, or the number stays as it is. -/
def IsOrdinary (places : ℕ) (x : Binary64) : Prop :=
  places ≤ 22 ∧ (x.mul (tenTo places)).isBelow (10 ^ 15) = true ∨
    (x.mul (tenTo places)).isBelow (2 ^ 52) = false ∧ x.isBelow (10 ^ 16) = true

theorem IsOrdinary.isFinite {places : ℕ} {x : Binary64} (h : IsOrdinary places x) :
    x.isFinite = true := by
  rcases h with ⟨-, hscaled⟩ | ⟨-, hbelow⟩
  · exact isFinite_of_mul (isBelow_eq_true_iff.1 hscaled).1
  · exact (isBelow_eq_true_iff.1 hbelow).1

section Rounding

variable {x : Binary64} {negative : Bool} {s : ℕ} {e : ℤ} {m places r : ℕ}

/-- A scaled number of at most fifteen digits is rounded to a count of the last place. -/
theorem exists_count_of_roundTo (hplaces : places ≤ 22)
    (h : (x.mul (tenTo places)).isBelow (10 ^ 15) = true)
    (hround : roundTo places x = finite negative s e) :
    nearestPoint (x.magnitude * 10 ^ places) < 10 ^ 15 ∧
      ∃ r : ℕ, |r - nearestPoint (x.magnitude * 10 ^ places)| ≤ 1 / 2 ∧
        (s * 2 ^ e : ℚ) = nearestPoint (r / 10 ^ places) := by
  obtain ⟨hfinite, hbelow⟩ := isBelow_eq_true_iff.1 h
  obtain ⟨hten, hvalue⟩ := magnitude_tenTo hplaces
  have hscaled := magnitude_mul (isFinite_of_mul hfinite) hten hfinite
  rw [hvalue] at hscaled
  rw [← hscaled]
  push_cast at hbelow
  have hsmall : (x.mul (tenTo places)).magnitude < 2 ^ 52 := hbelow.trans (by norm_num)
  obtain ⟨r, hr, hrfinite, hrvalue⟩ := round_eq hfinite hsmall
  refine ⟨hbelow, r, hr, ?_⟩
  have hrounded : (x.mul (tenTo places)).round.div (tenTo places) = finite negative s e := by
    rw [← hround, roundTo, if_pos (isBelow_eq_true_iff.2 ⟨hfinite, by exact_mod_cast hsmall⟩)]
  have hdiv := magnitude_div hrfinite (y := tenTo places) (by rw [hvalue]; positivity)
    (by rw [hrounded]; rfl)
  rw [hrounded, hrvalue, hvalue] at hdiv
  exact hdiv

/-- The count is that of the exact product if the two factors' rounding errors stay below half. -/
theorem abs_nearestPoint_mul_sub_lt {q : ℚ} {n : ℕ} (hn : n ≠ 0) (hq : (2 : ℚ) ^ (-1021 : ℤ) ≤ q)
    (hexact : q * 10 ^ places = n) (hsmall : nearestPoint (nearestPoint q * 10 ^ places) < 10 ^ 15) :
    |nearestPoint (nearestPoint q * 10 ^ places) - n| < 1 / 2 := by
  have hpos : 0 < q := lt_of_lt_of_le (by positivity) hq
  have hone : (1 : ℚ) ≤ n := by exact_mod_cast Nat.one_le_iff_ne_zero.2 hn
  have hleast : (2 : ℚ) ^ (-1021 : ℤ) ≤ 1 / 2 := by
    calc (2 : ℚ) ^ (-1021 : ℤ)
      _ ≤ 2 ^ (-1 : ℤ) := zpow_le_zpow_right₀ (by norm_num) (by norm_num)
      _ = 1 / 2 := by norm_num
  have hfirst : |nearestPoint q * 10 ^ places - n| ≤ n / 2 ^ 53 := by
    rw [← hexact, ← sub_mul, abs_mul, abs_of_pos (by positivity : (0 : ℚ) < 10 ^ places),
      mul_div_right_comm]
    gcongr
    exact abs_nearestPoint_sub_le_div hpos hq
  generalize nearestPoint q * 10 ^ places = y at *
  obtain ⟨hlow, hhigh⟩ := abs_le.1 hfirst
  have hy : 1 / 2 ≤ y := by linarith
  have hsecond := abs_nearestPoint_sub_le_div (lt_of_lt_of_le (by norm_num) hy) (hleast.trans hy)
  obtain ⟨hlow', hhigh'⟩ := abs_le.1 hsecond
  rw [abs_lt]
  constructor <;> linarith

/-- Digits that end no later than the last place are counted exactly. -/
theorem count_eq {part : ℕ} (hpart : part ≤ places) (hplaces : places ≤ 22)
    (hx : x.magnitude = nearestPoint (m * 10 ^ (-part : ℤ)))
    (hsmall : nearestPoint (x.magnitude * 10 ^ places) < 10 ^ 15)
    (hr : |r - nearestPoint (x.magnitude * 10 ^ places)| ≤ 1 / 2) :
    r = m * 10 ^ (places - part) := by
  rw [hx] at hsmall hr
  have hclose : |nearestPoint (nearestPoint (m * 10 ^ (-part : ℤ)) * 10 ^ places) -
      (m * 10 ^ (places - part) : ℕ)| < 1 / 2 := by
    rcases eq_or_ne m 0 with rfl | hm
    · simp [nearestPoint_zero]
    have hone : (1 : ℚ) ≤ m := by exact_mod_cast Nat.one_le_iff_ne_zero.2 hm
    refine abs_nearestPoint_mul_sub_lt (mul_ne_zero hm (by positivity)) ?_ ?_ hsmall
    · calc (2 : ℚ) ^ (-1021 : ℤ)
        _ ≤ 10 ^ (-part : ℤ) := two_zpow_le_ten_zpow_of_le (by omega) (by omega)
        _ ≤ m * 10 ^ (-part : ℤ) := le_mul_of_one_le_left (by positivity) hone
    · have hsplit : (10 : ℚ) ^ places = 10 ^ part * 10 ^ (places - part) := by
        rw [← pow_add, Nat.add_sub_cancel' hpart]
      rw [hsplit, zpow_neg, zpow_natCast]
      push_cast
      field_simp
  have hlt : |((r : ℤ) - (m * 10 ^ (places - part) : ℕ) : ℤ)| < 1 := by
    have hcast : |(r : ℚ) - (m * 10 ^ (places - part) : ℕ)| < 1 := by
      calc |(r : ℚ) - (m * 10 ^ (places - part) : ℕ)|
        _ ≤ _ := abs_sub_le _ (nearestPoint (nearestPoint (m * 10 ^ (-part : ℤ)) * 10 ^ places)) _
        _ < 1 / 2 + 1 / 2 := add_lt_add_of_le_of_lt hr hclose
        _ = 1 := by norm_num
    exact_mod_cast hcast
  have hzero := Int.abs_lt_one_iff.1 hlt
  omega

/-- Digits that are counted exactly are what the count stands for. -/
theorem count_div {part : ℕ} (hpart : part ≤ places) :
    ((m * 10 ^ (places - part) : ℕ) / 10 ^ places : ℚ) = m * 10 ^ (-part : ℤ) := by
  have hsplit : (10 : ℚ) ^ places = 10 ^ (places - part) * 10 ^ part := by
    rw [← pow_add, Nat.sub_add_cancel hpart]
  rw [hsplit, zpow_neg, zpow_natCast]
  push_cast
  field_simp

/-- What has at most fifteen digits when it is scaled has no more than sixteen. -/
theorem lt_of_scaled_lt {q : ℚ} (hq : 0 ≤ q) (h : nearestPoint (q * 10 ^ places) < 10 ^ 15) :
    q < 10 ^ 16 := by
  by_contra hlarge
  have hscale : (10 : ℚ) ^ 15 ≤ q * 10 ^ places := by
    calc (10 : ℚ) ^ 15
      _ ≤ 10 ^ 16 := by norm_num
      _ ≤ q := not_lt.1 hlarge
      _ ≤ q * 10 ^ places := le_mul_of_one_le_right hq (one_le_pow₀ (by norm_num))
  exact absurd h (not_lt.2 (le_nearestPoint hscale (isRepresentable_ten_pow (by norm_num))))

theorem ofDecimal_of_nearestPoint {d : Decimal} (hd : d.digits ≠ 0) (hs : s ≠ 0)
    (hx : IsCanonical (finite false s e)) (h : (s * 2 ^ e : ℚ) = nearestPoint d.toRat) :
    ofDecimal false d = finite false s e := by
  rw [ofDecimal_eq_nearest]
  exact nearest_eq_of_nearestPoint_eq (toRat_pos hd) hs hx h.symm

theorem count_le {n : ℕ} (h : nearestPoint (x.magnitude * 10 ^ places) ≤ n)
    (hr : |r - nearestPoint (x.magnitude * 10 ^ places)| ≤ 1 / 2) : r ≤ n := by
  have hlt : (r : ℚ) < (n + 1 : ℕ) := by
    have hle := (abs_le.1 hr).2
    push_cast
    linarith
  exact Nat.lt_succ_iff.1 (by exact_mod_cast hlt)

/-- A number that is at most a power of ten is counted at most as often as the power. -/
theorem count_le_pow {n : ℕ} (hn : n + places ≤ 22) (hx : x.magnitude ≤ 10 ^ n)
    (hr : |r - nearestPoint (x.magnitude * 10 ^ places)| ≤ 1 / 2) : r ≤ 10 ^ (n + places) := by
  refine count_le ?_ hr
  push_cast
  refine nearestPoint_le (mul_nonneg x.magnitude_nonneg (by positivity)) ?_
    (isRepresentable_ten_pow hn)
  rw [pow_add]
  gcongr

/-- What the count is at most, the number is at most when the point is moved. -/
theorem rounded_le {n : ℕ} (hn : n ≤ 22) (hv : (s * 2 ^ e : ℚ) = nearestPoint (r / 10 ^ places))
    (hle : r ≤ 10 ^ (n + places)) : (s * 2 ^ e : ℚ) ≤ 10 ^ n := by
  have hle' : (r : ℚ) ≤ 10 ^ n * 10 ^ places := by exact_mod_cast pow_add 10 n places ▸ hle
  rw [hv]
  refine nearestPoint_le (by positivity) ?_ (isRepresentable_ten_pow hn)
  rwa [div_le_iff₀ (by positivity)]

/-- A number that loses places takes no more digits before the point than it was spelled with. -/
theorem length_layout_of_rounded (tie : Tie) {whole part : ℕ} (hs : s ≠ 0)
    (hcanonical : IsCanonical (finite false s e)) (hpart : places < part) (hplaces : places ≤ 22)
    (hm : m < 10 ^ (whole + part)) (hx : x.magnitude = nearestPoint (m * 10 ^ (-part : ℤ)))
    (hsmall : nearestPoint (x.magnitude * 10 ^ places) < 10 ^ 15)
    (hr : |r - nearestPoint (x.magnitude * 10 ^ places)| ≤ 1 / 2)
    (hv : (s * 2 ^ e : ℚ) = nearestPoint (r / 10 ^ places)) :
    (layout (shortest tie s e)).length ≤ whole + (1 + part) := by
  have hpos : (0 : ℚ) < s * 2 ^ e := by positivity
  have hne : r ≠ 0 := by
    rintro rfl
    rw [Nat.cast_zero, zero_div, nearestPoint_zero] at hv
    exact hpos.ne' hv
  have hread : ofDecimal false ⟨r, -places⟩ = finite false s e := by
    refine ofDecimal_of_nearestPoint hne hs hcanonical ?_
    rw [hv, Decimal.toRat, zpow_neg, zpow_natCast, div_eq_mul_inv]
  have hfew : r ≤ 10 ^ 15 := count_le (by exact_mod_cast hsmall.le) hr
  have hle : (s * 2 ^ e : ℚ) ≤ 10 ^ min whole 15 := by
    rcases le_or_gt 15 whole with hmany | hless
    · rw [min_eq_right hmany]
      exact rounded_le (by norm_num) hv
        (hfew.trans (Nat.pow_le_pow_right (by norm_num) (by omega)))
    rw [min_eq_left hless.le]
    refine rounded_le (by omega) hv ?_
    rcases le_or_gt (whole + places) 22 with hexact | hbeyond
    · refine count_le_pow hexact ?_ hr
      rw [hx]
      exact nearestPoint_le (by positivity) (mul_ten_zpow_le hm).le
        (isRepresentable_ten_pow (by omega))
    · exact hfew.trans (Nat.pow_le_pow_right (by norm_num) (by omega))
  have hlarge : (s * 2 ^ e : ℚ) < 10 ^ 16 :=
    hle.trans_lt (pow_lt_pow_right₀ (by norm_num) (by omega))
  have hlength := length_layout_of_reads tie hs hcanonical hread hlarge (by omega) hle
  omega

/-- A number of ordinary size that is read from digits is written with no more characters than the
digits and the point take. -/
theorem length_layout_of_isOrdinary (tie : Tie) {whole part : ℕ} (hs : s ≠ 0)
    (hcanonical : IsCanonical (finite false s e)) (h : IsOrdinary places x)
    (hm : m < 10 ^ (whole + part)) (hx : x.magnitude = nearestPoint (m * 10 ^ (-part : ℤ)))
    (hround : roundTo places x = finite negative s e) :
    (layout (shortest tie s e)).length ≤ whole + if part = 0 then 0 else 1 + part := by
  have hpos : (0 : ℚ) < s * 2 ^ e := by positivity
  -- What is read from the digits themselves is written with no more digits.
  have hdigits : (s * 2 ^ e : ℚ) = nearestPoint (m * 10 ^ (-part : ℤ)) →
      (s * 2 ^ e : ℚ) < 10 ^ 16 →
        (layout (shortest tie s e)).length ≤ whole + if part = 0 then 0 else 1 + part := by
    intro hvalue hlarge
    have hne : m ≠ 0 := by
      rintro rfl
      rw [Nat.cast_zero, zero_mul, nearestPoint_zero] at hvalue
      exact hpos.ne' hvalue
    exact length_layout_of_digits tie hs hcanonical
      (ofDecimal_of_nearestPoint hne hs hcanonical hvalue) hm hlarge
  rcases h with ⟨hplaces, hscaled⟩ | ⟨hkeeps, hbelow⟩
  · obtain ⟨hsmall, r, hr, hv⟩ := exists_count_of_roundTo hplaces hscaled hround
    rcases le_or_gt part places with hexact | hpart
    · have hcount := count_eq hexact hplaces hx hsmall hr
      rw [hcount, count_div hexact] at hv
      refine hdigits hv ?_
      rw [hv, ← hx]
      exact lt_of_scaled_lt x.magnitude_nonneg hsmall
    · rw [if_neg (by omega)]
      exact length_layout_of_rounded tie hs hcanonical hpart hplaces hm hx hsmall hr hv
  · have hkept : x = finite negative s e := by
      have hnot : ¬(x.mul (tenTo places)).isBelow (Nat.pow 2 52) = true := by
        rw [Nat.pow_eq, hkeeps]
        exact Bool.false_ne_true
      rwa [roundTo, if_neg hnot] at hround
    rw [hkept] at hx hbelow
    exact hdigits hx (by exact_mod_cast (isBelow_eq_true_iff.1 hbelow).2)

/-! ## Numerals -/

theorem natOfDigits_lt {cs : List Char} (h : ∀ c ∈ cs, isDigit c = true) :
    Decimal.natOfDigits cs < 10 ^ cs.length := by
  induction cs using List.reverseRecOn with
  | nil => exact Nat.one_pos
  | append_singleton cs c ih =>
    have hcs := ih fun c hc => h c (List.mem_append_left _ hc)
    have hc : isDigit c = true := h c (by simp)
    simp only [isDigit, Bool.and_eq_true, decide_eq_true_eq] at hc
    have hval : c.toNat ≤ 57 := UInt32.le_iff_toNat_le.1 hc.2
    have hstep : Decimal.natOfDigits (cs ++ [c]) = Decimal.natOfDigits cs * 10 + (c.toNat - 48) := by
      rw [Decimal.natOfDigits, List.foldl_append]
      rfl
    rw [hstep, List.length_append, List.length_singleton, pow_succ]
    omega

/-- A number of ordinary size that is spelled without an exponent is written with no more characters
than it was spelled with, the sign apart. -/
theorem length_layout_of_numeral (tie : Tie) {n : Numeral} (hpower : n.exponent = 0)
    (h : IsOrdinary places n.value) (hs : s ≠ 0)
    (hround : roundTo places n.value = finite negative s e) :
    (layout (shortest tie s e)).length ≤ n.body.length := by
  have hcanonical : IsCanonical (finite false s e) := by
    have hx := isCanonical_roundTo (isCanonical_ofDecimal (n.sign == ['-']) n.decimal) places
    rw [Numeral.value] at hround
    rw [hround] at hx
    exact hx
  have hm := natOfDigits_lt n.isDigit
  rw [List.length_append] at hm
  have hx : n.value.magnitude =
      nearestPoint (Decimal.natOfDigits (n.whole ++ n.part) * 10 ^ (-n.part.length : ℤ)) := by
    rw [Numeral.value, magnitude_ofDecimal h.isFinite, Decimal.toRat, Numeral.decimal, hpower,
      add_zero]
  have hlength := length_layout_of_isOrdinary tie hs hcanonical h hm hx hround
  have hpoint : n.part.length ≠ 0 → n.point.length = 1 := by
    intro hpart
    rcases n.isPoint with hpoint | ⟨-, hnone⟩
    · rw [hpoint]
      rfl
    · exact absurd (by rw [hnone]; rfl) hpart
  unfold Numeral.body
  rw [List.length_append, List.length_append, List.length_append]
  split_ifs at hlength with hpart
  · omega
  · have hone := hpoint hpart
    omega

end Rounding

end SvgPress.Path
