import SvgPress.Proofs.Number.Decimals

/-!
# The text of a number

A text that is read as a number splits into a sign or none, digits with a point or without one, and
an exponent or none; the number is that of the digits, moved by the exponent.
-/

namespace SvgPress.Binary64

open Text

/-- The parts of a text that is read as a number. -/
structure Numeral where
  /-- The sign, if there is one. -/
  sign : List Char
  /-- The digits before the point. -/
  whole : List Char
  /-- The point, if there is one. -/
  point : List Char
  /-- The digits after the point. -/
  part : List Char
  /-- The letter of the exponent and what follows it, if there is an exponent. -/
  power : List Char
  /-- The number that the exponent adds. -/
  exponent : ℤ
  isSign : sign = [] ∨ sign = ['+'] ∨ sign = ['-']
  isDigit : ∀ c ∈ whole ++ part, isDigit c = true
  hasDigit : whole ++ part ≠ []
  isPoint : point = ['.'] ∨ point = [] ∧ part = []
  isPower : 'e' ∉ power → 'E' ∉ power → exponent = 0

namespace Numeral

variable (n : Numeral)

/-- The text without the sign. -/
def body : List Char :=
  n.whole ++ n.point ++ n.part ++ n.power

/-- The whole text. -/
def text : List Char :=
  n.sign ++ n.body

/-- The value of the text without the sign. -/
def decimal : Decimal :=
  ⟨Decimal.natOfDigits (n.whole ++ n.part), -(n.part.length : ℤ) + n.exponent⟩

/-- The number that the text is read as. -/
def value : Binary64 :=
  ofDecimal (n.sign == ['-']) n.decimal

/-- Without the sign the text begins with a digit or the point. -/
theorem exists_body_eq : ∃ c rest, n.body = c :: rest ∧ (Text.isDigit c = true ∨ c = '.') := by
  have hdigit := n.isDigit
  have hne := n.hasDigit
  unfold body
  cases hwhole : n.whole with
  | cons c whole =>
    exact ⟨c, _, rfl, .inl (hdigit c (by simp [hwhole]))⟩
  | nil =>
    rcases n.isPoint with hpoint | ⟨-, hpart⟩
    · exact ⟨'.', n.part ++ n.power, by simp [hpoint], .inr rfl⟩
    · exact absurd (by simp [hwhole, hpart]) hne

theorem takeSign_text : takeSign n.text = (n.sign == ['-'], n.body) := by
  obtain ⟨c, rest, hbody, hc⟩ := n.exists_body_eq
  unfold text
  rcases n.isSign with hsign | hsign | hsign
  · rw [hsign, hbody]
    refine takeSign_cons ?_ ?_
    · rintro rfl
      exact absurd hc (by decide)
    · rintro rfl
      exact absurd hc (by decide)
  · rw [hsign]
    rfl
  · rw [hsign]
    rfl

theorem negative_value : n.value.negative = (n.sign == ['-']) := by
  rw [value, ofDecimal_eq, negative_roundQuotient]

end Numeral

/-! ## What is read -/

variable {cs rest : List Char}

theorem exists_of_takeSign (cs : List Char) :
    ∃ sign, cs = sign ++ (takeSign cs).2 ∧ (sign = [] ∨ sign = ['+'] ∨ sign = ['-']) ∧
      (takeSign cs).1 = (sign == ['-']) := by
  unfold takeSign
  split
  · exact ⟨['-'], rfl, .inr (.inr rfl), rfl⟩
  · exact ⟨['+'], rfl, .inr (.inl rfl), rfl⟩
  · exact ⟨[], rfl, .inl rfl, rfl⟩

theorem val_le_of_mem_sign {sign : List Char} (h : sign = [] ∨ sign = ['+'] ∨ sign = ['-']) {c : Char}
    (hc : c ∈ sign) : c.val ≤ 127 := by
  rcases h with rfl | rfl | rfl
  · exact absurd hc List.not_mem_nil
  · rw [List.mem_singleton.1 hc]
    decide
  · rw [List.mem_singleton.1 hc]
    decide

theorem val_le_of_isDigit {c : Char} (h : isDigit c = true) : c.val ≤ 127 := by
  simp only [isDigit, Bool.and_eq_true, decide_eq_true_eq] at h
  have hnine : c.val ≤ '9'.val := h.2
  exact UInt32.le_trans hnine (by decide)

theorem isDigit_of_mem_takeWhile {c : Char} (h : c ∈ cs.takeWhile isDigit) : isDigit c = true :=
  List.all_eq_true.1 List.all_takeWhile c h

theorem exists_of_takeDecimal {d : Decimal} (h : takeDecimal cs = some (d, rest)) :
    ∃ whole point part, cs = whole ++ point ++ part ++ rest ∧
      (∀ c ∈ whole ++ part, isDigit c = true) ∧ whole ++ part ≠ [] ∧
        (point = ['.'] ∨ point = [] ∧ part = []) ∧
          d = ⟨Decimal.natOfDigits (whole ++ part), -(part.length : ℤ)⟩ := by
  unfold takeDecimal at h
  simp only [List.span_eq_takeWhile_dropWhile] at h
  have hsplit := List.takeWhile_append_dropWhile (p := isDigit) (l := cs)
  have hwhole : ∀ c ∈ cs.takeWhile isDigit, isDigit c = true := fun c =>
    isDigit_of_mem_takeWhile
  generalize cs.takeWhile isDigit = whole at h hsplit hwhole
  generalize cs.dropWhile isDigit = left at h hsplit
  split at h
  case h_1 more =>
    have hmore := List.takeWhile_append_dropWhile (p := isDigit) (l := more)
    have hpart : ∀ c ∈ more.takeWhile isDigit, isDigit c = true := fun c =>
      isDigit_of_mem_takeWhile
    generalize more.takeWhile isDigit = part at h hmore hpart
    generalize more.dropWhile isDigit = left at h hmore
    simp only at h
    split at h
    case isTrue => exact absurd h (by simp)
    case isFalse hdigit =>
      obtain ⟨rfl, rfl⟩ := Prod.mk.inj (Option.some.inj h)
      refine ⟨whole, ['.'], part, ?_, ?_, ?_, .inl rfl, rfl⟩
      · rw [← hsplit, ← hmore]
        simp
      · exact fun c hc => (List.mem_append.1 hc).elim (hwhole c) (hpart c)
      · simpa [← not_and_or] using hdigit
  case h_2 =>
    simp only at h
    split at h
    case isTrue => exact absurd h (by simp)
    case isFalse hdigit =>
      obtain ⟨rfl, rfl⟩ := Prod.mk.inj (Option.some.inj h)
      refine ⟨whole, [], [], by simp [hsplit], by simpa using hwhole, ?_, .inr ⟨rfl, rfl⟩, rfl⟩
      simpa using hdigit

/-- An exponent is told by its letter, and all of it is ASCII. -/
theorem exists_of_takeExponent {n : ℤ} (h : takeExponent cs = (n, rest)) :
    ∃ power, cs = power ++ rest ∧ ('e' ∉ power → 'E' ∉ power → n = 0) ∧
      ∀ c ∈ power, c.val ≤ 127 := by
  have hnone : ∀ {cs : List Char}, (0, cs) = (n, rest) →
      ∃ power, cs = power ++ rest ∧ ('e' ∉ power → 'E' ∉ power → n = 0) ∧
        ∀ c ∈ power, c.val ≤ 127 := by
    intro cs h
    obtain ⟨rfl, rfl⟩ := Prod.mk.inj h
    exact ⟨[], rfl, fun _ _ => rfl, nofun⟩
  unfold takeExponent at h
  split at h
  case h_1 => exact hnone h
  case h_2 marker left =>
    simp only [Bool.or_eq_true, decide_eq_true_eq, List.span_eq_takeWhile_dropWhile] at h
    split at h
    case isFalse => exact hnone h
    case isTrue hmarker =>
      obtain ⟨sign, hsign, hcases, -⟩ := exists_of_takeSign left
      split at h
      case isTrue => exact hnone h
      case isFalse =>
        obtain ⟨-, rfl⟩ := Prod.mk.inj h
        refine ⟨marker :: (sign ++ (takeSign left).2.takeWhile isDigit), ?_, fun he hE => ?_, ?_⟩
        · rw [List.cons_append, List.append_assoc, List.takeWhile_append_dropWhile, ← hsign]
        · exact (hmarker.elim (fun h => he (by simp [h])) fun h => hE (by simp [h])).elim
        · refine List.forall_mem_cons.2 ⟨?_, fun c hc => (List.mem_append.1 hc).elim ?_ fun hc => ?_⟩
          · rcases hmarker with rfl | rfl <;> decide
          · exact val_le_of_mem_sign hcases
          · exact val_le_of_isDigit (isDigit_of_mem_takeWhile hc)

/-- What is read as a number is a text of these parts. -/
theorem exists_numeral_of_take {x : Binary64} (h : take cs = some (x, rest)) :
    ∃ n : Numeral, cs = n.text ++ rest ∧ n.value = x := by
  obtain ⟨d, mid, exponent, hdecimal, hexponent, rfl⟩ := take_eq_some_iff.1 h
  obtain ⟨sign, hcs, hsign, hnegative⟩ := exists_of_takeSign cs
  obtain ⟨whole, point, part, hmantissa, hdigit, hne, hpoint, rfl⟩ := exists_of_takeDecimal hdecimal
  obtain ⟨power, rfl, hpower, -⟩ := exists_of_takeExponent hexponent
  refine ⟨⟨sign, whole, point, part, power, exponent, hsign, hdigit, hne, hpoint, hpower⟩, ?_, ?_⟩
  · rw [hcs, hmantissa]
    simp only [Numeral.text, Numeral.body, List.append_assoc]
  · rw [hnegative]
    rfl

end SvgPress.Binary64
