/-!
# Binary floating point

Numbers of the format binary64: a significand of at most 53 bits times a power of two, and the
infinite and undefined values. Every operation gives the exact result rounded to the nearest number
of the format, of two equally near ones the one with the even significand; the only place where that
is decided is `roundQuotient`.
-/

namespace SvgPress

/-- A number of the format binary64. A finite number is `significand * 2 ^ exponent`; either the
significand has 53 bits, or the exponent is the least one, `-1074`. -/
inductive Binary64 where
  /-- A finite number. -/
  | finite (negative : Bool) (significand : Nat) (exponent : Int)
  /-- An infinite value. -/
  | infinite (negative : Bool)
  /-- The undefined value, which has a sign in the format. -/
  | nan (negative : Bool)
deriving DecidableEq

namespace Binary64

/-! ## Rounding -/

/-- The integer nearest a quotient, of two equally near ones the even one. -/
def divideToEven (num den : Nat) : Nat :=
  let quotient := num / den
  let twice := 2 * (num % den)
  if twice < den || (twice == den && quotient % 2 == 0) then quotient else quotient + 1

/-- The integer nearest a quotient, of two equally near ones the larger one. -/
def divideAway (num den : Nat) : Nat :=
  (2 * num + den) / (2 * den)

/-- The exponent of the largest power of two that is at most a positive quotient. -/
def floorLog2 (num den : Nat) : Int :=
  let guess : Int := (num.log2 : Int) - den.log2
  if num * Nat.pow 2 (-guess).toNat < den * Nat.pow 2 guess.toNat then guess - 1 else guess

/-- The number of the format nearest a quotient of natural numbers, with a sign. -/
def roundQuotient (negative : Bool) (num den : Nat) : Binary64 :=
  if num = 0 then .finite negative 0 (-1074)
  else
    let exponent := max (floorLog2 num den - 52) (-1074)
    let significand :=
      divideToEven (num * Nat.pow 2 (-exponent).toNat) (den * Nat.pow 2 exponent.toNat)
    let (significand, exponent) :=
      if significand = Nat.pow 2 53 then (Nat.pow 2 52, exponent + 1) else (significand, exponent)
    if 971 < exponent then .infinite negative else .finite negative significand exponent

/-- The number of the format nearest a natural number. -/
def ofNat (n : Nat) : Binary64 :=
  roundQuotient false n 1

/-! ## Tests -/

/-- Whether a number is negative, or zero with a negative sign. -/
def negative : Binary64 → Bool
  | finite negative _ _ | infinite negative | nan negative => negative

/-- Whether a number is finite. -/
def isFinite : Binary64 → Bool
  | finite .. => true
  | _ => false

/-- Whether a number is zero, of either sign. -/
def isZero : Binary64 → Bool
  | finite _ significand _ => significand == 0
  | _ => false

/-- The absolute value of a finite number as a quotient. -/
def quotient (significand : Nat) (exponent : Int) : Nat × Nat :=
  (significand * Nat.pow 2 exponent.toNat, Nat.pow 2 (-exponent).toNat)

/-- Whether a number is an integer. -/
def isIntegral : Binary64 → Bool
  | finite _ significand exponent =>
    let (num, den) := quotient significand exponent
    num % den == 0
  | _ => false

/-! ## Arithmetic -/

/-- The product of two numbers. -/
def mul : Binary64 → Binary64 → Binary64
  | finite a m p, finite b n q =>
    let exponent := p + q
    roundQuotient (a != b) (m * n * Nat.pow 2 exponent.toNat) (Nat.pow 2 (-exponent).toNat)
  | nan a, _ => nan a
  | _, nan b => nan b
  | infinite a, finite b n _ => if n = 0 then nan false else infinite (a != b)
  | finite a m _, infinite b => if m = 0 then nan false else infinite (a != b)
  | infinite a, infinite b => infinite (a != b)

/-- The quotient of two numbers. -/
def div : Binary64 → Binary64 → Binary64
  | finite a m p, finite b n q =>
    if n = 0 then (if m = 0 then nan false else infinite (a != b))
    else
      let exponent := p - q
      roundQuotient (a != b) (m * Nat.pow 2 exponent.toNat) (n * Nat.pow 2 (-exponent).toNat)
  | nan a, _ => nan a
  | _, nan b => nan b
  | infinite a, finite b _ _ => infinite (a != b)
  | finite a _ _, infinite b => finite (a != b) 0 (-1074)
  | infinite _, infinite _ => nan false

/-- Whether the absolute value of a number is below a natural number. -/
def isBelow (x : Binary64) (limit : Nat) : Bool :=
  match x with
  | finite _ significand exponent =>
    let (num, den) := quotient significand exponent
    num < limit * den
  | _ => false

/-- The integer nearest a number, of two equally near ones the one away from zero. -/
def round : Binary64 → Binary64
  | finite negative significand exponent =>
    let (num, den) := quotient significand exponent
    roundQuotient negative (divideAway num den) 1
  | other => other

/-- A power by repeated squaring; `exponent` is below `2 ^ bound`, and every product is rounded. -/
def powerFrom : (bound : Nat) → (result base : Binary64) → (exponent : Nat) → Binary64
  | 0, result, _, _ => result
  | bound + 1, result, base, exponent =>
    let result := if exponent % 2 = 1 then result.mul base else result
    if exponent / 2 = 0 then result
    else powerFrom bound result (base.mul base) (exponent / 2)

/-- The power of ten for a number of decimal places, by repeated squaring. -/
def tenTo (places : Nat) : Binary64 :=
  powerFrom (places + 1) (ofNat 1) (ofNat 10) places

/-! ## The bits of the format -/

/-- The bits of a number, as a natural number below `2 ^ 64`. -/
def toBits (x : Binary64) : Nat :=
  let sign := if x.negative then Nat.pow 2 63 else 0
  match x with
  | finite _ significand exponent =>
    if significand < Nat.pow 2 52 then sign + significand
    else sign + (exponent + 1075).toNat * Nat.pow 2 52 + (significand - Nat.pow 2 52)
  | infinite _ => sign + 0x7FF * Nat.pow 2 52
  | nan _ => sign + 0x7FF * Nat.pow 2 52 + Nat.pow 2 51

end Binary64

end SvgPress
