import SvgPress.Number.Binary64
import SvgPress.Text.Split

/-!
# Decimal notation

A decimal is a natural number times a power of ten. `Binary64.ofDecimal` reads one as the nearest
number of the binary format. `Binary64.shortest` goes the other way: of the decimals that read back
as the number it takes one with the fewest digits, and of those the nearest to the number.
-/

namespace SvgPress

open Text

/-- The value `digits * 10 ^ exponent`. -/
structure Decimal where
  /-- The digits, read as one number. -/
  digits : Nat
  /-- The power of ten of the last digit. -/
  exponent : Int
deriving DecidableEq

namespace Decimal

/-- The number that decimal digits spell. -/
def natOfDigits (cs : List Char) : Nat :=
  cs.foldl (fun n c => n * 10 + (c.toNat - '0'.toNat)) 0

/-- The decimal digits of a number; zero has one. -/
def digitsOfNat (n : Nat) : List Char :=
  Nat.toDigits 10 n

/-- Drop at most `bound` zeros from the end of the digits. -/
def dropZeros : (bound : Nat) → Decimal → Decimal
  | 0, d => d
  | bound + 1, d =>
    if d.digits % 10 = 0 then dropZeros bound ⟨d.digits / 10, d.exponent + 1⟩ else d

end Decimal

namespace Binary64

/-- The number nearest a decimal. Far outside the range of the format the answer does not depend on
the digits, and no power of ten is computed. -/
def ofDecimal (negative : Bool) (d : Decimal) : Binary64 :=
  if d.digits = 0 then .finite negative 0 (-1074)
  else if 400 < d.exponent then .infinite negative
  else if d.exponent < -(400 + d.digits.log2 : Int) then .finite negative 0 (-1074)
  else
    roundQuotient negative (d.digits * Nat.pow 10 d.exponent.toNat)
      (Nat.pow 10 (-d.exponent).toNat)

/-- The number of decimal places before the point of a positive quotient: the least `k` for which
the quotient is below `10 ^ k`, negative if zeros follow the point. -/
def decimalPlaces (num den : Nat) : Int :=
  let guess := Int.fdiv (floorLog2 num den * 30103) 100000
  let reaches (k : Int) : Bool := den * Nat.pow 10 k.toNat ≤ num * Nat.pow 10 (-k).toNat
  if reaches (guess + 1) then guess + 2
  else if reaches guess then guess + 1
  else guess

/-- Which of two decimals that are equally near a number is taken. -/
inductive Tie where
  /-- The one with the even last digit. -/
  | toEven
  /-- The larger one. -/
  | up
deriving DecidableEq

/-- The decimal at a power of ten that reads back as a positive number: one of the two neighbours on
that grid, the nearer one if both do. -/
def readsBackAt (tie : Tie) (significand : Nat) (exponent : Int) (unit : Int) : Option Decimal :=
  let (num, den) := quotient significand exponent
  let num := num * Nat.pow 10 (-unit).toNat
  let den := den * Nat.pow 10 unit.toNat
  let low := num / den
  let twice := 2 * (num % den)
  let readsBack (digits : Nat) : Bool :=
    ofDecimal false ⟨digits, unit⟩ == .finite false significand exponent
  let preferLow := twice < den || (twice == den && tie == .toEven && low % 2 == 0)
  let (first, second) := if preferLow then (low, low + 1) else (low + 1, low)
  if readsBack first then some ⟨first, unit⟩
  else if readsBack second then some ⟨second, unit⟩
  else none

/-- The decimal with all digits of a positive number. -/
def exactDecimal (significand : Nat) (exponent : Int) : Decimal :=
  if 0 ≤ exponent then ⟨significand * Nat.pow 2 exponent.toNat, 0⟩
  else ⟨significand * Nat.pow 5 (-exponent).toNat, exponent⟩

/-- The shortest decimal that reads back as a positive number. Seventeen digits are always enough,
so the exact decimal is never needed. -/
def shortest (tie : Tie) (significand : Nat) (exponent : Int) : Decimal :=
  let (num, den) := quotient significand exponent
  let places := decimalPlaces num den
  let found := (List.range 17).findSome? fun n =>
    readsBackAt tie significand exponent (places - (n + 1 : Nat))
  (found.getD (exactDecimal significand exponent)).dropZeros 20

/-! ## Reading -/

/-- An optional sign at the start of a text, and whether it is a minus. -/
def takeSign (cs : List Char) : Bool × List Char :=
  match cs with
  | '-' :: rest => (true, rest)
  | '+' :: rest => (false, rest)
  | _ => (false, cs)

/-- An exponent at the start of a text; a marker without digits is none. -/
def takeExponent (cs : List Char) : Int × List Char :=
  match cs with
  | [] => (0, cs)
  | marker :: rest =>
    if marker = 'e' || marker = 'E' then
      let (negative, rest) := takeSign rest
      let (digits, rest) := rest.span isDigit
      if digits.isEmpty then (0, cs)
      else
        let n : Int := Decimal.natOfDigits digits
        (if negative then -n else n, rest)
    else (0, cs)

/-- Digits with an optional point among them, at the start of a text, if there is a digit. -/
def takeDecimal (cs : List Char) : Option (Decimal × List Char) :=
  let (whole, rest) := cs.span isDigit
  let (part, rest) := match rest with
    | '.' :: rest => rest.span isDigit
    | _ => ([], rest)
  if whole.isEmpty && part.isEmpty then none
  else some (⟨Decimal.natOfDigits (whole ++ part), -(part.length : Int)⟩, rest)

/-- A number at the start of a text: a sign, digits with an optional point, and an exponent. -/
def take (cs : List Char) : Option (Binary64 × List Char) :=
  let (negative, rest) := takeSign cs
  (takeDecimal rest).map fun (decimal, rest) =>
    let (exponent, rest) := takeExponent rest
    (ofDecimal negative { decimal with exponent := decimal.exponent + exponent }, rest)

/-- The number that a whole text spells; the infinite and undefined values have names, in any
case. -/
def ofString? (s : String) : Option Binary64 :=
  match take s.toList with
  | some (x, []) => some x
  | _ =>
    let (negative, rest) := takeSign s.toList
    match String.ofList (lowerAscii rest) with
    | "inf" | "infinity" => some (.infinite negative)
    | "nan" => some (.nan negative)
    | _ => none

/-! ## A fixed number of places -/

/-- The text of a finite number with one decimal place. The exact value is rounded, a half to the
even neighbour. -/
def oneDecimalPlace (x : Binary64) : String :=
  match x with
  | .finite negative significand exponent =>
    let (num, den) := quotient significand exponent
    let tenths := divideToEven (10 * num) den
    (if negative then "-" else "") ++ toString (tenths / 10) ++ "." ++ toString (tenths % 10)
  | .infinite negative => if negative then "-inf" else "inf"
  | .nan _ => "NaN"

end Binary64

end SvgPress
