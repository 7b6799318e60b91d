/-!
Binary floating-point numbers of 64 bits, as exact values.

A finite number is a sign, a mantissa below `2^53` and a power of two, in the one form the format
gives each value. Arithmetic is exact arithmetic on natural numbers followed by one rounding, to the
nearest number and to the even mantissa on a tie. A result too large for the format is `none`.
-/
namespace JobConfig

/-- The mantissas and exponents the format writes: normal ones fill all 53 bits of the mantissa, the
others have the smallest exponent. -/
def Binary64.Canonical (mantissa : Nat) (exponent : Int) : Prop :=
  mantissa < 0x20000000000000 ∧ -1074 ≤ exponent ∧ exponent ≤ 971 ∧
    (0x10000000000000 ≤ mantissa ∨ exponent = -1074)

instance (mantissa : Nat) (exponent : Int) : Decidable (Binary64.Canonical mantissa exponent) := by
  unfold Binary64.Canonical
  infer_instance

/-- A finite binary64 number, `mantissa · 2^exponent` with a sign. -/
structure Binary64 where
  negative : Bool
  mantissa : Nat
  exponent : Int
  canonical : Binary64.Canonical mantissa exponent
deriving DecidableEq

namespace Binary64

def zero (negative : Bool) : Binary64 :=
  ⟨negative, 0, -1074, by decide⟩

instance : Inhabited Binary64 := ⟨zero false⟩

def isZero (x : Binary64) : Bool :=
  x.mantissa == 0

def neg (x : Binary64) : Binary64 :=
  { x with negative := !x.negative }

/-- Equality of values, for which the two zeros are one. -/
def sameValue (x y : Binary64) : Bool :=
  (x.isZero && y.isZero) || decide (x = y)

/-- The quotient rounded to the nearest integer, to the even one on a tie. -/
def roundQuotient (num den : Nat) : Nat :=
  let q := num / den
  let twice := 2 * (num % den)
  if den < twice ∨ (twice = den ∧ q % 2 = 1) then q + 1 else q

def inUnits (num den : Nat) (exponent : Int) : Nat × Nat :=
  if 0 ≤ exponent then (num, den * Nat.pow 2 exponent.toNat)
  else (num * Nat.pow 2 (-exponent).toNat, den)

/-- The exponent at which the ratio fills 53 bits, or the smallest exponent of the format. -/
def exponentOf (num den : Nat) : Int :=
  let guess : Int := (num.log2 : Int) - den.log2 - 52
  let (n, d) := inUnits num den guess
  max (if n / d < 0x10000000000000 then guess - 1 else guess) (-1074)

/-- The number nearest to `num / den`. -/
def ofRatio? (negative : Bool) (num den : Nat) : Option Binary64 :=
  if num = 0 then some (zero negative)
  else
    let exponent := exponentOf num den
    let (n, d) := inUnits num den exponent
    let mantissa := roundQuotient n d
    if h : Canonical mantissa exponent then some ⟨negative, mantissa, exponent, h⟩
    else if h : Canonical (mantissa / 2) (exponent + 1) then
      some ⟨negative, mantissa / 2, exponent + 1, h⟩
    else none

def ofScaled? (negative : Bool) (mantissa den : Nat) (exponent : Int) : Option Binary64 :=
  if 0 ≤ exponent then ofRatio? negative (mantissa * Nat.pow 2 exponent.toNat) den
  else ofRatio? negative mantissa (den * Nat.pow 2 (-exponent).toNat)

/-- The number nearest to a natural number below the largest finite one. -/
def ofNat (n : Nat) : Binary64 :=
  (ofRatio? false n 1).getD (zero false)

def mul? (x y : Binary64) : Option Binary64 :=
  ofScaled? (x.negative != y.negative) (x.mantissa * y.mantissa) 1 (x.exponent + y.exponent)

def div? (x y : Binary64) : Option Binary64 :=
  ofScaled? (x.negative != y.negative) x.mantissa y.mantissa (x.exponent - y.exponent)

/-- The number nearest to `10^n`, for `n` up to 308. -/
def tenPow (n : Nat) : Binary64 :=
  ofNat (Nat.pow 10 n)

/-- The number nearest to `digits · 10^exponent`.

The exponent is compared with the count of digits first, so that no power beyond the range of the
format is formed. -/
def ofDecimal? (negative : Bool) (digits : Nat) (exponent : Int) : Option Binary64 :=
  if digits = 0 then some (zero negative)
  else
    let magnitude : Int := (Nat.toDigits 10 digits).length + exponent
    if 310 < magnitude then none
    else if magnitude < -330 then some (zero negative)
    else if 0 ≤ exponent then ofRatio? negative (digits * Nat.pow 10 exponent.toNat) 1
    else ofRatio? negative digits (Nat.pow 10 (-exponent).toNat)

end Binary64

/-- A binary64 number or one of the values that are no number on the line. -/
inductive Extended64 where
  | finite (x : Binary64)
  | infinite (negative : Bool)
  | nan
deriving DecidableEq

namespace Extended64

/-- The value nearest to `digits · 10^exponent`, infinite when that is beyond the largest number. -/
def ofDecimal (negative : Bool) (digits : Nat) (exponent : Int) : Extended64 :=
  match Binary64.ofDecimal? negative digits exponent with
  | some x => .finite x
  | none => .infinite negative

end Extended64

end JobConfig
