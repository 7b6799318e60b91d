import JobConfig.Number.Binary64

/-!
The shortest decimal digits that read back as a binary64 number.

The reals that round to a number form an interval around it, ends included exactly when the mantissa
is even. On the grid of decimals with `n` significant digits only the two neighbours of the number
can be nearest to it; the first `n` for which one of them lies in the interval decides, the nearer
neighbour is taken, and the even one on a tie. Seventeen digits always suffice.
-/
namespace JobConfig

/-- A positive decimal `digits · 10^exponent`. -/
structure Decimal where
  digits : Nat
  exponent : Int
deriving DecidableEq, Repr

namespace Decimal

def chars (d : Decimal) : List Char :=
  Nat.toDigits 10 d.digits

/-- The place of the decimal point, counted from before the first digit. -/
def point (d : Decimal) : Int :=
  d.chars.length + d.exponent

def dropZeros : Nat → Decimal → Decimal
  | 0, d => d
  | fuel + 1, d =>
    if d.digits % 10 = 0 then dropZeros fuel ⟨d.digits / 10, d.exponent + 1⟩ else d

end Decimal

namespace Binary64

/-- Four times a number and the ends of its interval, over a common denominator. -/
structure Interval where
  low : Nat
  value : Nat
  high : Nat
  den : Nat
  closed : Bool

/-- The interval of reals that round to the number. Below a power of two the numbers lie twice as
close, so the lower half is half as wide. -/
def interval (x : Binary64) : Interval :=
  let value := 4 * x.mantissa
  let below := if x.mantissa = 0x10000000000000 ∧ -1074 < x.exponent then 1 else 2
  let scale := Nat.pow 2 (x.exponent - 2).toNat
  { low := (value - below) * scale
    value := value * scale
    high := (value + 2) * scale
    den := Nat.pow 2 (2 - x.exponent).toNat
    closed := x.mantissa % 2 == 0 }

namespace Interval

/-- The decimals `digits · 10^exponent` in the units of the interval: a factor for the digits and
one for the ends. -/
def scales (i : Interval) (exponent : Int) : Nat × Nat :=
  (i.den * Nat.pow 10 exponent.toNat, Nat.pow 10 (-exponent).toNat)

def holds (i : Interval) (digits : Nat) (exponent : Int) : Bool :=
  let (s, t) := i.scales exponent
  let d := digits * s
  if i.closed then i.low * t ≤ d && d ≤ i.high * t else i.low * t < d && d < i.high * t

/-- The digits of the neighbour below the value on the grid of `10^exponent`, and whether the one
above is nearer, a tie going to the even one. -/
def below (i : Interval) (exponent : Int) : Nat × Bool :=
  let (s, t) := i.scales exponent
  let n := i.value * t
  let q := n / s
  let twice := 2 * (n % s)
  (q, s < twice || (twice == s && q % 2 == 1))

/-- The point of the grid of `10^exponent` that is nearest to the value among the neighbours in the
interval. -/
def nearest? (i : Interval) (exponent : Int) : Option Nat :=
  let (q, up) := i.below exponent
  match i.holds q exponent && q != 0, i.holds (q + 1) exponent with
  | true, true => some (if up then q + 1 else q)
  | true, false => some q
  | false, true => some (q + 1)
  | false, false => none

def search (i : Interval) : Nat → Int → Decimal
  | 0, exponent => ⟨(i.below exponent).1, exponent⟩
  | count + 1, exponent =>
    match i.nearest? exponent with
    | some digits => ⟨digits, exponent⟩
    | none => search i count (exponent - 1)

end Interval

/-- An exponent of ten at or above the place of the first digit of the value. -/
def leadingPlace (x : Binary64) : Int :=
  -- the logarithm of two to the base ten is a little below 30103 / 100000
  ((x.mantissa.log2 : Int) + 1 + x.exponent) * 30103 / 100000 + 1

/-- The shortest decimal that reads back as the magnitude of a number other than zero. -/
def shortest (x : Binary64) : Decimal :=
  (x.interval.search 20 x.leadingPlace).dropZeros 20

end Binary64

end JobConfig
