import JobConfig.Number.Shortest

/-!
Binary64 numbers as text: a decimal literal read with one rounding, and the shortest digits laid out
by a format's rules.
-/
namespace JobConfig

namespace Decimal

def readExponent? : List Char → Option Int
  | '-' :: rest => unsigned? rest |>.map fun n => -(n : Int)
  | '+' :: rest => unsigned? rest |>.map fun n => (n : Int)
  | cs => unsigned? cs |>.map fun n => (n : Int)
where
  /-- The value of a text of one or more decimal digits. -/
  unsigned? (cs : List Char) : Option Nat :=
    if cs.isEmpty || !cs.all Char.isDigit then none else some (Nat.ofDigitChars 10 cs 0)

/-- Reads an unsigned literal: digits with at most one point among or beside them, and an optional
exponent. -/
def read? (cs : List Char) : Option Decimal :=
  let (whole, afterWhole) := cs.span Char.isDigit
  let (fraction, rest) :=
    match afterWhole with
    | '.' :: r => r.span Char.isDigit
    | r => ([], r)
  if whole.isEmpty && fraction.isEmpty then none
  else
    let shift? :=
      match rest with
      | [] => some 0
      | 'e' :: r => readExponent? r
      | 'E' :: r => readExponent? r
      | _ => none
    shift?.map fun shift =>
      ⟨Nat.ofDigitChars 10 (whole ++ fraction) 0, shift - fraction.length⟩

end Decimal

/-- How a format lays out the digits of a number: positionally while the decimal point falls within
a range of places, otherwise with an exponent of at least so many digits. -/
structure FloatLayout where
  lowestPoint : Int
  highestPoint : Int
  exponentWidth : Nat

namespace FloatLayout

def exponentChars (layout : FloatLayout) (exponent : Int) : List Char :=
  let digits := Nat.toDigits 10 exponent.natAbs
  (if exponent < 0 then '-' else '+') ::
    (List.replicate (layout.exponentWidth - digits.length) '0' ++ digits)

def decimalChars (layout : FloatLayout) (d : Decimal) : List Char :=
  let digits := d.chars
  let point := d.point
  if layout.lowestPoint ≤ point ∧ point ≤ layout.highestPoint then
    if point ≤ 0 then '0' :: '.' :: (List.replicate (-point).toNat '0' ++ digits)
    else if (digits.length : Int) ≤ point then
      digits ++ (List.replicate (point - digits.length).toNat '0' ++ ['.', '0'])
    else digits.take point.toNat ++ '.' :: digits.drop point.toNat
  else
    let mantissa :=
      match digits with
      | first :: second :: rest => first :: '.' :: second :: rest
      | short => short
    mantissa ++ 'e' :: layout.exponentChars (point - 1)

/-- The text of a number in its shortest digits; zero keeps its sign. -/
def chars (layout : FloatLayout) (x : Binary64) : List Char :=
  let magnitude := if x.isZero then ['0', '.', '0'] else layout.decimalChars x.shortest
  if x.negative then '-' :: magnitude else magnitude

end FloatLayout

end JobConfig
