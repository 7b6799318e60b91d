/-!
Integers as text: decimal writing, and reading within a range.

Reading goes from left to right and stops at the first fault, so a digit that leads out of the range
is reported before a wrong character behind it.
-/
namespace JobConfig

inductive IntegerFault where
  | empty
  | invalidDigit
  | tooLarge
  | tooSmall
deriving DecidableEq, Repr

def IntegerFault.message : IntegerFault → String
  | .empty => "cannot parse integer from empty string"
  | .invalidDigit => "invalid digit found in string"
  | .tooLarge => "number too large to fit in target type"
  | .tooSmall => "number too small to fit in target type"

namespace Integer

def chars : Int → List Char
  | .ofNat n => Nat.toDigits 10 n
  | .negSucc n => '-' :: Nat.toDigits 10 (n + 1)

def text (n : Int) : String :=
  String.ofList (chars n)

/-- The value of a digit in a radix up to 36, letters in either case. -/
def digit? (radix : Nat) (c : Char) : Option Nat :=
  let value :=
    if '0' ≤ c ∧ c ≤ '9' then some (c.toNat - '0'.toNat)
    else if 'a' ≤ c ∧ c ≤ 'z' then some (c.toNat - 'a'.toNat + 10)
    else if 'A' ≤ c ∧ c ≤ 'Z' then some (c.toNat - 'A'.toNat + 10)
    else none
  value.filter (· < radix)

/-- Reads digits after the value `acc`; a value above `limit` is the fault `beyond`. -/
def readDigits (radix limit : Nat) (beyond : IntegerFault) (acc : Nat) :
    List Char → Except IntegerFault Nat
  | [] => .ok acc
  | c :: rest =>
    match digit? radix c with
    | none => .error .invalidDigit
    | some d =>
      if limit < acc * radix + d then .error beyond
      else readDigits radix limit beyond (acc * radix + d) rest

def read (low high : Int) : List Char → Except IntegerFault Int
  | [] => .error .empty
  | '-' :: rest =>
    if rest.isEmpty then .error .invalidDigit
    else (readDigits 10 (-low).toNat .tooSmall 0 rest).map fun n => -(n : Int)
  | '+' :: rest =>
    if rest.isEmpty then .error .invalidDigit
    else (readDigits 10 high.toNat .tooLarge 0 rest).map fun n => (n : Int)
  | cs => (readDigits 10 high.toNat .tooLarge 0 cs).map fun n => (n : Int)

end Integer

end JobConfig
