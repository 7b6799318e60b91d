import JobConfig.Number.Literal

/-!
Values of a dynamically typed language, as they are passed to a config.

Text is a sequence of code points and may hold surrogates, which no string can. Numbers and truth
values are the same key of a dictionary when they are equal as numbers.
-/
namespace JobConfig.Dynamic

/-- A value of a dynamically typed language. -/
inductive Value where
  | none
  | bool (b : Bool)
  | integer (n : Int)
  | float (x : Extended64)
  | text (codePoints : List Nat)
  | bytes (content : List UInt8)
  | list (items : List Value)
  | tuple (items : List Value)
  | dict (entries : List (Value × Value))

namespace Value

instance : Inhabited Value := ⟨none⟩

def ofString (s : String) : Value := text (s.toList.map Char.toNat)

inductive Number where
  | integer (n : Int)
  | float (x : Extended64)

/-- The value as a number; true is one and false is zero. -/
def number? : Value → Option Number
  | bool b => some (.integer (if b then 1 else 0))
  | integer n => some (.integer n)
  | float x => some (.float x)
  | _ => Option.none

def isInteger (x : Binary64) (n : Int) : Bool :=
  let m : Int := if x.negative then -(x.mantissa : Int) else x.mantissa
  let power : Int := Nat.pow 2 x.exponent.natAbs
  if 0 ≤ x.exponent then m * power == n else m == n * power

def Number.same : Number → Number → Bool
  | .integer m, .integer n => m == n
  | .integer n, .float (.finite x) => isInteger x n
  | .float (.finite x), .integer n => isInteger x n
  | .float (.finite x), .float (.finite y) => x.sameValue y
  | .float (.infinite a), .float (.infinite b) => a == b
  | _, _ => false

mutual

/-- Whether two values are the same key of a dictionary. -/
def same : Value → Value → Bool
  | none, none => true
  | text s, text t => s == t
  | bytes s, bytes t => s == t
  | tuple xs, tuple ys => sameItems xs ys
  | x, y =>
    match x.number?, y.number? with
    | some m, some n => m.same n
    | _, _ => false

def sameItems : List Value → List Value → Bool
  | [], [] => true
  | x :: xs, y :: ys => same x y && sameItems xs ys
  | _, _ => false

end

/-- Puts an entry into a dictionary: a key that is there stays as it is and gets the new value. -/
def putEntry (k v : Value) : List (Value × Value) → List (Value × Value)
  | [] => [(k, v)]
  | e :: rest => if e.1.same k then (e.1, v) :: rest else e :: putEntry k v rest

def dictOf (entries : List (Value × Value)) : Value :=
  dict (entries.foldl (fun d e => putEntry e.1 e.2 d) [])

end Value

end JobConfig.Dynamic
