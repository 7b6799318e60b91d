import JobConfig.Yaml.Value

/-!
What the text of a plain scalar stands for.
-/
namespace JobConfig.Yaml

def isNull (s : String) : Bool :=
  s == "null" || s == "Null" || s == "NULL" || s == "~"

def boolOf? (s : String) : Option Bool :=
  if s == "true" || s == "True" || s == "TRUE" then some true
  else if s == "false" || s == "False" || s == "FALSE" then some false
  else none

def dropPlus : List Char → List Char
  | '+' :: rest => rest
  | cs => cs

def startsWithSign : List Char → Bool
  | '+' :: _ => true
  | '-' :: _ => true
  | _ => false

/-- Whether the characters are digits with a needless zero at the front, which is no number. -/
def isZeroFilled (cs : List Char) : Bool :=
  let digits := match cs with
    | '-' :: rest => rest
    | '+' :: rest => rest
    | cs => cs
  1 < digits.length && digits.head? == some '0' && digits.all Char.isDigit

def digitsOf? (radix limit : Nat) (cs : List Char) : Option Nat :=
  if cs.isEmpty then none
  else (Integer.readDigits radix limit .tooLarge 0 cs).toOption

/-- The radix that two characters at the front announce, and the digits behind them. -/
def radixPrefix? : List Char → Option (Nat × List Char)
  | '0' :: 'x' :: rest => some (16, rest)
  | '0' :: 'o' :: rest => some (8, rest)
  | '0' :: 'b' :: rest => some (2, rest)
  | _ => none

def unsignedOf? (limit : Nat) (cs : List Char) : Option Nat :=
  let digits := dropPlus cs
  let announced := (radixPrefix? digits).bind fun r => digitsOf? r.1 limit r.2
  match announced with
  | some n => some n
  | none =>
    if startsWithSign digits || isZeroFilled cs then none else digitsOf? 10 limit digits

def negativeOf? (limit : Nat) : List Char → Option Nat
  | '-' :: digits =>
    let announced := (radixPrefix? digits).bind fun r => digitsOf? r.1 limit r.2
    match announced with
    | some n => some n
    | none => if isZeroFilled ('-' :: digits) then none else digitsOf? 10 limit digits
  | _ => none

inductive IntegerText where
  | value (n : WideInt)
  /-- An integer of more than 64 and at most 128 bits. -/
  | tooWide
  | none

/-- Reads an integer: unsigned ones and then negative ones of 64 bits, then those of 128 bits. -/
def integerOf (cs : List Char) : IntegerText :=
  let whole := match unsignedOf? 0xffffffffffffffff cs with
    | some n => WideInt.ofInt? n
    | Option.none => (negativeOf? 0x8000000000000000 cs).bind fun n => WideInt.ofInt? (-(n : Int))
  match whole with
  | some n => .value n
  | Option.none =>
    let wide := (unsignedOf? (Nat.pow 2 128 - 1) cs).or (negativeOf? (Nat.pow 2 127) cs)
    if wide.isSome then .tooWide else .none

/-- Reads a float: infinity and what is no number by name, or a finite decimal. -/
def floatOf? (cs : List Char) : Option Extended64 :=
  let s := String.ofList cs
  let unsigned := dropPlus cs
  let isInfinity := fun (s : String) => s == ".inf" || s == ".Inf" || s == ".INF"
  if cs.head? == some '+' && startsWithSign unsigned then none
  else if isInfinity (String.ofList unsigned) then some (.infinite false)
  else if cs.head? == some '-' && isInfinity (String.ofList (cs.drop 1)) then some (.infinite true)
  else if s == ".nan" || s == ".NaN" || s == ".NAN" then some .nan
  else
    let (negative, digits) := match unsigned with
      | '-' :: rest => (true, rest)
      | rest => (false, rest)
    match (Decimal.read? digits).map fun d => Extended64.ofDecimal negative d.digits d.exponent with
    | some (.finite x) => some (.finite x)
    | _ => none

/-- What a plain scalar without a tag stands for. An integer of more than 64 bits is refused. -/
def plainValue? (text : String) : Option Value :=
  if text.isEmpty || isNull text then some .null
  else
    match boolOf? text with
    | some b => some (.bool b)
    | none =>
      match integerOf text.toList with
      | .value n => some (.integer n)
      | .tooWide => none
      | .none =>
        match if isZeroFilled text.toList then none else floatOf? text.toList with
        | some x => some (.float x)
        | none => some (.string text)

end JobConfig.Yaml
