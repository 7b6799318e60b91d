import JobConfig.Json.Fault
import JobConfig.Text.Utf8

/-!
Reading JSON values.

A reader takes characters and gives a value together with the characters behind it. Nesting is
limited by a count of levels that shrinks at every bracket, and every list and object is read with
its remaining length as a bound on the number of its parts, so all readers are total.
-/
namespace JobConfig.Json

abbrev Read (α : Type) := List Char → Except Fault (α × List Char)

def isSpace (c : Char) : Bool :=
  c == ' ' || c == '\n' || c == '\t' || c == '\r'

def skipSpace (cs : List Char) : List Char :=
  cs.dropWhile isSpace

def readWord : List Char → List Char → Except Fault (List Char)
  | [], rest => .ok rest
  | _ :: _, [] => .error .endOfValue
  | w :: word, c :: rest => if c = w then readWord word rest else .error .expectedIdent

/-! ### Strings -/

def simpleEscape? (c : Char) : Option Char :=
  if c = '"' then some '"'
  else if c = '\\' then some '\\'
  else if c = '/' then some '/'
  else if c = 'b' then some '\x08'
  else if c = 'f' then some '\x0c'
  else if c = 'n' then some '\n'
  else if c = 'r' then some '\r'
  else if c = 't' then some '\t'
  else none

def hexValue? (digits : List Char) : Option Nat :=
  digits.foldl (fun acc c => acc.bind fun n => (Integer.digit? 16 c).map (n * 16 + ·)) (some 0)

/-- Reads four hexadecimal digits. Fewer than four bytes are an unfinished string. -/
def readHex (cs : List Char) : Except Fault (Nat × List Char) :=
  let four := cs.take 4
  match if four.length = 4 then hexValue? four else none with
  | some n => .ok (n, cs.drop 4)
  | none =>
    if (Utf8.encodeChars four).length < 4 then .error .endOfString else .error .invalidEscape

/-- Reads what follows `\u`: one code unit, or two that form a surrogate pair. -/
def readUnicode (cs : List Char) : Except Fault (Char × List Char) :=
  match readHex cs with
  | .error e => .error e
  | .ok (n, rest) =>
    if 0xDC00 ≤ n ∧ n ≤ 0xDFFF then .error .loneSurrogate
    else if 0xD800 ≤ n ∧ n ≤ 0xDBFF then
      match rest with
      | [] => .error .endOfString
      | ['\\'] => .error .endOfString
      | '\\' :: 'u' :: rest =>
        match readHex rest with
        | .error e => .error e
        | .ok (m, rest) =>
          if m < 0xDC00 ∨ 0xDFFF < m then .error .loneSurrogate
          else .ok (Char.ofNat (0x10000 + (n - 0xD800) * 0x400 + (m - 0xDC00)), rest)
      | _ => .error .endOfEscape
    else .ok (Char.ofNat n, rest)

def readEscape : List Char → Except Fault (Char × List Char)
  | [] => .error .endOfString
  | c :: rest =>
    if c = 'u' then readUnicode rest
    else match simpleEscape? c with
      | some x => .ok (x, rest)
      | none => .error .invalidEscape

/-- Reads one character of a string, or its closing quote. -/
def readUnit : List Char → Except Fault (Option Char × List Char)
  | [] => .error .endOfString
  | c :: rest =>
    if c = '"' then .ok (none, rest)
    else if c = '\\' then (readEscape rest).map fun r => (some r.1, r.2)
    else if c.toNat < 0x20 then .error .controlCharacter
    else .ok (some c, rest)

/-- Reads at most `bound` characters of a string and its closing quote, after those in `acc`. -/
def readUnits (acc : List Char) : Nat → List Char → Except Fault (String × List Char)
  | 0, _ => .error .endOfString
  | bound + 1, cs =>
    match readUnit cs with
    | .error e => .error e
    | .ok (none, rest) => .ok (String.ofList acc.reverse, rest)
    | .ok (some c, rest) => readUnits (c :: acc) bound rest

def readString : Read String := fun cs =>
  readUnits [] cs.length cs

/-! ### Numbers -/

inductive Numeral where
  | integer (n : WideInt)
  | float (x : Binary64)
deriving DecidableEq

def Numeral.toJson : Numeral → Json
  | .integer n => .integer n
  | .float x => .float x

def Numeral.found : Numeral → Found
  | .integer n => .integer n.val
  | .float x => .float x

/-- The largest significand; digits that lead beyond it no longer count. -/
def maxSignificand : Nat := 0xffffffffffffffff

/-- Scales a number by a power of ten: one multiplication or division by a power up to `10^308`,
after divisions by `10^308` for smaller ones. -/
def scaleByTen (x : Binary64) (exponent : Int) : Except Fault Binary64 :=
  if exponent.natAbs ≤ 308 then
    match if 0 ≤ exponent then x.mul? (Binary64.tenPow exponent.natAbs)
      else x.div? (Binary64.tenPow exponent.natAbs) with
    | some y => .ok y
    | none => .error .numberOutOfRange
  else if x.isZero then .ok x
  else if 0 ≤ exponent then .error .numberOutOfRange
  else scaleByTen ((x.div? (Binary64.tenPow 308)).getD x) (exponent + 308)
termination_by (-exponent).toNat
decreasing_by omega

def floatOfParts (negative : Bool) (significand : Nat) (exponent : Int) : Except Fault Numeral :=
  (scaleByTen (Binary64.ofNat significand) exponent).map fun x =>
    .float (if negative then x.neg else x)

/-- Reads the exponent behind its letter. An exponent beyond 31 bits gives zero or no number. -/
def readExponent (negative : Bool) (significand : Nat) (start : Int) (cs : List Char) :
    Except Fault (Numeral × List Char) :=
  let (below, cs) :=
    match cs with
    | '+' :: rest => (false, rest)
    | '-' :: rest => (true, rest)
    | cs => (false, cs)
  match cs with
  | [] => .error .endOfValue
  | c :: _ =>
    if !c.isDigit then .error .invalidNumber
    else
      let shift := Nat.ofDigitChars 10 (cs.takeWhile Char.isDigit) 0
      let rest := cs.dropWhile Char.isDigit
      if 0x80000000 ≤ shift then
        if significand ≠ 0 ∧ !below then .error .numberOutOfRange
        else .ok (.float (Binary64.zero negative), rest)
      else
        let exponent := if below then start - shift else start + shift
        (floatOfParts negative significand exponent).map fun x => (x, rest)

def endFloat (negative : Bool) (significand : Nat) (exponent : Int) (cs : List Char) :
    Except Fault (Numeral × List Char) :=
  match cs with
  | 'e' :: rest => readExponent negative significand exponent rest
  | 'E' :: rest => readExponent negative significand exponent rest
  | rest => (floatOfParts negative significand exponent).map fun x => (x, rest)

/-- Takes digits into the significand, up to the first one that leads beyond the largest; gives the
significand, the number of digits taken and the rest. -/
def takeDigits (significand count : Nat) : List Char → Nat × Nat × List Char
  | [] => (significand, count, [])
  | c :: rest =>
    let next := significand * 10 + (c.toNat - '0'.toNat)
    if c.isDigit ∧ next ≤ maxSignificand then takeDigits next (count + 1) rest
    else (significand, count, c :: rest)

def startsWithDigit : List Char → Bool
  | [] => false
  | c :: _ => c.isDigit

/-- Reads the fraction behind its point; digits beyond the largest significand are dropped. -/
def readFraction (negative : Bool) (significand : Nat) (start : Int) (cs : List Char) :
    Except Fault (Numeral × List Char) :=
  let (significand, count, rest) := takeDigits significand 0 cs
  if startsWithDigit rest then
    endFloat negative significand (start - count) (rest.dropWhile Char.isDigit)
  else if count = 0 then
    if rest.isEmpty then .error .endOfValue else .error .invalidNumber
  else endFloat negative significand (start - count) rest

/-- Goes on behind the integer digits: a fraction, an exponent, or the end of the number. Without
the first two the number is an integer if it is in range; minus zero is a float. -/
def endInteger (negative : Bool) (significand : Nat) (cs : List Char) :
    Except Fault (Numeral × List Char) :=
  match cs with
  | '.' :: rest => readFraction negative significand 0 rest
  | 'e' :: rest => readExponent negative significand 0 rest
  | 'E' :: rest => readExponent negative significand 0 rest
  | rest =>
    let n : Int := if negative then -(significand : Int) else significand
    let whole := if negative ∧ significand = 0 then none else WideInt.ofInt? n
    match whole with
    | some n => .ok (.integer n, rest)
    | none => (floatOfParts negative significand 0).map fun x => (x, rest)

/-- Reads a number behind its sign. Further integer digits of one with too many count as zeros. -/
def readUnsigned (negative : Bool) (cs : List Char) : Except Fault (Numeral × List Char) :=
  match cs with
  | [] => .error .endOfValue
  | c :: rest =>
    if !c.isDigit then .error .invalidNumber
    else if c = '0' then
      if startsWithDigit rest then .error .invalidNumber else endInteger negative 0 rest
    else
      let (significand, _, rest) := takeDigits 0 0 cs
      if startsWithDigit rest then
        let dropped := (rest.takeWhile Char.isDigit).length
        match rest.dropWhile Char.isDigit with
        | '.' :: rest => readFraction negative significand dropped rest
        | rest => endFloat negative significand dropped rest
      else endInteger negative significand rest

def readNumber : List Char → Except Fault (Numeral × List Char)
  | '-' :: rest => readUnsigned true rest
  | cs => readUnsigned false cs

/-! ### Lists and objects -/

/-- Looks for the next item of a list: `true` with the characters at the item, or `false` with those
behind the closing bracket. -/
def nextItem (first : Bool) (cs : List Char) : Except Fault (Bool × List Char) :=
  match skipSpace cs with
  | [] => .error .endOfList
  | c :: rest =>
    if c = ']' then .ok (false, rest)
    else if first then .ok (true, c :: rest)
    else if c = ',' then
      match skipSpace rest with
      | [] => .error .endOfValue
      | d :: rest => if d = ']' then .error .trailingComma else .ok (true, d :: rest)
    else .error .expectedListEnd

def readItems {α : Type} (item : Read α) :
    Nat → Bool → List Char → Except Fault (List α × List Char)
  | 0, _, _ => .error .endOfList
  | bound + 1, first, cs =>
    match nextItem first cs with
    | .error e => .error e
    | .ok (false, rest) => .ok ([], rest)
    | .ok (true, rest) =>
      match item rest with
      | .error e => .error e
      | .ok (x, rest) => (readItems item bound false rest).map fun r => (x :: r.1, r.2)

def readList {α : Type} (item : Read α) : Read (List α) := fun cs =>
  readItems item cs.length true cs

def readKey : List Char → Except Fault (Option String × List Char)
  | '"' :: rest => (readString rest).map fun r => (some r.1, r.2)
  | _ => .error .keyNotString

def nextKey (first : Bool) (cs : List Char) : Except Fault (Option String × List Char) :=
  match skipSpace cs with
  | [] => .error .endOfObject
  | c :: rest =>
    if c = '}' then .ok (none, rest)
    else if first then readKey (c :: rest)
    else if c = ',' then
      match skipSpace rest with
      | [] => .error .endOfValue
      | d :: rest => if d = '}' then .error .trailingComma else readKey (d :: rest)
    else .error .expectedObjectEnd

def readColon (cs : List Char) : Except Fault (List Char) :=
  match skipSpace cs with
  | [] => .error .endOfObject
  | c :: rest => if c = ':' then .ok rest else .error .expectedColon

def readMembers {α : Type} (value : Read α) :
    Nat → Bool → List Char → Except Fault (List (String × α) × List Char)
  | 0, _, _ => .error .endOfObject
  | bound + 1, first, cs =>
    match nextKey first cs with
    | .error e => .error e
    | .ok (none, rest) => .ok ([], rest)
    | .ok (some key, rest) =>
      match readColon rest with
      | .error e => .error e
      | .ok rest =>
        match value rest with
        | .error e => .error e
        | .ok (x, rest) => (readMembers value bound false rest).map fun r => ((key, x) :: r.1, r.2)

def readObject {α : Type} (value : Read α) : Read (List (String × α)) := fun cs =>
  readMembers value cs.length true cs

/-! ### Values -/

/-- Reads a value, the parts of a list or an object by `nested`; without `nested` there may be
neither. -/
def readValueWith (nested : Option (Read Json)) : Read Json := fun cs =>
  match skipSpace cs with
  | [] => .error .endOfValue
  | c :: rest =>
    if c = 'n' then (readWord ['u', 'l', 'l'] rest).map fun r => (.null, r)
    else if c = 't' then (readWord ['r', 'u', 'e'] rest).map fun r => (.bool true, r)
    else if c = 'f' then (readWord ['a', 'l', 's', 'e'] rest).map fun r => (.bool false, r)
    else if c = '"' then (readString rest).map fun r => (.string r.1, r.2)
    else if c = '[' then
      match nested with
      | none => .error .tooDeep
      | some item => (readList item rest).map fun r => (.array r.1, r.2)
    else if c = '{' then
      match nested with
      | none => .error .tooDeep
      | some value => (readObject value rest).map fun r => (.ofMembers r.1, r.2)
    else if c = '-' || c.isDigit then
      (readNumber (c :: rest)).map fun r => (r.1.toJson, r.2)
    else .error .expectedValue

/-- Reads a value with at most `depth` levels of lists and objects. -/
def readValue : Nat → Read Json
  | 0 => readValueWith none
  | depth + 1 => readValueWith (some (readValue depth))

def maxDepth : Nat := 127

/-- Reads a whole text, with nothing but space behind the value. -/
def readAll {α : Type} (read : Read α) (text : String) : Except Fault α :=
  match read text.toList with
  | .error e => .error e
  | .ok (x, rest) => if (skipSpace rest).isEmpty then .ok x else .error .trailingCharacters

def parse (text : String) : Except Fault Json :=
  readAll (readValue maxDepth) text

end JobConfig.Json
