import JobConfig.Dynamic.Value
import JobConfig.Number.Integer
import JobConfig.Text.Printable

/-!
Dynamic values as text, in code points.

A text stands for itself. Every other value is shown, and within collections a text is shown too: in
quotes, with escapes for what is not printable.
-/
namespace JobConfig.Dynamic

def codes (s : String) : List Nat := s.toList.map Char.toNat

/-- Floats are positional from `1e-4` up to below `1e16`; an exponent carries its sign and has at
least two digits. -/
def floatLayout : FloatLayout := ⟨-3, 16, 2⟩

def floatText : Extended64 → String
  | .finite x => String.ofList (floatLayout.chars x)
  | .infinite negative => if negative then "-inf" else "inf"
  | .nan => "nan"

def hexEscape (letter : Char) (width n : Nat) : List Char :=
  let digits := Nat.toDigits 16 n
  '\\' :: letter :: (List.replicate (width - digits.length) '0' ++ digits)

/-- The quote around a text: the single one, unless only that one occurs in it. -/
def quoteFor (ns : List Nat) : Char :=
  if ns.contains '\''.toNat && !ns.contains '"'.toNat then '"' else '\''

/-- A code point that is written with a backslash whatever is around it. -/
def shortEscape? (quote : Char) (n : Nat) : Option (List Char) :=
  if n = quote.toNat then some ['\\', quote]
  else if n = '\\'.toNat then some ['\\', '\\']
  else if n = '\t'.toNat then some ['\\', 't']
  else if n = '\n'.toNat then some ['\\', 'n']
  else if n = '\r'.toNat then some ['\\', 'r']
  else none

def showCode (quote : Char) (n : Nat) : List Nat :=
  match shortEscape? quote n with
  | some e => e.map Char.toNat
  | none =>
    if Text.isPrintable n then [n]
    else
      let e := if n < 0x100 then hexEscape 'x' 2 n
        else if n < 0x10000 then hexEscape 'u' 4 n
        else hexEscape 'U' 8 n
      e.map Char.toNat

def showText (ns : List Nat) : List Nat :=
  let quote := quoteFor ns
  quote.toNat :: (ns.flatMap (showCode quote) ++ [quote.toNat])

/-- A byte within quotes; beyond the printable ASCII characters it is escaped. -/
def showByte (quote : Char) (n : Nat) : List Char :=
  match shortEscape? quote n with
  | some e => e
  | none => if n < 0x20 || 0x7f ≤ n then hexEscape 'x' 2 n else [Char.ofNat n]

/-- Bytes in quotes, after the letter that marks them. -/
def showBytes (bytes : List UInt8) : List Char :=
  let ns := bytes.map UInt8.toNat
  let quote := quoteFor ns
  'b' :: quote :: (ns.flatMap (showByte quote) ++ [quote])

namespace Value

mutual

def shown : Value → List Nat
  | none => codes "None"
  | bool b => codes (if b then "True" else "False")
  | integer n => codes (Integer.text n)
  | float x => codes (floatText x)
  | text ns => showText ns
  | bytes content => (showBytes content).map Char.toNat
  | list items => codes "[" ++ shownItems items ++ codes "]"
  | tuple [x] => codes "(" ++ x.shown ++ codes ",)"
  | tuple items => codes "(" ++ shownItems items ++ codes ")"
  | dict entries => codes "\x7b" ++ shownEntries entries ++ codes "\x7d"

def shownItems : List Value → List Nat
  | [] => []
  | [x] => x.shown
  | x :: rest => x.shown ++ codes ", " ++ shownItems rest

def shownEntries : List (Value × Value) → List Nat
  | [] => []
  | [(k, v)] => k.shown ++ codes ": " ++ v.shown
  | (k, v) :: rest => k.shown ++ codes ": " ++ v.shown ++ codes ", " ++ shownEntries rest

end

def asText : Value → List Nat
  | text ns => ns
  | v => v.shown

end Value

/-- The string of code points, unless there is a surrogate among them. -/
def stringOf? (ns : List Nat) : Option String :=
  if ns.all fun n => n.isValidChar then some (String.ofList (ns.map Char.ofNat)) else none

end JobConfig.Dynamic
