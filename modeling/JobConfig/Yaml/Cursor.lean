/-!
Positions in the characters of a YAML stream.

A cursor holds the characters still to be read together with the line and the column of the first
one, which indentation depends on.
-/
namespace JobConfig.Yaml

/-- Whether a stream may hold the character. -/
def isAllowed (c : Char) : Bool :=
  let n := c.toNat
  n == 0x9 || n == 0xA || n == 0xD || (0x20 ≤ n && n ≤ 0x7E) || n == 0x85 ||
    (0xA0 ≤ n && n ≤ 0xD7FF) || (0xE000 ≤ n && n ≤ 0xFFFD) || 0x10000 ≤ n

/-- The letters of names: ASCII letters and digits, the dash and the underscore. -/
def isNameChar (c : Char) : Bool :=
  c.isAlphanum || c == '-' || c == '_'

def isBlank (c : Char) : Bool :=
  c == ' ' || c == '\t'

def isBreak (c : Char) : Bool :=
  c == '\r' || c == '\n' || c == '\u0085' || c == '\u2028' || c == '\u2029'

structure Cursor where
  rest : List Char
  /-- The length of the stream, a bound on the steps of any walk through it. -/
  total : Nat
  index : Nat := 0
  line : Nat := 0
  column : Nat := 0

namespace Cursor

def peek? (c : Cursor) (n : Nat) : Option Char := c.rest[n]?

def atEnd (c : Cursor) : Bool := c.rest.isEmpty

def ahead (c : Cursor) (n : Nat) (p : Char → Bool) : Bool := (c.peek? n).any p

def sees (c : Cursor) (x : Char) : Bool := c.ahead 0 (· == x)

def breakOrEnd (c : Cursor) (n : Nat) : Bool := (c.peek? n).all isBreak

def blankOrEnd (c : Cursor) (n : Nat) : Bool := (c.peek? n).all fun x => isBlank x || isBreak x

/-- Moves `n` characters on within a line. -/
def skip (c : Cursor) (n : Nat) : Cursor :=
  { c with rest := c.rest.drop n, index := c.index + n, column := c.column + n }

def run (c : Cursor) (p : Char → Bool) : List Char := c.rest.takeWhile p

def skipWhile (c : Cursor) (p : Char → Bool) : Cursor := c.skip (c.run p).length

/-- Reads the end of a line, if there is one: a line feed stands for every kind but the separators
of lines and paragraphs, which stand for themselves. -/
def readBreak (c : Cursor) : List Char × Cursor :=
  let next := fun (rest : List Char) (n : Nat) =>
    { c with rest, index := c.index + n, line := c.line + 1, column := 0 }
  match c.rest with
  | '\r' :: '\n' :: rest => (['\n'], next rest 2)
  | x :: rest =>
    if x = '\u2028' ∨ x = '\u2029' then ([x], next rest 1)
    else if isBreak x then (['\n'], next rest 1)
    else ([], c)
  | [] => ([], c)

def skipBreak (c : Cursor) : Cursor := c.readBreak.2

/-- Moves behind blanks and a comment; the rest of the line must hold nothing else. -/
def skipRestOfLine? (c : Cursor) : Option Cursor :=
  let c := c.skipWhile isBlank
  let c := if c.sees '#' then c.skipWhile fun x => !isBreak x else c
  if c.breakOrEnd 0 then some c.skipBreak else none

/-- Whether three times `x` stands at the beginning of a line, and nothing joined to it. -/
def atMarker (c : Cursor) (x : Char) : Bool :=
  c.column == 0 && c.rest.take 3 == [x, x, x] && c.blankOrEnd 3

def atDocumentMarker (c : Cursor) : Bool := c.atMarker '-' || c.atMarker '.'

end Cursor

end JobConfig.Yaml
