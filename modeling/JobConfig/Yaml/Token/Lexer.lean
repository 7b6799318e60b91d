import JobConfig.Yaml.Token.Scalar
import JobConfig.Yaml.Token.Tag

/-!
YAML text as tokens.

Indentation opens and closes collections, so the lexer keeps the columns of those that are open. A
mapping key is recognised only by the colon behind it; the place where one might have begun is kept
as a pending key, and the tokens that announce it are put in there when the colon comes.
-/
namespace JobConfig.Yaml

/-- A place where a mapping key may have begun. -/
structure PendingKey where
  /-- The number of tokens in front of it. -/
  number : Nat
  index : Nat
  line : Nat
  column : Nat
  /-- Whether nothing but a key may stand there. -/
  required : Bool

/-- The state between two tokens. -/
structure Lexer where
  cursor : Cursor
  tokens : Array Token := #[]
  /-- The column of the innermost block collection, if there is one. -/
  indent : Option Nat := none
  /-- The columns of the collections around it. -/
  outer : List (Option Nat) := []
  /-- Whether a key may begin here. -/
  keyAllowed : Bool := true
  /-- The pending key of the innermost flow collection, or of the block. -/
  pending : Option PendingKey := none
  /-- The pending keys around the open flow collections, the innermost first. -/
  around : List (Option PendingKey) := []

namespace Lexer

def inFlow (s : Lexer) : Bool := !s.around.isEmpty

def emit (s : Lexer) (t : Token) : Lexer := { s with tokens := s.tokens.push t }

def emitHere (s : Lexer) (t : Token) (width : Nat) : Lexer :=
  { s.emit t with cursor := s.cursor.skip width }

def emitAt (s : Lexer) (number : Nat) (t : Token) : Lexer :=
  { s with tokens := s.tokens.insertIdxIfInBounds number t }

/-! ### Pending keys -/

/-- Gives up a pending key, unless it is required. -/
def dropKey? (s : Lexer) : Option Lexer :=
  if s.pending.any (·.required) then none else some { s with pending := none }

def saveKey? (s : Lexer) : Option Lexer :=
  if s.keyAllowed then do
    let s ← s.dropKey?
    let c := s.cursor
    let required := !s.inFlow && s.indent == some c.column
    return { s with pending := some ⟨s.tokens.size, c.index, c.line, c.column, required⟩ }
  else some s

/-- Whether a key that began at `k` can no longer end at `c`: it must be on one line and take up at
most 1024 characters. -/
def isStale (c : Cursor) (k : PendingKey) : Bool :=
  k.line < c.line || k.index + 1024 < c.index

def dropStale? (s : Lexer) : Option Lexer :=
  let stale := fun (k : Option PendingKey) => k.any (isStale s.cursor)
  let lost := fun (k : Option PendingKey) => k.any fun k => isStale s.cursor k && k.required
  if (s.pending :: s.around).any lost then none
  else
    let fresh := fun (k : Option PendingKey) => if stale k then none else k
    some { s with pending := fresh s.pending, around := s.around.map fresh }

/-! ### Indentation -/

/-- Opens a block collection at a column beyond the present ones; its token goes to the given place,
or to the end. -/
def openBlock (s : Lexer) (column : Nat) (number : Option Nat) (t : Token) : Lexer :=
  if s.inFlow || s.indent.any (column ≤ ·) then s
  else
    let s := match number with
      | some number => s.emitAt number t
      | none => s.emit t
    { s with indent := some column, outer := s.indent :: s.outer }

def closeBlocks (s : Lexer) (column : Option Nat) : Lexer :=
  if s.inFlow then s
  else go s (s.outer.length + 1)
where
  /-- Closes at most `bound` collections. -/
  go (s : Lexer) : Nat → Lexer
    | 0 => s
    | bound + 1 =>
      match s.indent with
      | none => s
      | some n =>
        if column.all (· < n) then
          go { s.emit .blockEnd with indent := s.outer.head?.join, outer := s.outer.drop 1 } bound
        else s

/-! ### Tokens -/

/-- Moves to the next token: over spaces, comments and line breaks, over tabs where they do not
indent, and over a byte order mark at the beginning of a line, which takes up a column. -/
def toNext : Nat → Lexer → Lexer
  | 0, s => s
  | bound + 1, s =>
    let c := s.cursor
    let c := if c.column = 0 ∧ c.sees '\uFEFF' then c.skip 1 else c
    let c := c.skipWhile fun x => x == ' ' || ((s.inFlow || !s.keyAllowed) && x == '\t')
    let c := if c.sees '#' then c.skipWhile fun x => !isBreak x else c
    if c.ahead 0 isBreak then
      toNext bound { s with cursor := c.skipBreak, keyAllowed := s.keyAllowed || !s.inFlow }
    else { s with cursor := c }

/-- Begins again at the left margin, for a directive or the mark of a document. -/
def atMargin? (s : Lexer) : Option Lexer := do
  let s ← (s.closeBlocks none).dropKey?
  return { s with keyAllowed := false }

def openFlow? (s : Lexer) (t : Token) : Option Lexer := do
  let s ← s.saveKey?
  let s := { s with around := s.pending :: s.around, pending := none, keyAllowed := true }
  return s.emitHere t 1

def closeFlow? (s : Lexer) (t : Token) : Option Lexer := do
  let s ← s.dropKey?
  let s := match s.around with
    | [] => s
    | pending :: around => { s with pending, around }
  return { s with keyAllowed := false }.emitHere t 1

def blockEntry? (s : Lexer) : Option Lexer := do
  if !s.inFlow && !s.keyAllowed then none
  else
    let s ← (s.openBlock s.cursor.column none .blockSequenceStart).dropKey?
    return { s with keyAllowed := true }.emitHere .blockEntry 1

def keyMark? (s : Lexer) : Option Lexer := do
  if !s.inFlow && !s.keyAllowed then none
  else
    let s ← (s.openBlock s.cursor.column none .blockMappingStart).dropKey?
    return { s with keyAllowed := !s.inFlow }.emitHere .key 1

/-- The indicator of a value. A pending key becomes a key. -/
def valueMark? (s : Lexer) : Option Lexer := do
  match s.pending with
  | some k =>
    let s := (s.emitAt k.number .key).openBlock k.column (some k.number) .blockMappingStart
    return { s with pending := none, keyAllowed := false }.emitHere .value 1
  | none =>
    if !s.inFlow && !s.keyAllowed then none
    else
      let s := s.openBlock s.cursor.column none .blockMappingStart
      return { s with keyAllowed := !s.inFlow }.emitHere .value 1

/-- Adds a token that may begin a key and ends at the given cursor. -/
def keyToken? (s : Lexer) (read : Lexer → Option (Token × Cursor)) : Option Lexer := do
  let s ← s.saveKey?
  let (t, c) ← read s
  return { s.emit t with cursor := c, keyAllowed := false }

def quotedScalar? (s : Lexer) (quote : Char) : Option Lexer :=
  s.keyToken? fun s => do
    let c := s.cursor.skip 1
    let (text, c) ← quoted? quote (c.total + 1) [] c
    return (.scalar (String.ofList text) false, c)

def blockScalar? (s : Lexer) (literal : Bool) : Option Lexer := do
  let s ← s.dropKey?
  let (text, c) ← block? literal s.indent (s.cursor.skip 1)
  return { s.emit (.scalar (String.ofList text) false) with cursor := c, keyAllowed := true }

/-- A plain scalar. Behind a line break a key may begin. -/
def plainScalar? (s : Lexer) : Option Lexer := do
  let s ← s.saveKey?
  let c := s.cursor
  let p ← plain? s.inFlow (s.indent.elim 0 (· + 1)) (c.total + 1) [] {} c
  return { s.emit (.scalar (String.ofList p.text) true) with
    cursor := p.cursor, keyAllowed := p.broken }

/-- The characters that cannot begin a plain scalar, as long as nothing else is said. -/
def isIndicator (x : Char) : Bool :=
  "-?:,[]\x7b\x7d#&*!|>'\"%@\x60".toList.contains x

def token? (s : Lexer) : Option Lexer := do
  let c := s.cursor
  let x ← c.peek? 0
  if c.column = 0 ∧ x = '%' then do
    let s ← s.atMargin?
    let (t, c) ← directive? (c.skip 1)
    return { s.emit t with cursor := c }
  else if c.atMarker '-' then do return (← s.atMargin?).emitHere .documentStart 3
  else if c.atMarker '.' then do return (← s.atMargin?).emitHere .documentEnd 3
  else if x = '[' then s.openFlow? .flowSequenceStart
  else if x = '{' then s.openFlow? .flowMappingStart
  else if x = ']' then s.closeFlow? .flowSequenceEnd
  else if x = '}' then s.closeFlow? .flowMappingEnd
  else if x = ',' then do
    return { ← s.dropKey? with keyAllowed := true }.emitHere .flowEntry 1
  else if x = '-' ∧ c.blankOrEnd 1 then s.blockEntry?
  else if x = '?' ∧ (s.inFlow ∨ c.blankOrEnd 1) then s.keyMark?
  else if x = ':' ∧ (s.inFlow ∨ c.blankOrEnd 1) then s.valueMark?
  else if x = '*' then
    s.keyToken? fun s => (anchorName? (s.cursor.skip 1)).map fun r => (.reference r.1, r.2)
  else if x = '&' then
    s.keyToken? fun s => (anchorName? (s.cursor.skip 1)).map fun r => (.anchor r.1, r.2)
  else if x = '!' then
    s.keyToken? fun s => (tagName? s.inFlow s.cursor).map fun r => (.tag r.1, r.2)
  else if (x = '|' ∨ x = '>') ∧ !s.inFlow then s.blockScalar? (x == '|')
  else if x = '\'' ∨ x = '"' then s.quotedScalar? x
  else if !(c.blankOrEnd 0 || isIndicator x) then s.plainScalar?
  else if x = '-' ∧ !(c.ahead 1 isBlank) then s.plainScalar?
  else if !s.inFlow ∧ (x = '?' ∨ x = ':') ∧ !c.blankOrEnd 1 then s.plainScalar?
  else none

def run? : Nat → Lexer → Option (List Token)
  | 0, _ => none
  | bound + 1, s => do
    let s := s.toNext (s.cursor.total + 1)
    let s ← s.dropStale?
    let s := s.closeBlocks (some s.cursor.column)
    if s.cursor.atEnd then
      let s ← s.atMargin?
      return s.tokens.toList
    else run? bound (← s.token?)

end Lexer

def Token.ofChars? (cs : List Char) : Option (List Token) :=
  if cs.all isAllowed then
    Lexer.run? (cs.length + 1) { cursor := { rest := cs, total := cs.length } }
  else none

end JobConfig.Yaml
