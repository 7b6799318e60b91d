import JobConfig.Number.Integer
import JobConfig.Yaml.Cursor

/-!
The text of scalars: plain, in quotes, and as blocks of lines.

Between the words of a plain or quoted scalar stands a gap: blanks, or line breaks with blanks
around them. A gap within a line is kept; a single line break becomes a space, and of several the
first is dropped.
-/
namespace JobConfig.Yaml

/-- What stands between two words of a scalar. -/
structure Gap where
  /-- The blanks in front of the first line break. -/
  blanks : List Char := []
  /-- The first line break. -/
  first : List Char := []
  /-- The line breaks behind it. -/
  more : List Char := []
  /-- Whether there was a line break, one that is escaped included. -/
  broken : Bool := false

namespace Gap

def fold (first more : List Char) : List Char :=
  if first.head? = some '\n' then (if more.isEmpty then [' '] else more) else first ++ more

def text (g : Gap) : List Char :=
  if g.broken then fold g.first g.more else g.blanks

/-- Reads a gap. A tab in the indentation, which reaches up to the column `indent`, is refused. -/
def read? (indent : Nat) : Nat → Gap → Cursor → Option (Gap × Cursor)
  | 0, g, c => some (g, c)
  | bound + 1, g, c =>
    match c.peek? 0 with
    | none => some (g, c)
    | some x =>
      if isBlank x then
        if g.broken then
          if x = '\t' ∧ c.column < indent then none else read? indent bound g (c.skip 1)
        else read? indent bound { g with blanks := g.blanks ++ [x] } (c.skip 1)
      else if isBreak x then
        let (br, c) := c.readBreak
        if g.broken then read? indent bound { g with more := g.more ++ br } c
        else read? indent bound { g with blanks := [], first := br, broken := true } c
      else some (g, c)

end Gap

/-! ### Plain scalars -/

/-- The brackets and the comma of flow collections. -/
def isFlowIndicator (x : Char) : Bool :=
  x == ',' || x == '[' || x == ']' || x == '{' || x == '}'

/-- Reads a word of a plain scalar. In a flow collection a colon may not touch an indicator. -/
def plainWord? (inFlow : Bool) : List Char → Option (List Char)
  | [] => some []
  | x :: rest =>
    if isBlank x || isBreak x then some []
    else if x = ':' ∧ inFlow ∧ (rest.head?.any fun y => isFlowIndicator y || y == '?') then none
    else if x = ':' ∧ (rest.head?.all fun y => isBlank y || isBreak y) then some []
    else if inFlow && isFlowIndicator x then some []
    else (plainWord? inFlow rest).map (x :: ·)

/-- A plain scalar: its text, whether a line break follows, and the cursor behind it. -/
structure Plain where
  text : List Char
  broken : Bool
  cursor : Cursor

/-- Reads a plain scalar word by word, those on further lines within the column `indent`. The text
read before stands in reverse. -/
def plain? (inFlow : Bool) (indent : Nat) : Nat → List Char → Gap → Cursor → Option Plain
  | 0, before, gap, c => some ⟨before.reverse, gap.broken, c⟩
  | bound + 1, before, gap, c => do
    if c.atDocumentMarker || c.sees '#' then some ⟨before.reverse, gap.broken, c⟩
    else
      let word ← plainWord? inFlow c.rest
      let before := if word.isEmpty then before else (gap.text ++ word).reverseAux before
      let gap := if word.isEmpty then gap else {}
      let c := c.skip word.length
      if c.atEnd || !c.blankOrEnd 0 then some ⟨before.reverse, gap.broken, c⟩
      else
        let (gap, c) ← gap.read? indent (c.total + 1) c
        if !inFlow && c.column < indent then some ⟨before.reverse, gap.broken, c⟩
        else plain? inFlow indent bound before gap c

/-! ### Quoted scalars -/

/-- What a backslash and a letter stand for: a character, or one given by so many hexadecimal
digits. -/
inductive Escape where
  | char (c : Char)
  | code (digits : Nat)

def escape? (x : Char) : Option Escape :=
  match x with
  | '0' => some (.char '\x00')
  | 'a' => some (.char '\x07')
  | 'b' => some (.char '\x08')
  | 't' => some (.char '\t')
  | '\t' => some (.char '\t')
  | 'n' => some (.char '\n')
  | 'v' => some (.char '\x0b')
  | 'f' => some (.char '\x0c')
  | 'r' => some (.char '\r')
  | 'e' => some (.char '\x1b')
  | ' ' => some (.char ' ')
  | '"' => some (.char '"')
  | '/' => some (.char '/')
  | '\\' => some (.char '\\')
  | 'N' => some (.char '\u0085')
  | '_' => some (.char '\u00a0')
  | 'L' => some (.char '\u2028')
  | 'P' => some (.char '\u2029')
  | 'x' => some (.code 2)
  | 'u' => some (.code 4)
  | 'U' => some (.code 8)
  | _ => none

def codePoint? (digits : List Char) : Option Char := do
  let n ← digits.foldlM (fun n x => (Integer.digit? 16 x).map (n * 16 + ·)) 0
  if (0xD800 ≤ n ∧ n ≤ 0xDFFF) ∨ 0x10FFFF < n then none else some (Char.ofNat n)

/-- Reads a word of a scalar in single quotes; two quotes stand for one. What is read goes in front
of the text before it, which stands in reverse. -/
def singleWord : Nat → List Char → Cursor → List Char × Cursor
  | 0, before, c => (before, c)
  | bound + 1, before, c =>
    match c.rest with
    | '\'' :: '\'' :: _ => singleWord bound ('\'' :: before) (c.skip 2)
    | x :: _ =>
      if isBlank x || isBreak x || x == '\'' then (before, c)
      else singleWord bound (x :: before) (c.skip 1)
    | [] => (before, c)

/-- Reads a word of a scalar in double quotes in the same way. The flag tells that an escaped line
break ended it. -/
def doubleWord? : Nat → List Char → Cursor → Option (List Char × Bool × Cursor)
  | 0, before, c => some (before, false, c)
  | bound + 1, before, c =>
    match c.rest with
    | '\\' :: x :: rest =>
      if isBreak x then some (before, true, (c.skip 1).skipBreak)
      else
        match escape? x with
        | none => none
        | some (.char y) => doubleWord? bound (y :: before) (c.skip 2)
        | some (.code digits) => do
          let code := rest.take digits
          if code.length < digits then none
          else doubleWord? bound ((← codePoint? code) :: before) (c.skip (2 + digits))
    | ['\\'] => none
    | x :: _ =>
      if isBlank x || isBreak x || x == '"' then some (before, false, c)
      else doubleWord? bound (x :: before) (c.skip 1)
    | [] => some (before, false, c)

/-- Reads a scalar behind its opening quote, up to and with the closing one. The text read before
stands in reverse. -/
def quoted? (quote : Char) : Nat → List Char → Cursor → Option (List Char × Cursor)
  | 0, _, _ => none
  | bound + 1, before, c => do
    if c.atDocumentMarker || c.atEnd then none
    else
      let (before, broken, c) ←
        if quote = '"' then doubleWord? (c.total + 1) before c
        else
          let (before, c) := singleWord (c.total + 1) before c
          some (before, false, c)
      if c.sees quote then some (before.reverse, c.skip 1)
      else
        let (gap, c) ← ({ broken } : Gap).read? 0 (c.total + 1) c
        quoted? quote bound (gap.text.reverseAux before) c

/-! ### Block scalars -/

/-- What becomes of the line breaks at the end of a block. -/
inductive Chomp where
  | strip
  | clip
  | keep
deriving DecidableEq, Repr

structure BlockHeader where
  chomp : Chomp := .clip
  increment : Option Nat := none

/-- Reads the marks behind the letter of a block, in either order. -/
def blockHeader? (c : Cursor) : Option (BlockHeader × Cursor) :=
  let chomp? := fun (c : Cursor) =>
    if c.sees '+' then some Chomp.keep else if c.sees '-' then some Chomp.strip else none
  let digit? := fun (c : Cursor) =>
    ((c.peek? 0).filter Char.isDigit).map fun x => x.toNat - '0'.toNat
  let checked := fun (h : BlockHeader) (c : Cursor) =>
    if h.increment = some 0 then none else some (h, c)
  match chomp? c with
  | some chomp =>
    let c := c.skip 1
    match digit? c with
    | some n => checked { chomp, increment := some n } (c.skip 1)
    | none => some ({ chomp }, c)
  | none =>
    match digit? c with
    | some n =>
      let c := c.skip 1
      match chomp? c with
      | some chomp => checked { chomp, increment := some n } (c.skip 1)
      | none => checked { increment := some n } c
    | none => some ({}, c)

/-- Reads indentation and empty lines; gives the line breaks, the widest indentation seen and the
cursor. The indentation reaches up to `indent`, or as far as it goes if that is not known. -/
def blockBreaks? (indent : Option Nat) :
    Nat → List Char → Nat → Cursor → Option (List Char × Nat × Cursor)
  | 0, breaks, widest, c => some (breaks, widest, c)
  | bound + 1, breaks, widest, c =>
    let spaces := (c.run (· == ' ')).length
    let c := c.skip (match indent with
      | none => spaces
      | some n => min spaces (n - c.column))
    let widest := max widest c.column
    if (indent.all fun n => c.column < n) && c.sees '\t' then none
    else if c.ahead 0 isBreak then
      let (br, c) := c.readBreak
      blockBreaks? indent bound (breaks ++ br) widest c
    else some (breaks, widest, c)

/-- A block that is being read: its text in reverse, the last line break, and the empty lines behind
it. -/
structure Block where
  before : List Char := []
  last : List Char := []
  empty : List Char := []
  /-- Whether the last line began with a blank. -/
  indented : Bool := false

/-- Reads the lines of a block that begin at the column `indent`. In a folded block a line break
between two lines that do not begin with a blank joins them. -/
def blockLines? (literal : Bool) (indent : Nat) : Nat → Block → Cursor → Option (Block × Cursor)
  | 0, b, c => some (b, c)
  | bound + 1, b, c => do
    if c.column ≠ indent ∨ c.atEnd then some (b, c)
    else
      let indented := c.ahead 0 isBlank
      let joins := !literal && b.last.head? == some '\n' && !b.indented && !indented
      let glue := if joins then (if b.empty.isEmpty then [' '] else []) else b.last
      let line := c.run fun x => !isBreak x
      let (last, c) := (c.skip line.length).readBreak
      let (empty, _, c) ← blockBreaks? (some indent) (c.total + 1) [] 0 c
      blockLines? literal indent bound
        { before := (glue ++ b.empty ++ line).reverseAux b.before, last, empty, indented } c

/-- Reads a block behind its letter, within the indentation `outer` of the collection around it. -/
def block? (literal : Bool) (outer : Option Nat) (c : Cursor) : Option (List Char × Cursor) := do
  let (header, c) ← blockHeader? c
  let c ← c.skipRestOfLine?
  let given := header.increment.map fun n => outer.getD 0 + n
  let (empty, widest, c) ← blockBreaks? given (c.total + 1) [] 0 c
  let least := max 1 (outer.elim 0 (· + 1))
  let indent := given.getD (max widest least)
  let (b, c) ← blockLines? literal indent (c.total + 1) { empty } c
  let tail := match header.chomp with
    | .strip => []
    | .clip => b.last
    | .keep => b.last ++ b.empty
  return (b.before.reverse ++ tail, c)

end JobConfig.Yaml
