import JobConfig.Number.Integer
import JobConfig.Text.Utf8
import JobConfig.Yaml.Cursor
import JobConfig.Yaml.Token

/-!
Names within a YAML stream: anchors and references to them, tags, and directives.
-/
namespace JobConfig.Yaml

/-- Reads the name of an anchor or a reference behind its mark. A blank or one of a few indicators
must follow. -/
def anchorName? (c : Cursor) : Option (String × Cursor) :=
  let name := c.run isNameChar
  let c := c.skip name.length
  let follows := c.blankOrEnd 0 || c.ahead 0 fun x =>
    x == '?' || x == ':' || x == ',' || x == ']' || x == '}' || x == '%' || x == '@' || x == '\x60'
  if name.isEmpty || !follows then none else some (String.ofList name, c)

/-! ### Tags -/

/-- The characters of a tag; in angle brackets also the comma and the square brackets. -/
def isTagChar (verbatim : Bool) (x : Char) : Bool :=
  isNameChar x || ";/?:@&=+$.%!~*'()".toList.contains x ||
    (verbatim && (x == ',' || x == '[' || x == ']'))

def escapedByte? (c : Cursor) : Option (Nat × Cursor) :=
  match c.rest with
  | '%' :: h :: l :: _ => do
    let h ← Integer.digit? 16 h
    let l ← Integer.digit? 16 l
    return (h * 16 + l, c.skip 3)
  | _ => none

def escapedTrail? : Nat → Cursor → Option (List UInt8 × Cursor)
  | 0, c => some ([], c)
  | count + 1, c => do
    let (b, c) ← escapedByte? c
    if b / 64 ≠ 2 then none
    else
      let (rest, c) ← escapedTrail? count c
      return (UInt8.ofNat b :: rest, c)

/-- Reads an escaped character: a first byte and as many more as it announces. -/
def escapedChar? (c : Cursor) : Option (List UInt8 × Cursor) := do
  let (b, c) ← escapedByte? c
  let more ←
    if b < 0x80 then some 0
    else if b / 32 = 6 then some 1
    else if b / 16 = 14 then some 2
    else if b / 8 = 30 then some 3
    else none
  let (rest, c) ← escapedTrail? more c
  return (UInt8.ofNat b :: rest, c)

def tagBytes? (verbatim : Bool) : Nat → List UInt8 → Cursor → Option (List UInt8 × Cursor)
  | 0, bytes, c => some (bytes, c)
  | bound + 1, bytes, c =>
    match c.peek? 0 with
    | none => some (bytes, c)
    | some x =>
      if x = '%' then do
        let (b, c) ← escapedChar? c
        tagBytes? verbatim bound (bytes ++ b) c
      else if isTagChar verbatim x then
        tagBytes? verbatim bound (bytes ++ Utf8.encodeChar x) (c.skip 1)
      else some (bytes, c)

/-- Reads the characters of a tag, at least one unless some of it was read before. They count up to
the first zero byte. -/
def tagSuffix? (verbatim : Bool) (before : Option (List Char)) (c : Cursor) :
    Option (List UInt8 × Cursor) := do
  let (bytes, c') ← tagBytes? verbatim (c.total + 1) [] c
  if bytes.isEmpty && before.isNone then none
  else
    let all := Utf8.encodeChars (before.getD []) ++ bytes
    return (all.takeWhile (· != 0), c')

/-- Reads an exclamation mark and the name behind it, with another mark if there is one. -/
def tagHandle? (c : Cursor) : Option (List Char × Cursor) :=
  if !c.sees '!' then none
  else
    let c := c.skip 1
    let name := c.run isNameChar
    let c := c.skip name.length
    if c.sees '!' then some ('!' :: (name ++ ['!']), c.skip 1) else some ('!' :: name, c)

/-- Whether a handle is closed by a second mark. -/
def isClosedHandle (handle : List Char) : Bool :=
  1 < handle.length && handle.getLast? == some '!'

/-- Reads a tag: in angle brackets as it stands, otherwise behind a handle. -/
def tagName? (inFlow : Bool) (c : Cursor) : Option (TagName × Cursor) := do
  let (name, c) ←
    if c.ahead 1 (· == '<') then do
      let (suffix, c) ← tagSuffix? true none (c.skip 2)
      if c.sees '>' then some (⟨"", suffix⟩, c.skip 1) else none
    else do
      let (handle, c) ← tagHandle? c
      if isClosedHandle handle then
        let (suffix, c) ← tagSuffix? false none c
        some (⟨String.ofList handle, suffix⟩, c)
      else
        let (suffix, c) ← tagSuffix? false (some (handle.drop 1)) c
        if suffix.isEmpty then some (⟨"", Utf8.encodeChar '!'⟩, c)
        else some (⟨"!", suffix⟩, c)
  if c.blankOrEnd 0 || (inFlow && c.sees ',') then some (name, c) else none

/-! ### Directives -/

/-- Reads a part of a version number, of one to nine digits. -/
def versionPart? (c : Cursor) : Option (Nat × Cursor) :=
  let digits := c.run Char.isDigit
  if digits.isEmpty || 9 < digits.length then none
  else some (Nat.ofDigitChars 10 digits 0, c.skip digits.length)

def version? (c : Cursor) : Option (Token × Cursor) := do
  let (major, c) ← versionPart? (c.skipWhile isBlank)
  if !c.sees '.' then none
  else
    let (minor, c) ← versionPart? (c.skip 1)
    return (.version major minor, c)

def tagDirective? (c : Cursor) : Option (Token × Cursor) := do
  let (handle, c) ← tagHandle? (c.skipWhile isBlank)
  if (handle.length = 1 || isClosedHandle handle) && c.ahead 0 isBlank then
    let (suffix, c) ← tagSuffix? true none (c.skipWhile isBlank)
    if c.blankOrEnd 0 then some (.tagDirective ⟨String.ofList handle, suffix⟩, c) else none
  else none

def directive? (c : Cursor) : Option (Token × Cursor) := do
  let name := c.run isNameChar
  let c := c.skip name.length
  if !c.blankOrEnd 0 then none
  else
    let (token, c) ←
      match String.ofList name with
      | "YAML" => version? c
      | "TAG" => tagDirective? c
      | _ => none
    return (token, ← c.skipRestOfLine?)

end JobConfig.Yaml
