import JobConfig.Text.Utf8
import JobConfig.Yaml.Node

/-!
Tokens as the nodes of a document.

Every reader takes a bound on its steps, which shrinks at each call, and gives a node together with
the tokens behind it. Each token is passed in a few steps, so a bound of four times their number is
never used up.
-/
namespace JobConfig.Yaml

abbrev Handles := List (String × List UInt8)

/-- The handles that need no directive. -/
def Handles.standard : Handles :=
  [("!", Utf8.encode "!"), ("!!", Utf8.encode "tag:yaml.org,2002:")]

/-- The tag of a name: its suffix, behind the meaning of its handle. -/
def TagName.resolve? (handles : Handles) (name : TagName) : Option (List UInt8) :=
  if name.handle = "" then some name.suffix
  else (handles.lookup name.handle).map (· ++ name.suffix)

/-- Reads the properties in front of a node, in either order. -/
def readProperties? (handles : Handles) : List Token → Option (Properties × List Token)
  | .anchor a :: .tag t :: rest =>
    (t.resolve? handles).map fun tag => (⟨some a, some tag⟩, rest)
  | .tag t :: .anchor a :: rest =>
    (t.resolve? handles).map fun tag => (⟨some a, some tag⟩, rest)
  | .anchor a :: rest => some (⟨some a, none⟩, rest)
  | .tag t :: rest => (t.resolve? handles).map fun tag => (⟨none, some tag⟩, rest)
  | rest => some ({}, rest)

/-- Whether a part of a collection is missing in front of the tokens, that is, whether one of those
in `ends` follows. -/
def isMissing (ends : List Token) (tokens : List Token) : Bool :=
  tokens.head?.any ends.contains

mutual

/-- Reads a node. Block collections are read if `block` allows it, and a sequence that is not
indented if `flush` does. -/
def readNode? (handles : Handles) (block flush : Bool) :
    Nat → List Token → Option (Node String × List Token)
  | 0, _ => none
  | _ + 1, .reference name :: rest => some (.reference name, rest)
  | bound + 1, tokens => do
    let (p, tokens) ← readProperties? handles tokens
    match tokens with
    | .scalar text plain :: rest => return (.scalar p text plain, rest)
    | .flowSequenceStart :: rest =>
      let (items, rest) ← readFlowItems? handles true bound rest
      return (.sequence p items, rest)
    | .flowMappingStart :: rest =>
      let (entries, rest) ← readFlowEntries? handles true bound rest
      return (.mapping p entries, rest)
    | tokens =>
      if flush && tokens.head? == some .blockEntry then
        let (items, rest) ← readFlushItems? handles bound tokens
        return (.sequence p items, rest)
      else
        match block, tokens with
        | true, .blockSequenceStart :: rest =>
          let (items, rest) ← readBlockItems? handles bound rest
          return (.sequence p items, rest)
        | true, .blockMappingStart :: rest =>
          let (entries, rest) ← readBlockEntries? handles bound rest
          return (.mapping p entries, rest)
        | _, tokens =>
          if p.anchor.isSome || p.tag.isSome then some (.scalar p "" true, tokens) else none

/-- Reads a part of a block collection, which is missing in front of one of the tokens `ends`. -/
def readBlockPart? (handles : Handles) (flush : Bool) (ends : List Token) :
    Nat → List Token → Option (Node String × List Token)
  | 0, _ => none
  | bound + 1, tokens =>
    if isMissing ends tokens then some (.empty, tokens)
    else readNode? handles true flush bound tokens

def readBlockItems? (handles : Handles) :
    Nat → List Token → Option (List (Node String) × List Token)
  | 0, _ => none
  | bound + 1, .blockEntry :: rest => do
    let (x, rest) ← readBlockPart? handles false [.blockEntry, .blockEnd] bound rest
    let (items, rest) ← readBlockItems? handles bound rest
    return (x :: items, rest)
  | _ + 1, .blockEnd :: rest => some ([], rest)
  | _ + 1, _ => none

/-- Reads the items of a sequence that is not indented; it ends where no further item begins. -/
def readFlushItems? (handles : Handles) :
    Nat → List Token → Option (List (Node String) × List Token)
  | 0, _ => none
  | bound + 1, .blockEntry :: rest => do
    let (x, rest) ← readBlockPart? handles false [.blockEntry, .key, .value, .blockEnd] bound rest
    let (items, rest) ← readFlushItems? handles bound rest
    return (x :: items, rest)
  | _ + 1, rest => some ([], rest)

def readBlockValue? (handles : Handles) : Nat → List Token → Option (Node String × List Token)
  | 0, _ => none
  | bound + 1, .value :: rest => readBlockPart? handles true [.key, .value, .blockEnd] bound rest
  | _ + 1, rest => some (.empty, rest)

def readBlockEntries? (handles : Handles) :
    Nat → List Token → Option (List (Node String × Node String) × List Token)
  | 0, _ => none
  | bound + 1, .key :: rest => do
    let (k, rest) ← readBlockPart? handles true [.key, .value, .blockEnd] bound rest
    let (v, rest) ← readBlockValue? handles bound rest
    let (entries, rest) ← readBlockEntries? handles bound rest
    return ((k, v) :: entries, rest)
  | _ + 1, .blockEnd :: rest => some ([], rest)
  | _ + 1, _ => none

def readFlowPart? (handles : Handles) (ends : List Token) :
    Nat → List Token → Option (Node String × List Token)
  | 0, _ => none
  | bound + 1, tokens =>
    if isMissing ends tokens then some (.empty, tokens)
    else readNode? handles false false bound tokens

def readFlowValue? (handles : Handles) (closing : Token) :
    Nat → List Token → Option (Node String × List Token)
  | 0, _ => none
  | bound + 1, .value :: rest => readFlowPart? handles [.flowEntry, closing] bound rest
  | _ + 1, rest => some (.empty, rest)

/-- Reads the items of a flow sequence, to its end. An item that begins with a key is a mapping of
one entry; where that key is missing, the token in its place is passed over. -/
def readFlowItems? (handles : Handles) (first : Bool) :
    Nat → List Token → Option (List (Node String) × List Token)
  | 0, _ => none
  | _ + 1, .flowSequenceEnd :: rest => some ([], rest)
  | bound + 1, tokens => do
    let tokens ←
      if first then some tokens
      else match tokens with
        | .flowEntry :: rest => some rest
        | _ => none
    match tokens with
    | .flowSequenceEnd :: rest => return ([], rest)
    | .key :: rest =>
      let ends := [.value, .flowEntry, .flowSequenceEnd]
      let (k, rest) ←
        if isMissing ends rest then some (.empty, rest.drop 1)
        else readFlowPart? handles ends bound rest
      let (v, rest) ← readFlowValue? handles .flowSequenceEnd bound rest
      let (items, rest) ← readFlowItems? handles false bound rest
      return (.mapping {} [(k, v)] :: items, rest)
    | tokens =>
      let (x, rest) ← readFlowPart? handles [] bound tokens
      let (items, rest) ← readFlowItems? handles false bound rest
      return (x :: items, rest)

/-- Reads the entries of a flow mapping, to its end. An entry without the mark of a key has no
value. -/
def readFlowEntries? (handles : Handles) (first : Bool) :
    Nat → List Token → Option (List (Node String × Node String) × List Token)
  | 0, _ => none
  | _ + 1, .flowMappingEnd :: rest => some ([], rest)
  | bound + 1, tokens => do
    let tokens ←
      if first then some tokens
      else match tokens with
        | .flowEntry :: rest => some rest
        | _ => none
    match tokens with
    | .flowMappingEnd :: rest => return ([], rest)
    | .key :: rest =>
      let (k, rest) ← readFlowPart? handles [.value, .flowEntry, .flowMappingEnd] bound rest
      let (v, rest) ← readFlowValue? handles .flowMappingEnd bound rest
      let (entries, rest) ← readFlowEntries? handles false bound rest
      return ((k, v) :: entries, rest)
    | tokens =>
      let (k, rest) ← readFlowPart? handles [] bound tokens
      let (entries, rest) ← readFlowEntries? handles false bound rest
      return ((k, .empty) :: entries, rest)

end

/-! ### Documents -/

structure Directives where
  version : Option (Nat × Nat) := none
  handles : Handles := []

/-- Reads directives. Neither the version nor the meaning of a handle may be given twice. -/
def readDirectives? : Directives → List Token → Option (Directives × List Token)
  | d, .version major minor :: rest =>
    if d.version.isSome || major != 1 || (minor != 1 && minor != 2) then none
    else readDirectives? { d with version := some (major, minor) } rest
  | d, .tagDirective name :: rest =>
    if (d.handles.lookup name.handle).isSome then none
    else readDirectives? { d with handles := (name.handle, name.suffix) :: d.handles } rest
  | d, rest => some (d, rest)

/-- Reads the node of a document and the marks of its end; no other document may follow. -/
def readDocument? (d : Directives) (tokens : List Token) : Option (Node String) := do
  let handles := d.handles ++ Handles.standard
  let (node, rest) ← readNode? handles true false (4 * tokens.length + 4) tokens
  if rest.all (· == .documentEnd) then some node else none

/-- The node of the only document of a stream. A stream or a document without content is an empty
scalar. -/
def Node.ofTokens? (tokens : List Token) : Option (Node String) :=
  match tokens with
  | [] => some .empty
  | .version _ _ :: _ | .tagDirective _ :: _ | .documentStart :: _ => do
    match ← readDirectives? {} tokens with
    | (d, .documentStart :: rest) =>
      if rest.all (· == .documentEnd) then some .empty else readDocument? d rest
    | _ => none
  | tokens => readDocument? {} tokens

end JobConfig.Yaml
