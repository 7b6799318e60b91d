import JobConfig.Yaml.Graph
import JobConfig.Yaml.Node.Reader
import JobConfig.Yaml.Token.Lexer
import JobConfig.Yaml.Value.Plain

/-!
The values of the nodes of a document.

Building a value follows references, and counts them: a document whose references are followed too
often is refused, as is one that nests too deep. A mapping holds each key once.
-/
namespace JobConfig.Yaml

/-- A computation that counts the references followed and may be refused. -/
abbrev Build (α : Type) := StateT Nat Option α

def Build.refuse {α : Type} : Build α := fun _ => none

def Build.need {α : Type} (x : Option α) : Build α := fun n => x.map fun a => (a, n)

def Graph.follow (g : Graph) (number : Nat) : Build (Node Nat) := fun jumps =>
  if g.jumpLimit < jumps + 1 then none
  else (g.target? number).map fun node => (node, jumps + 1)

/-- The bytes of a tag that is written in full for the core types. -/
def coreTag (name : String) : List UInt8 := Utf8.encode ("tag:yaml.org,2002:" ++ name)

/-- The name of a tag of the document's own, which begins with an exclamation mark; the mark alone
is its own name. Bytes that are no text are no tag. -/
def ownTag? (tag : Option (List UInt8)) : Option String :=
  match tag with
  | some (33 :: rest) => (Utf8.decode (if rest.isEmpty then [33] else rest)).toOption
  | _ => none

/-- The name of a tag as it is compared and shown, without a further exclamation mark in front. -/
def shownTag (name : String) : String :=
  match name.toList with
  | '!' :: c :: rest => String.ofList (c :: rest)
  | _ => name

/-- The value of a scalar. A tag of a core type demands that type; any other tag makes the text a
string, unless it is one of the document's own; `plain` tells a plain scalar from a quoted one. -/
def scalarValue? (tag : Option (List UInt8)) (text : String) (plain : Bool) : Option Value :=
  match tag with
  | none => if plain then plainValue? text else some (.string text)
  | some tag =>
    if tag = coreTag "bool" then (boolOf? text).map .bool
    else if tag = coreTag "int" then
      match integerOf text.toList with
      | .value n => some (.integer n)
      | _ => none
    else if tag = coreTag "float" then (floatOf? text.toList).map .float
    else if tag = coreTag "null" then (if isNull text then some .null else none)
    else if tag.head? == some 33 && plain then plainValue? text
    else some (.string text)

/-- How a node is read: whether a tag has been read for it, so that its own says nothing. -/
abbrev NodeReader := (tagRead : Bool) → Node Nat → Build Value

def buildItems (read : NodeReader) : List (Node Nat) → Build (List Value)
  | [] => return []
  | x :: rest => do
    let x ← read false x
    let rest ← buildItems read rest
    return x :: rest

/-- Reads the entries of a mapping behind those in `before`. Within a mapping whose tag has been
read the tags of the keys say nothing. -/
def buildEntries (read : NodeReader) (tagRead : Bool) (before : List (Value × Value)) :
    List (Node Nat × Node Nat) → Build (List (Value × Value))
  | [] => return before.reverse
  | (k, v) :: rest => do
    let k ← read tagRead k
    if before.any fun e => e.1.same k then Build.refuse
    else
      let v ← read false v
      buildEntries read tagRead ((k, v) :: before) rest

/-- Reads a node that is no reference, its parts by `nested`; without `nested` it may have none. -/
def buildPlain (nested : Option NodeReader) (tagRead : Bool) (node : Node Nat) : Build Value := do
  let wrap := fun (p : Properties) (body : Bool → Build Value) => do
    match if tagRead then none else ownTag? p.tag with
    | none => body tagRead
    | some tag => return .tagged (shownTag tag) (← body true)
  match node with
  | .reference _ => Build.refuse
  | .scalar p text plain =>
    wrap p fun tagRead => Build.need (scalarValue? (if tagRead then none else p.tag) text plain)
  | .sequence p items =>
    match nested with
    | none => Build.refuse
    | some read => wrap p fun _ => do return .sequence (← buildItems read items)
  | .mapping p entries =>
    match nested with
    | none => Build.refuse
    | some read => wrap p fun tagRead => do return .mapping (← buildEntries read tagRead [] entries)

def buildNode (g : Graph) (nested : Option NodeReader) : NodeReader := fun tagRead node => do
  match node with
  | .reference number => buildPlain nested false (← g.follow number)
  | node => buildPlain nested tagRead node

def build (g : Graph) : Nat → NodeReader
  | 0 => buildNode g none
  | depth + 1 => buildNode g (some (build g depth))

/-- How many levels of collections may be nested, the one of the document included. -/
def maxDepth : Nat := 128

/-- The text of a key of the document, which is a scalar whatever it stands for. -/
def buildKey (g : Graph) (node : Node Nat) : Build String := do
  let node ← match node with
    | .reference number => g.follow number
    | node => pure node
  match node with
  | .scalar _ text _ => return text
  | _ => Build.refuse

/-- Reads the entries of the document; of several with one key the last decides. -/
def buildDocument (g : Graph) (before : StringMap Value) :
    List (Node Nat × Node Nat) → Build (StringMap Value)
  | [] => return before
  | (k, v) :: rest => do
    let k ← buildKey g k
    let v ← build g (maxDepth - 1) false v
    buildDocument g (before.insert k v) rest

/-- The mapping that a stream holds, if it holds one and nothing else. A stream without content
holds the empty mapping. -/
def parse? (bytes : List UInt8) : Option (StringMap Value) := do
  let cs ← (Utf8.decodeChars bytes).toOption
  let g ← Graph.ofNode? (← Node.ofTokens? (← Token.ofChars? cs))
  match g.root with
  | .scalar _ text plain => if text.isEmpty && plain then some .empty else none
  | .mapping _ entries => (buildDocument g .empty entries 0).map (·.1)
  | _ => none

end JobConfig.Yaml
