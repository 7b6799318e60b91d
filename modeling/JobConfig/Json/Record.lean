import JobConfig.Json.Reader

/-!
Reading JSON of a known shape: scalars, maps and sets of strings, and records.

A record is an object of its fields in any order, or an array of their values in the order of
declaration. Members with other names are skimmed: they must be well formed, by a grammar that knows
no limit on nesting and does not pair surrogates. A field that is missing keeps its initial value.
-/
namespace JobConfig.Json

/-! ### Skimming -/

def skimString : Nat → List Char → Except Fault (List Char)
  | 0, _ => .error .endOfString
  | _, [] => .error .endOfString
  | bound + 1, c :: rest =>
    if c = '"' then .ok rest
    else if c = '\\' then
      match rest with
      | [] => .error .endOfString
      | d :: rest =>
        if d = 'u' then
          match readHex rest with
          | .error e => .error e
          | .ok (_, rest) => skimString bound rest
        else if (simpleEscape? d).isSome then skimString bound rest
        else .error .invalidEscape
    else if c.toNat < 0x20 then .error .controlCharacter
    else skimString bound rest

def skimDigits (cs : List Char) : Except Fault (List Char) :=
  if startsWithDigit cs then .ok (cs.dropWhile Char.isDigit) else .error .invalidNumber

def skimSigned : List Char → Except Fault (List Char)
  | '+' :: rest => skimDigits rest
  | '-' :: rest => skimDigits rest
  | rest => skimDigits rest

def skimExponent : List Char → Except Fault (List Char)
  | 'e' :: rest => skimSigned rest
  | 'E' :: rest => skimSigned rest
  | rest => .ok rest

def skimUnsigned (cs : List Char) : Except Fault (List Char) :=
  let whole : Except Fault (List Char) :=
    match cs with
    | '0' :: rest => if startsWithDigit rest then .error .invalidNumber else .ok rest
    | rest => skimDigits rest
  match whole with
  | .error e => .error e
  | .ok ('.' :: rest) =>
    match skimDigits rest with
    | .error e => .error e
    | .ok rest => skimExponent rest
  | .ok rest => skimExponent rest

inductive Bracket where
  | list
  | object
deriving DecidableEq, Repr

namespace Bracket

def closing : Bracket → Char
  | .list => ']'
  | .object => '}'

/-- The fault of a text that ends within the bracket. -/
def unfinished : Bracket → Fault
  | .list => .endOfList
  | .object => .endOfObject

def expectedEnd : Bracket → Fault
  | .list => .expectedListEnd
  | .object => .expectedObjectEnd

/-- Skims what stands in front of a value: nothing in a list, the key and the colon in an object. -/
def skimLabel (bracket : Bracket) (cs : List Char) : Except Fault (List Char) :=
  match bracket, skipSpace cs with
  | .list, cs => .ok cs
  | .object, [] => .error .endOfObject
  | .object, '"' :: rest => (skimString rest.length rest).bind readColon
  | .object, _ => .error .keyNotString

end Bracket

/-- Where skimming stands between two values. -/
inductive Skimmed where
  /-- All brackets are closed. -/
  | finished (rest : List Char)
  /-- Another value follows within the given open brackets. -/
  | value (opened : List Bracket) (rest : List Char)

/-- Goes on within the open brackets until another value is due. A comma may follow behind a value,
but not behind an opening bracket. -/
def skimClose : Nat → Bool → List Bracket → List Char → Except Fault Skimmed
  | _, _, [], cs => .ok (.finished cs)
  | 0, _, bracket :: _, _ => .error bracket.unfinished
  | bound + 1, comma, bracket :: outer, cs =>
    match skipSpace cs with
    | [] => .error bracket.unfinished
    | c :: rest =>
      if c = bracket.closing then skimClose bound true outer rest
      else if comma && c != ',' then .error bracket.expectedEnd
      else (bracket.skimLabel (if comma then rest else c :: rest)).map (.value (bracket :: outer))

def skimFrom : Nat → List Bracket → List Char → Except Fault (List Char)
  | 0, _, _ => .error .endOfValue
  | bound + 1, opened, cs =>
    let scalar := fun (rest : Except Fault (List Char)) =>
      rest.bind fun rest => skimClose (rest.length + 1) true opened rest
    let step : Except Fault Skimmed :=
      match skipSpace cs with
      | [] => .error .endOfValue
      | c :: rest =>
        if c = 'n' then scalar (readWord ['u', 'l', 'l'] rest)
        else if c = 't' then scalar (readWord ['r', 'u', 'e'] rest)
        else if c = 'f' then scalar (readWord ['a', 'l', 's', 'e'] rest)
        else if c = '"' then scalar (skimString rest.length rest)
        else if c = '[' then skimClose (rest.length + 1) false (.list :: opened) rest
        else if c = '{' then skimClose (rest.length + 1) false (.object :: opened) rest
        else if c = '-' then scalar (skimUnsigned rest)
        else if c.isDigit then scalar (skimUnsigned (c :: rest))
        else .error .expectedValue
    match step with
    | .error e => .error e
    | .ok (.finished rest) => .ok rest
    | .ok (.value opened rest) => skimFrom bound opened rest

def skim (cs : List Char) : Except Fault (List Char) :=
  skimFrom (cs.length + 1) [] cs

/-! ### Scalars -/

/-- The fault of a value that is not of the shape asked for. A scalar is read to its end first, so a
fault within it comes before. -/
def mismatch (expected : Shape) (cs : List Char) : Fault :=
  let report := fun {α : Type} (r : Except Fault α) (found : α → Found) =>
    match r with
    | .error e => e
    | .ok x => .wrongType (found x) expected
  match cs with
  | [] => .expectedValue
  | c :: rest =>
    if c = 'n' then report (readWord ['u', 'l', 'l'] rest) fun _ => .null
    else if c = 't' then report (readWord ['r', 'u', 'e'] rest) fun _ => .boolean true
    else if c = 'f' then report (readWord ['a', 'l', 's', 'e'] rest) fun _ => .boolean false
    else if c = '"' then report (readString rest) fun r => .text r.1
    else if c = '[' then .wrongType .sequence expected
    else if c = '{' then .wrongType .map expected
    else if c = '-' || c.isDigit then report (readNumber (c :: rest)) fun r => r.1.found
    else .expectedValue

def readBool : Read Bool := fun cs =>
  match skipSpace cs with
  | [] => .error .endOfValue
  | 't' :: rest => (readWord ['r', 'u', 'e'] rest).map fun r => (true, r)
  | 'f' :: rest => (readWord ['a', 'l', 's', 'e'] rest).map fun r => (false, r)
  | cs => .error (mismatch .boolean cs)

def readInteger (expected : Shape) (low high : Int) : Read Int := fun cs =>
  match skipSpace cs with
  | [] => .error .endOfValue
  | c :: rest =>
    if c = '-' || c.isDigit then
      match readNumber (c :: rest) with
      | .error e => .error e
      | .ok (.integer n, rest) =>
        if low ≤ n.val ∧ n.val ≤ high then .ok (n.val, rest)
        else .error (.wrongInteger n.val expected)
      | .ok (.float x, _) => .error (.wrongType (.float x) expected)
    else .error (mismatch expected (c :: rest))

def readInt64 : Read Int64 := fun cs =>
  (readInteger .integer64 (-0x8000000000000000) 0x7fffffffffffffff cs).map fun r =>
    (Int64.ofInt r.1, r.2)

def readInt32 : Read Int32 := fun cs =>
  (readInteger .integer32 (-0x80000000) 0x7fffffff cs).map fun r => (Int32.ofInt r.1, r.2)

def readTextAs (expected : Shape) : Read String := fun cs =>
  match skipSpace cs with
  | [] => .error .endOfValue
  | '"' :: rest => readString rest
  | cs => .error (mismatch expected cs)

def readText : Read String := readTextAs .text

def readNull : Read Unit := fun cs =>
  match skipSpace cs with
  | [] => .error .endOfValue
  | 'n' :: rest => (readWord ['u', 'l', 'l'] rest).map fun r => ((), r)
  | cs => .error (mismatch .unit cs)

/-! ### Collections -/

/-- A reader that is told how many levels may still be opened. -/
abbrev DeepRead (α : Type) := Nat → Read α

def readMap {α : Type} (value : DeepRead α) : DeepRead (List (String × α)) := fun depth cs =>
  match skipSpace cs with
  | [] => .error .endOfValue
  | '{' :: rest =>
    match depth with
    | 0 => .error .tooDeep
    | depth + 1 => readObject (value depth) rest
  | cs => .error (mismatch .map cs)

def readSequence {α : Type} (item : DeepRead α) : DeepRead (List α) := fun depth cs =>
  match skipSpace cs with
  | [] => .error .endOfValue
  | '[' :: rest =>
    match depth with
    | 0 => .error .tooDeep
    | depth + 1 => readList (item depth) rest
  | cs => .error (mismatch .sequence cs)

/-- Reads an object of strings; of several members with one key the last decides. -/
def readStringMap : DeepRead (StringMap String) := fun depth cs =>
  (readMap (fun _ => readText) depth cs).map fun r => (StringMap.ofList r.1, r.2)

def readStringSet : DeepRead StringSet := fun depth cs =>
  (readSequence (fun _ => readText) depth cs).map fun r => (StringSet.ofList r.1, r.2)

/-- Reads one of finitely many names, as a string or as the only key of an object with the value
`null`. -/
def readVariant {α : Type} (known : List (String × α)) : DeepRead α := fun depth cs =>
  let choose := fun (r : String × List Char) => show Except Fault (α × List Char) from
    match known.lookup r.1 with
    | some x => .ok (x, r.2)
    | none => .error (.unknownVariant r.1 (known.map Prod.fst))
  match skipSpace cs with
  | [] => .error .endOfValue
  | '"' :: rest => (readString rest).bind choose
  | '{' :: rest =>
    match depth with
    | 0 => .error .tooDeep
    | _ + 1 => do
      let (x, rest) ← (readTextAs .variant rest).bind choose
      let rest ← readColon rest
      let ((), rest) ← readNull rest
      match skipSpace rest with
      | [] => .error .endOfObject
      | '}' :: rest => .ok (x, rest)
      | _ => .error .expectedValue
  | _ => .error .expectedValue

/-! ### Records -/

/-- A field of a record that is built up in a value of type `σ`. -/
structure Field (σ : Type) where
  name : String
  required : Bool
  read : DeepRead (σ → σ)

def Field.of {σ α : Type} (name : String) (read : DeepRead α) (set : α → σ → σ) : Field σ :=
  ⟨name, false, fun depth cs => (read depth cs).map fun r => (set r.1, r.2)⟩

/-- A record: its name and its fields in order of declaration. -/
structure Record (σ : Type) where
  name : String
  fields : List (Field σ)

namespace Record

variable {σ : Type}

def missing? (r : Record σ) (seen : List String) : Option Fault :=
  (r.fields.find? fun f => f.required && !seen.contains f.name).map fun f => .missingField f.name

def readFields (r : Record σ) (depth : Nat) :
    Nat → Bool → List String → σ → List Char → Except Fault (σ × List Char)
  | 0, _, _, _, _ => .error .endOfObject
  | bound + 1, first, seen, state, cs =>
    match nextKey first cs with
    | .error e => .error e
    | .ok (none, rest) =>
      match r.missing? seen with
      | some e => .error e
      | none => .ok (state, rest)
    | .ok (some key, rest) =>
      match r.fields.find? fun f => f.name = key with
      | none =>
        match (readColon rest).bind skim with
        | .error e => .error e
        | .ok rest => readFields r depth bound false seen state rest
      | some field =>
        if seen.contains key then .error (.duplicateField key)
        else
          match (readColon rest).bind (field.read depth) with
          | .error e => .error e
          | .ok (update, rest) =>
            readFields r depth bound false (key :: seen) (update state) rest

def readEnd (cs : List Char) : Except Fault (List Char) :=
  match skipSpace cs with
  | [] => .error .endOfList
  | ']' :: rest => .ok rest
  | ',' :: rest =>
    match skipSpace rest with
    | ']' :: _ => .error .trailingComma
    | _ => .error .trailingCharacters
  | _ => .error .trailingCharacters

/-- Reads the values of the given fields from an array into `state`; those the array does not reach
stay as they are. `count` fields have been read before. -/
def readPositions (r : Record σ) (depth count : Nat) (first : Bool) (state : σ) :
    List (Field σ) → List Char → Except Fault (σ × List Char)
  | [], cs => (readEnd cs).map fun rest => (state, rest)
  | field :: fields, cs =>
    match nextItem first cs with
    | .error e => .error e
    | .ok (false, rest) =>
      if (field :: fields).any (·.required) then
        .error (.wrongLength count r.name r.fields.length)
      else .ok (state, rest)
    | .ok (true, rest) =>
      match field.read depth rest with
      | .error e => .error e
      | .ok (update, rest) => readPositions r depth (count + 1) false (update state) fields rest

def read (r : Record σ) (initial : σ) : DeepRead σ := fun depth cs =>
  match skipSpace cs with
  | [] => .error .endOfValue
  | '{' :: rest =>
    match depth with
    | 0 => .error .tooDeep
    | depth + 1 => r.readFields depth rest.length true [] initial rest
  | '[' :: rest =>
    match depth with
    | 0 => .error .tooDeep
    | depth + 1 => r.readPositions depth 0 true initial r.fields rest
  | cs => .error (mismatch (.record r.name) cs)

end Record

end JobConfig.Json
