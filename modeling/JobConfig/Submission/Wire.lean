import JobConfig.CleanerLevel
import JobConfig.StringMap
import JobConfig.Submission.Fault

/-!
The parts of the binary submission payload.

Numbers are little-endian words of fixed width, a flag is a byte, a text is the count of its bytes
and then the bytes, a collection is the count of its members and then the members. Each part has an
encoder and a decoder; a decoder takes the bytes it needs and leaves the rest.
-/
namespace JobConfig.Submission

/-- Takes a value from the front of the bytes. -/
abbrev Decoder (α : Type) := StateT (List UInt8) (Except Fault) α

def Decoder.fail {α : Type} (fault : Fault) : Decoder α := fun _ => .error fault

/-! ### Words -/

/-- The low `width` bytes of a number, the lowest first. -/
def encodeWord : (width : Nat) → Nat → List UInt8
  | 0, _ => []
  | width + 1, n => UInt8.ofNat n :: encodeWord width (n / 256)

def decodeWord : (width : Nat) → Decoder Nat
  | 0, bytes => .ok (0, bytes)
  | _ + 1, [] => .error .endOfBytes
  | width + 1, b :: rest =>
    match decodeWord width rest with
    | .error e => .error e
    | .ok (n, rest) => .ok (b.toNat + 256 * n, rest)

def encodeInt64 (n : Int64) : List UInt8 := encodeWord 8 n.toUInt64.toNat

def decodeInt64 : Decoder Int64 := do
  let n ← decodeWord 8
  return (UInt64.ofNat n).toInt64

def encodeInt32 (n : Int32) : List UInt8 := encodeWord 4 n.toUInt32.toNat

def decodeInt32 : Decoder Int32 := do
  let n ← decodeWord 4
  return (UInt32.ofNat n).toInt32

/-! ### Flags and levels -/

def encodeFlag (b : Bool) : List UInt8 := [if b then 1 else 0]

def decodeFlag : Decoder Bool := do
  let n ← decodeWord 1
  if n = 0 then return false
  else if n = 1 then return true
  else Decoder.fail (.badFlag n)

def levelIndex (level : CleanerLevel) : Nat :=
  CleanerLevel.all.idxOf level

def encodeLevel (level : CleanerLevel) : List UInt8 := encodeWord 4 (levelIndex level)

def decodeLevel : Decoder CleanerLevel := do
  let n ← decodeWord 4
  match CleanerLevel.all[n]? with
  | some level => return level
  | none => Decoder.fail (.badVariant n CleanerLevel.all.length)

/-! ### Texts and collections -/

def takeBytes (count : Nat) : Decoder (List UInt8) := fun bytes =>
  if bytes.length < count then .error .endOfString else .ok (bytes.take count, bytes.drop count)

def encodeText (s : String) : List UInt8 :=
  let bytes := Utf8.encode s
  encodeWord 8 bytes.length ++ bytes

def decodeText : Decoder String := do
  let count ← decodeWord 8
  let bytes ← takeBytes count
  match Utf8.decode bytes with
  | .ok s => return s
  | .error fault => Decoder.fail (.badText fault)

def decodeMany {α : Type} (item : Decoder α) : (count : Nat) → Decoder (List α)
  | 0 => return []
  | count + 1 => do
    let x ← item
    let rest ← decodeMany item count
    return x :: rest

def encodeMap (m : StringMap String) : List UInt8 :=
  encodeWord 8 m.size ++ m.entries.flatMap fun e => encodeText e.1 ++ encodeText e.2

def decodeEntry : Decoder (String × String) := do
  let k ← decodeText
  let v ← decodeText
  return (k, v)

/-- Decodes a map; of several entries with one key the last decides. -/
def decodeMap : Decoder (StringMap String) := do
  let count ← decodeWord 8
  let entries ← decodeMany decodeEntry count
  return StringMap.ofList entries

def encodeSet (s : StringSet) : List UInt8 :=
  encodeWord 8 s.size ++ s.toList.flatMap encodeText

def decodeSet : Decoder StringSet := do
  let count ← decodeWord 8
  let members ← decodeMany decodeText count
  return StringSet.ofList members

end JobConfig.Submission
