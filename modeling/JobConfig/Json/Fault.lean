import JobConfig.Json.Value
import JobConfig.Text.Printable

/-!
Why a text is not the JSON that was asked for: faults of syntax, and well-formed values of another
shape.
-/
namespace JobConfig.Json

/-- What a reader asks for. -/
inductive Shape where
  | boolean
  | integer32
  | integer64
  | text
  | map
  | sequence
  | unit
  | variant
  | record (name : String)
deriving DecidableEq, Repr

def Shape.message : Shape → String
  | .boolean => "a boolean"
  | .integer32 => "i32"
  | .integer64 => "i64"
  | .text => "a string"
  | .map => "a map"
  | .sequence => "a sequence"
  | .unit => "unit"
  | .variant => "variant identifier"
  | .record name => "struct " ++ name

inductive Found where
  | null
  | boolean (b : Bool)
  | integer (n : Int)
  | float (x : Binary64)
  | text (s : String)
  | sequence
  | map
deriving DecidableEq

/-- A character of a text shown in a message. Characters that show nothing of their own, or would
attach to their neighbour, are written as their code point. -/
def shownChar (c : Char) : List Char :=
  let n := c.toNat
  if n = 0 then ['\\', '0']
  else if c = '\t' then ['\\', 't']
  else if c = '\r' then ['\\', 'r']
  else if c = '\n' then ['\\', 'n']
  else if c = '"' then ['\\', '"']
  else if c = '\\' then ['\\', '\\']
  else if Text.isAttaching n || !Text.isPrintable n then
    '\\' :: 'u' :: '{' :: (Nat.toDigits 16 n ++ ['}'])
  else [c]

def Found.message : Found → String
  | .null => "null"
  | .boolean b => "boolean `" ++ String.ofList (boolChars b) ++ "`"
  | .integer n => "integer `" ++ Integer.text n ++ "`"
  | .float x => "floating point `" ++ String.ofList (floatLayout.chars x) ++ "`"
  | .text s => "string \"" ++ String.ofList (s.toList.flatMap shownChar) ++ "\""
  | .sequence => "sequence"
  | .map => "map"

inductive Fault where
  | endOfValue
  | endOfList
  | endOfObject
  | endOfString
  | expectedValue
  | expectedIdent
  | expectedColon
  | expectedListEnd
  | expectedObjectEnd
  | keyNotString
  | trailingComma
  | trailingCharacters
  | tooDeep
  | controlCharacter
  | invalidEscape
  | loneSurrogate
  | endOfEscape
  | invalidNumber
  | numberOutOfRange
  | wrongType (found : Found) (expected : Shape)
  | wrongInteger (n : Int) (expected : Shape)
  | unknownVariant (name : String) (known : List String)
  | duplicateField (name : String)
  | missingField (name : String)
  | wrongLength (length : Nat) (record : String) (fields : Nat)
deriving DecidableEq

def Fault.message : Fault → String
  | .endOfValue => "EOF while parsing a value"
  | .endOfList => "EOF while parsing a list"
  | .endOfObject => "EOF while parsing an object"
  | .endOfString => "EOF while parsing a string"
  | .expectedValue => "expected value"
  | .expectedIdent => "expected ident"
  | .expectedColon => "expected `:`"
  | .expectedListEnd => "expected `,` or `]`"
  | .expectedObjectEnd => "expected `,` or `\x7d`"
  | .keyNotString => "key must be a string"
  | .trailingComma => "trailing comma"
  | .trailingCharacters => "trailing characters"
  | .tooDeep => "recursion limit exceeded"
  | .controlCharacter => "control character (\\u0000-\\u001F) found while parsing a string"
  | .invalidEscape => "invalid escape"
  | .loneSurrogate => "lone leading surrogate in hex escape"
  | .endOfEscape => "unexpected end of hex escape"
  | .invalidNumber => "invalid number"
  | .numberOutOfRange => "number out of range"
  | .wrongType found expected =>
    "invalid type: " ++ found.message ++ ", expected " ++ expected.message
  | .wrongInteger n expected =>
    "invalid value: " ++ (Found.integer n).message ++ ", expected " ++ expected.message
  | .unknownVariant name known =>
    "unknown variant `" ++ name ++ "`, expected one of " ++
      ", ".intercalate (known.map fun k => "`" ++ k ++ "`")
  | .duplicateField name => "duplicate field `" ++ name ++ "`"
  | .missingField name => "missing field `" ++ name ++ "`"
  | .wrongLength length record fields =>
    "invalid length " ++ toString length ++ ", expected " ++ (Shape.record record).message ++
      " with " ++ toString fields ++ " elements"

end JobConfig.Json
