import JobConfig.Error
import JobConfig.Json.Record
import JobConfig.Setting
import JobConfig.Text.Blank

/-!
The texts of setting values: each kind has one canonical text per value, and a reader that accepts
it along with other spellings.
-/
namespace JobConfig

/-- Reads a truth value in any case, with blanks around it. -/
def readFlag (text : String) : Except Reason Bool :=
  let word := Text.toAsciiLower (Text.trim text)
  if word = "true" then .ok true
  else if word = "false" then .ok false
  else .error (.notBoolean word)

/-- Reads an integer from `low` to `high`, with blanks around it. -/
def readNumeral (low high : Int) (text : String) : Except Reason Int :=
  match Integer.read low high (Text.trim text).toList with
  | .ok n => .ok n
  | .error fault => .error (.notInteger text fault)

namespace CleanerLevel

/-- Reads the name of a level in any case, with blanks around it and with dashes for underscores. -/
def parse (text : String) : Except Reason CleanerLevel :=
  let dashed := Text.toAsciiLower (Text.trim text)
  let word := String.ofList (dashed.toList.map fun c => if c = '-' then '_' else c)
  match ofName? word with
  | some level => .ok level
  | none => .error (.unknownLevel word)

/-- Reads a level that belongs to no setting. -/
def ofText (text : String) : Except ConfigError CleanerLevel :=
  match parse text with
  | .ok level => .ok level
  | .error reason => .error (.invalid "closure cleaner level" reason)

end CleanerLevel

/-- Reads a JSON object; a value that is no string stands for its text, and of several members with
one key the last decides. -/
def readTable (text : String) : Except Reason (StringMap String) :=
  match Json.readAll (Json.readMap Json.readValue Json.maxDepth) text with
  | .ok members => .ok (StringMap.ofList (members.map fun m => (m.1, m.2.parameterText)))
  | .error fault => .error (.notObject fault)

/-- Reads a JSON array; an item that is no string stands for its text. -/
def readNames (text : String) : Except Reason StringSet :=
  match Json.readAll (Json.readSequence Json.readValue Json.maxDepth) text with
  | .ok items => .ok (StringSet.ofList (items.map Json.parameterText))
  | .error fault => .error (.notArray fault)

namespace Kind

def parse : (k : Kind) → String → Except Reason k.Value
  | .level, text => CleanerLevel.parse text
  | .interval, text => (readNumeral (-0x8000000000000000) 0x7fffffffffffffff text).map Int64.ofInt
  | .parallelism, text => (readNumeral (-0x80000000) 0x7fffffff text).map Int32.ofInt
  | .flag, text => readFlag text
  | .table, text => readTable text
  | .names, text => readNames text

def render : (k : Kind) → k.Value → String
  | .level, l => l.name
  | .interval, n => Integer.text n.toInt
  | .parallelism, n => Integer.text n.toInt
  | .flag, b => String.ofList (Json.boolChars b)
  | .table, m => (Json.ofStringMap m).text
  | .names, s => (Json.ofStringSet s).text

end Kind

namespace Setting

def parse (s : Setting) (text : String) : Except Reason s.Value :=
  s.kind.parse text

def render (s : Setting) (v : s.Value) : String :=
  s.kind.render v

end Setting

end JobConfig
