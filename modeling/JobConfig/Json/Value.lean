import JobConfig.StringMap
import JobConfig.Number.Integer
import JobConfig.Number.Literal

/-!
JSON values and their compact text.

Integers keep the full range of signed and unsigned 64-bit words; every other number is a binary64
number. The members of an object are written in the order in which the value holds them.
-/
namespace JobConfig

/-- An integer of a signed or an unsigned 64-bit word. -/
structure WideInt where
  val : Int
  lower : -0x8000000000000000 ≤ val
  upper : val ≤ 0xffffffffffffffff
deriving DecidableEq

def WideInt.ofInt? (n : Int) : Option WideInt :=
  if h : -0x8000000000000000 ≤ n ∧ n ≤ 0xffffffffffffffff then some ⟨n, h.1, h.2⟩ else none

inductive Json where
  | null
  | bool (b : Bool)
  | integer (n : WideInt)
  | float (x : Binary64)
  | string (s : String)
  | array (items : List Json)
  | object (members : List (String × Json))

namespace Json

instance : Inhabited Json := ⟨null⟩

/-- The object with the given members in ascending order of their keys; of several with one key the
last decides. -/
def ofMembers (members : List (String × Json)) : Json :=
  object (StringMap.ofList members).entries

/-- Numbers are positional from `1e-5` up to below `1e16`; an exponent carries its sign and no
needless zeros. -/
def floatLayout : FloatLayout := ⟨-4, 16, 1⟩

/-- A character within quotes: the quote, the backslash and the control characters are escaped. -/
def escapeChar (c : Char) : List Char :=
  if c = '"' then ['\\', '"']
  else if c = '\\' then ['\\', '\\']
  else if c = '\x08' then ['\\', 'b']
  else if c = '\x0c' then ['\\', 'f']
  else if c = '\n' then ['\\', 'n']
  else if c = '\r' then ['\\', 'r']
  else if c = '\t' then ['\\', 't']
  else if c.toNat < 0x20 then
    ['\\', 'u', '0', '0', Nat.digitChar (c.toNat / 16), Nat.digitChar (c.toNat % 16)]
  else [c]

def quotedChars (cs : List Char) : List Char :=
  '"' :: (cs.flatMap escapeChar ++ ['"'])

def boolChars (b : Bool) : List Char :=
  if b then ['t', 'r', 'u', 'e'] else ['f', 'a', 'l', 's', 'e']

mutual

/-- The compact text of a value. -/
def chars : Json → List Char
  | .null => ['n', 'u', 'l', 'l']
  | .bool b => boolChars b
  | .integer n => Integer.chars n.val
  | .float x => floatLayout.chars x
  | .string s => quotedChars s.toList
  | .array [] => ['[', ']']
  | .array (x :: rest) => '[' :: (x.chars ++ itemsChars rest)
  | .object [] => ['{', '}']
  | .object ((k, v) :: rest) =>
    '{' :: (quotedChars k.toList ++ ':' :: (v.chars ++ membersChars rest))

/-- The items behind the first one of an array, with the closing bracket. -/
def itemsChars : List Json → List Char
  | [] => [']']
  | x :: rest => ',' :: (x.chars ++ itemsChars rest)

def membersChars : List (String × Json) → List Char
  | [] => ['}']
  | (k, v) :: rest => ',' :: (quotedChars k.toList ++ ':' :: (v.chars ++ membersChars rest))

end

def text (v : Json) : String :=
  String.ofList v.chars

/-- A value as a plain parameter: a string stands for itself, any other value for its text. -/
def parameterText : Json → String
  | .string s => s
  | v => v.text

def ofStringMap (m : StringMap String) : Json :=
  object (m.entries.map fun e => (e.1, string e.2))

def ofStringSet (s : StringSet) : Json :=
  array (s.toList.map string)

end Json

end JobConfig
