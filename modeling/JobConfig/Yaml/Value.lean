import JobConfig.Error
import JobConfig.Json.Value

/-!
YAML values, when two of them are the same key, and their JSON form.
-/
namespace JobConfig.Yaml

inductive Value where
  | null
  | bool (b : Bool)
  | integer (n : WideInt)
  | float (x : Extended64)
  | string (s : String)
  | sequence (items : List Value)
  | mapping (entries : List (Value × Value))
  | tagged (tag : String) (value : Value)

namespace Value

instance : Inhabited Value := ⟨null⟩

/-- Equality of floats as keys: the zeros are equal, and so is what is no number. -/
def sameFloat : Extended64 → Extended64 → Bool
  | .finite x, .finite y => x.sameValue y
  | x, y => decide (x = y)

mutual

/-- Whether two values are the same key. The order of entries does not count. -/
def same : Value → Value → Bool
  | null, null => true
  | bool a, bool b => a == b
  | integer m, integer n => decide (m = n)
  | float x, float y => sameFloat x y
  | string s, string t => s == t
  | sequence xs, sequence ys => sameItems xs ys
  | mapping xs, mapping ys => xs.length == ys.length && sameEntries xs ys
  | tagged s x, tagged t y => s == t && same x y
  | _, _ => false

def sameItems : List Value → List Value → Bool
  | [], [] => true
  | x :: xs, y :: ys => same x y && sameItems xs ys
  | _, _ => false

def sameEntries : List (Value × Value) → List (Value × Value) → Bool
  | [], _ => true
  | (k, v) :: rest, ys => (ys.any fun e => same k e.1 && same v e.2) && sameEntries rest ys

end

/-- The text of a key of an object: numbers and truth values are written out. -/
def keyText : Value → Except UnsupportedValue String
  | string s => .ok s
  | bool b => .ok (String.ofList (Json.boolChars b))
  | integer n => .ok (Integer.text n.val)
  | float (.finite x) => .ok (String.ofList (Json.floatLayout.chars x))
  | float _ => .error .keyNotFinite
  | null | sequence _ | mapping _ | tagged _ _ => .error .keyNotText

mutual

/-- The JSON form of a value: what is no finite number is null, and a tag becomes the only key of an
object. -/
def toJson : Value → Except UnsupportedValue Json
  | null => .ok .null
  | bool b => .ok (.bool b)
  | integer n => .ok (.integer n)
  | float (.finite x) => .ok (.float x)
  | float _ => .ok .null
  | string s => .ok (.string s)
  | sequence items => (itemsToJson items).map .array
  | mapping entries => (entriesToJson entries).map .ofMembers
  | tagged tag value => value.toJson.map fun v => .object [("!" ++ tag, v)]

def itemsToJson : List Value → Except UnsupportedValue (List Json)
  | [] => .ok []
  | x :: rest =>
    match x.toJson with
    | .error e => .error e
    | .ok x => (itemsToJson rest).map (x :: ·)

/-- The members of the JSON form of a mapping; a key is judged before its value. -/
def entriesToJson : List (Value × Value) → Except UnsupportedValue (List (String × Json))
  | [] => .ok []
  | (k, v) :: rest =>
    match k.keyText with
    | .error e => .error e
    | .ok k =>
      match v.toJson with
      | .error e => .error e
      | .ok v => (entriesToJson rest).map ((k, v) :: ·)

end

end Value

end JobConfig.Yaml
