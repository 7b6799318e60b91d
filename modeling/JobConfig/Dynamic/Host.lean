import JobConfig.Dynamic.Text
import JobConfig.Error

/-!
What a config relies on when it is called from a dynamically typed language.

Values are passed as they are, and what they are read as is up to the language. To be turned into a
text, or to stand for an integer, a value may run code of its own; this code either answers or
raises, and what it raises may be anything.
-/
namespace JobConfig.Dynamic

inductive CallError where
  | unknownObject
  /-- There is no method or attribute of that name. -/
  | unknownName
  /-- An argument is missing, one too many, or not of the type asked for. -/
  | wrongType
  /-- An integer is beyond the range of the setting. -/
  | outOfRange
  /-- A text holds a surrogate. -/
  | notUnicode
  /-- The config refuses. -/
  | refused (error : ConfigError)
deriving DecidableEq

/-- A language whose values are `V`, and in which `ε` can be raised. -/
class Host (V : Type) (ε : outParam Type) where
  /-- What is raised when a call fails. -/
  raise : CallError → ε
  /-- The integer that a value stands for. -/
  index : V → Except ε Int
  /-- The truth value that a value is. -/
  truth : V → Except ε Bool
  /-- The code points of a value that is a text. -/
  codes? : V → Option (List Nat)
  /-- The entries of a value that is a dictionary, in its order. -/
  entries? : V → Option (List (V × V))
  /-- The code points of the text that a value is turned into. -/
  str : V → Except ε (List Nat)

/-- Truth values count as integers. Texts are made by the language itself, so none of them fails. -/
instance : Host Value CallError where
  raise e := e
  index
    | .integer n => .ok n
    | .bool b => .ok (if b then 1 else 0)
    | _ => .error .wrongType
  truth
    | .bool b => .ok b
    | _ => .error .wrongType
  codes?
    | .text ns => some ns
    | _ => none
  entries?
    | .dict entries => some entries
    | _ => none
  str v := .ok v.asText

variable (V : Type) {ε : Type} [Host V ε]

def fail {α : Type} (e : CallError) : Except ε α :=
  .error (Host.raise (V := V) e)

def readCodes (ns : List Nat) : Except ε String :=
  match stringOf? ns with
  | some s => .ok s
  | none => fail V .notUnicode

variable {V}

def readInteger (low high : Int) (v : V) : Except ε Int := do
  let n ← Host.index v
  if low ≤ n ∧ n ≤ high then .ok n else fail V .outOfRange

def readInt64 (v : V) : Except ε Int64 :=
  (readInteger (-0x8000000000000000) 0x7fffffffffffffff v).map Int64.ofInt

def readInt32 (v : V) : Except ε Int32 :=
  (readInteger (-0x80000000) 0x7fffffff v).map Int32.ofInt

def readText (v : V) : Except ε String :=
  match Host.codes? v with
  | some ns => readCodes V ns
  | none => fail V .wrongType

/-- A value as a plain parameter: a text stands for itself, any other value for the text that it is
turned into. -/
def parameterCodes (v : V) : Except ε (List Nat) :=
  match Host.codes? v with
  | some ns => .ok ns
  | none => Host.str v

def readPairs : List (V × V) → Except ε (List (String × String))
  | [] => .ok []
  | (k, v) :: rest => do
    let key ← readCodes V (← Host.str k)
    let text ← readCodes V (← parameterCodes v)
    return (key, text) :: (← readPairs rest)

def readParameters (v : V) : Except ε (List (String × Json)) :=
  match Host.entries? v with
  | some entries => (readPairs entries).map fun pairs => pairs.map fun e => (e.1, .string e.2)
  | none => fail V .wrongType

/-- Binds arguments to parameters: those by position first, the rest by keyword. -/
def bindArguments (parameters : List String) (arguments : List V) (keywords : List (String × V)) :
    Except ε (List V) :=
  let unbound := parameters.drop arguments.length
  if parameters.length < arguments.length then fail V .wrongType
  else if keywords.any fun k => !unbound.contains k.1 then fail V .wrongType
  else match unbound.mapM fun p => keywords.lookup p with
    | some rest => .ok (arguments ++ rest)
    | none => fail V .wrongType

end JobConfig.Dynamic
